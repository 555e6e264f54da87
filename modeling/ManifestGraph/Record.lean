/-
  What the fallback resolver reports for one project: a graph, where it was found, and an error. The
  graph, the target and the error are JSON that is not read yet.
-/
import ManifestGraph.Bytes.Utf8
namespace ManifestGraph

/-- The report about one project. -/
structure Record where
  graph : Option Bytes
  targetFile : Text := []
  pluginFile : Option Text := none
  target : Option Bytes := none
  error : Option Bytes := none
  deriving DecidableEq, Inhabited

/-- The bytes of a text. -/
def Bytes.ofText (t : Text) : Bytes := Utf8.encode t

end ManifestGraph
