/-
  JSON documents of a fixed shape.
-/
import ManifestGraph.Data.Fit
import ManifestGraph.Json.Reader
namespace ManifestGraph.Json

/-- Reads a document into a model; a document that is no JSON is a misfit as a whole. -/
def readModel (fit : Data → Fit α) (bs : Bytes) : Except (List Misfit) α :=
  match readStrict bs with
  | some d => (fit d).toExcept
  | none => .error [⟨[], .unreadableJson⟩]

end ManifestGraph.Json
