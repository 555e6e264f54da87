/-
  Reports as plain text: blocks that end with a marker, each with a graph and the file it belongs to
  between two more markers. A block without both is passed over; a graph is not looked into.
-/
import ManifestGraph.Record
import ManifestGraph.Text.Blank
namespace ManifestGraph.Record

/-- The marker at the end of a block. -/
def endMarker : Bytes := Bytes.ofText "DepGraph end"

/-- The marker before a graph. -/
def graphMarker : Bytes := Bytes.ofText "DepGraph data:"

/-- The marker between a graph and its file. -/
def targetMarker : Bytes := Bytes.ofText "DepGraph target:"

/-- The report in one block, if it has both markers in their order. -/
def ofBlock? (block : Bytes) : Option Record := do
  let (_, rest) ← Bytes.breakOn graphMarker block
  let (graph, target) ← Bytes.breakOn targetMarker rest
  some { graph := some graph, targetFile := (Utf8.decodeLossy target).trim }

/-- The reports of all blocks. -/
def ofBlocks (output : Bytes) : List Record := (Bytes.splitOn endMarker output).filterMap ofBlock?

end ManifestGraph.Record
