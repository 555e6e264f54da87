/-
  The outputs of resolved projects: one for each graph, or all graphs of a workspace as records of one
  output in the line protocol. The records are written in ASCII, so they can hold what has no UTF-8.
-/
import ManifestGraph.Finding
import ManifestGraph.Output
import ManifestGraph.Graph.Document
namespace ManifestGraph

/-- A graph with the finding that it comes from. -/
structure ResolvedProject where
  finding : Finding
  graph : DependencyGraph

namespace ResolvedProject

/-- The output for one graph, by the document that it was written to. -/
def outputOf (p : ResolvedProject) (payload : Bytes) : Output :=
  { payload
    targetFile := p.finding.lockFile
    pluginFile := if p.finding.manifestFile.isEmpty then none else some p.finding.manifestFile }

/-- The output for a graph that can be written. -/
def output (p : ResolvedProject) : Output := p.outputOf p.graph.encode

/-- The output for one graph, if it can be written. -/
def write (p : ResolvedProject) : Except Failure Output := p.graph.write.map p.outputOf

/-- The record for one graph of a workspace. -/
def record (targetFile : Text) (p : ResolvedProject) : Data :=
  let head : Members := [("depGraph", p.graph.toData), ("normalisedTargetFile", .text targetFile)]
  let plugin : Members :=
    if p.finding.manifestFile.isEmpty then []
    else [("targetFileFromPlugin", .text p.finding.manifestFile)]
  .record (head ++ plugin)

/-- The graphs of a workspace as one output. -/
def combined (ps : List ResolvedProject) (targetFile : Text) : Output :=
  let lines := ps.map fun p => Json.writeBytes Json.Style.compactAscii (p.record targetFile)
  { payload := [Output.newline].intercalate lines ++ [Output.newline]
    targetFile
    contentType := .jsonLines }

end ResolvedProject
end ManifestGraph
