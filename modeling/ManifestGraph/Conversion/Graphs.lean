/-
  Graphs from SBOM documents: those that the service finds, all of them valid, or a graph of the root
  alone if it finds none.
-/
import ManifestGraph.Conversion.Service
import ManifestGraph.Graph.Builder
import ManifestGraph.Graph.Invariants
namespace ManifestGraph.Conversion

/-- The graph of a project that depends on nothing. -/
def rootOnly (m : Metadata) : Except Failure DependencyGraph :=
  if m.manager.isEmpty then .error (.of (.resolution .rootWithoutManager))
  else if m.name.isEmpty then .error (.of (.resolution .rootWithoutName))
  else
    let version := if m.version.isEmpty then none else some m.version
    .ok (GraphBuilder.start { name := m.manager } { name := m.name, version }).build

/-- All graphs pass the check. -/
def checkAll : List DependencyGraph → Except Failure Unit
  | [] => .ok ()
  | g :: gs => do
    g.check
    checkAll gs

/-- The graphs of an answer, or of the root alone. -/
def graphsOf (response : Response) (m : Metadata) : Except Failure (List DependencyGraph) := do
  let graphs := response.scans.flatMap Scan.graphs
  checkAll graphs
  if graphs.isEmpty then
    let g ← rootOnly m
    .ok [g]
  else .ok graphs

/-- Converts an SBOM into graphs. -/
def graphs (s : Service) (sbom : Bytes) (m : Metadata) (remoteUrl : Text) :
    Run (List DependencyGraph) := do
  let response ← s.convert sbom remoteUrl
  Run.log .info .conversion
    ("Successfully converted SBOM, warning(s): " ++ Text.ofNat response.warnings.length)
  Run.ofExcept (graphsOf response m)

end ManifestGraph.Conversion
