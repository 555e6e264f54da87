/-
  What a source finds for one manifest: a graph, or an SBOM still to be converted, or the failure to
  resolve it.
-/
import ManifestGraph.Failure
import ManifestGraph.Graph
namespace ManifestGraph

/-- What a source is asked for. -/
structure SourceOptions where
  allProjects : Bool := false
  targetFile : Text := []
  dev : Bool := false
  exclude : Option (List Text) := none
  deriving DecidableEq, Inhabited

/-- The identity of the project that a finding describes; the runtime is like `python@3.12.1`. -/
structure Metadata where
  manager : Text
  name : Text
  version : Text := []
  runtime : Text := []
  deriving DecidableEq, Inhabited

/-- A member of a workspace, with its path from the root of the workspace. -/
structure WorkspacePackage where
  name : Text
  version : Text
  path : Text
  deriving DecidableEq, Inhabited

/-- The result of resolving one manifest. Files are named from the directory that was searched. -/
structure Finding where
  graph : Option DependencyGraph := none
  sbom : Option Bytes := none
  /-- Files that other sources should pass over. -/
  exclusions : List Text := []
  lockFile : Text := []
  manifestFile : Text := []
  error : Option Failure := none
  metadata : Option Metadata := none
  workspace : List WorkspacePackage := []

end ManifestGraph
