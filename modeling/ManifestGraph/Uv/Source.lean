/-
  The source that resolves uv projects: every lock file is exported as an SBOM, and the conversion
  service turns it into graphs, one for each member of a workspace. A failed export is a finding; a
  failed conversion ends the run.
-/
import ManifestGraph.Conversion.Graphs
import ManifestGraph.Discovery
import ManifestGraph.Resolution.Source
import ManifestGraph.Uv.Client
namespace ManifestGraph.Uv

/-- The file name of a lock file. -/
def lockName : Text := "uv.lock"

/-- What the source works with. -/
structure Projects where
  client : Client := {}
  service : Conversion.Service
  remoteUrl : Text := []
  /-- Other sources should pass over the manifests of resolved projects. -/
  reportExclusions : Bool := false

namespace Projects

/-- The lock files to export: all below the directory, or the target file, or the one at the top. -/
def lockFiles (fs : FileSystem) (directory : Path) (o : SourceOptions) :
    Except Failure (List FoundFile) :=
  if o.allProjects then
    Discovery.find fs directory [lockName] (Exclusion.common ++ o.exclude.getD [])
  else
    Discovery.find fs directory [] [] (if o.targetFile.isEmpty then lockName else o.targetFile)

/-- The finding for one of the graphs of a lock file. -/
def findingFor (p : Projects) (lockFile : Text) (metadata : Metadata)
    (workspace : List WorkspacePackage) (g : DependencyGraph) : Finding :=
  let top := (Path.ofText lockFile).parent
  let place := match g.workspacePackage? workspace with
    | some package => top ++ Path.ofText package.path
    | none => top
  let manifestFile := (place ++ Path.ofText "pyproject.toml").toText
  let requirementsFile := (place ++ Path.ofText "requirements.txt").toText
  { graph := some g
    exclusions := if p.reportExclusions then [manifestFile, requirementsFile] else []
    lockFile, manifestFile, metadata := some metadata, workspace }

/-- The findings for an exported SBOM. -/
def findingsFor (p : Projects) (sbom : Bytes) (lockFile : Text) : Run (List Finding) := do
  let document ← Run.ofExcept (Sbom.decode sbom)
  let metadata ← Run.ofExcept document.metadata
  let graphs ← Conversion.graphs p.service sbom metadata p.remoteUrl
  return graphs.map (p.findingFor lockFile metadata document.workspacePackages)

/-- A failure that concerns one lock file only. -/
def concernsOne (e : Failure) : Bool :=
  match e.fault.reason.catalog? with
  | some error => error.family = .general || error.family = .unprocessable
  | none => false

/-- The findings for one lock file. -/
def findingsAt (p : Projects) (o : SourceOptions) (file : FoundFile) : Run (List Finding) := do
  Run.log .info .uv ("Building dependency graph for " ++ file.relative)
  match ← Run.attempt (p.client.exportSbom file.path.parent.toText o) with
  | .ok sbom => p.findingsFor sbom file.relative
  | .error e =>
    if concernsOne e then
      Run.log .warning .uv
        ("Failed to build dependency graph for " ++ file.relative ++ ": " ++ e.message)
      return [{ lockFile := file.relative, error := some e }]
    else throw e

/-- The findings for some lock files, one after the other. -/
def findingsIn (p : Projects) (o : SourceOptions) : List FoundFile → Run (List Finding)
  | [] => return []
  | file :: files => do
    let here ← p.findingsAt o file
    let further ← findingsIn p o files
    return here ++ further

/-- The findings below a directory. -/
def find (p : Projects) (directory : Text) (o : SourceOptions) : Run (List Finding) := do
  if !o.targetFile.isEmpty && (Path.ofText o.targetFile).name ≠ lockName then
    Run.log .info .uv ("Skipping uv plugin for " ++ o.targetFile ++ " as it is not a '"
      ++ lockName ++ "' file")
    return []
  p.findingsIn o (← Run.ofExcept (lockFiles (← get).files (Path.ofText directory) o))

/-- The source of these projects. -/
def source (p : Projects) : Source := { name := "uv", find := p.find }

end Projects
end ManifestGraph.Uv
