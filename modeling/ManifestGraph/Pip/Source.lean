/-
  The sources that resolve manifests with pip: they differ in which files are manifests and in how one
  is resolved. A manifest whose resolution fails with a structured error becomes a finding with that
  error, and the others are resolved all the same.
-/
import ManifestGraph.Discovery
import ManifestGraph.Pip.Client
import ManifestGraph.Pip.Tree
import ManifestGraph.Resolution.Source
namespace ManifestGraph.Pip

/-- A kind of manifest and how one is resolved. -/
structure ManifestKind where
  /-- The name of the source. -/
  name : Text
  fileName : Text
  /-- The manager in the metadata of the findings. -/
  manager : Text
  /-- A target file that the source resolves. -/
  accepts : Text → Bool
  /-- The lock file that belongs to a manifest; both are named from the directory searched. -/
  lockFile : Text → Text
  /-- The files that a resolved manifest makes other sources pass over. -/
  exclusions : Text → List Text
  /-- The graph of a manifest. -/
  resolve : FoundFile → SourceOptions → Run DependencyGraph

/-- The metadata of a project that has no name of its own. -/
def anonymous (manager runtime : Text) : Metadata :=
  { manager, name := rootName, version := rootVersion, runtime }

namespace ManifestKind

/-- The manifests to resolve: the target file, or all below the directory, or the one at its top. -/
def manifests (k : ManifestKind) (fs : FileSystem) (directory : Path) (o : SourceOptions) :
    Except Failure (List FoundFile) :=
  if !o.targetFile.isEmpty then Discovery.find fs directory [] [] o.targetFile
  else if o.allProjects then
    Discovery.find fs directory [k.fileName] (Exclusion.python ++ o.exclude.getD [])
  else Discovery.find fs directory [] [] k.fileName

/-- A resolved manifest. -/
def resolved (k : ManifestKind) (file : FoundFile) (runtime : Text) (g : DependencyGraph) :
    Finding :=
  { graph := some g, exclusions := k.exclusions file.relative, lockFile := k.lockFile file.relative,
    manifestFile := file.relative, metadata := some (anonymous k.manager runtime) }

/-- A manifest that could not be resolved. -/
def failed (k : ManifestKind) (file : FoundFile) (runtime : Text) (e : Failure) : Finding :=
  { lockFile := k.lockFile file.relative, manifestFile := file.relative, error := some e,
    metadata := some (anonymous k.manager runtime) }

/-- The finding for one manifest. -/
def findingFor (k : ManifestKind) (o : SourceOptions) (runtime : Text) (file : FoundFile) :
    Run Finding := do
  Run.log .info .pip ("Building dependency graph for " ++ file.relative)
  match ← Run.attempt (k.resolve file o) with
  | .ok g => return k.resolved file runtime g
  | .error e =>
    match e.fault.reason.catalog? with
    | none => throw e
    | some error =>
      Run.log .error .pip
        ("Failed to build dependency graph for " ++ file.relative ++ ": " ++ error.detail)
      return k.failed file runtime e

/-- The runtime of the findings; none, with a warning, if there is no interpreter. -/
def runtime? (k : ManifestKind) : Run (Option Text) := do
  match ← Run.attempt interpreterVersion with
  | .ok version => return some ("python@" ++ version)
  | .error e =>
    match e.fault.reason.catalog? with
    | none => throw e
    | some error =>
      Run.log .warning .pip ("Skipping " ++ k.name ++ " plugin: " ++ error.detail)
      return none

/-- The findings for some manifests, one after the other. -/
def findingsFor (k : ManifestKind) (o : SourceOptions) (runtime : Text) :
    List FoundFile → Run (List Finding)
  | [] => return []
  | file :: files => do
    let finding ← k.findingFor o runtime file
    let findings ← findingsFor k o runtime files
    return finding :: findings

/-- The findings below a directory. -/
def find (k : ManifestKind) (directory : Text) (o : SourceOptions) : Run (List Finding) := do
  if !o.targetFile.isEmpty && !k.accepts o.targetFile then
    Run.log .info .pip ("Skipping " ++ k.name ++ " plugin for " ++ o.targetFile)
    return []
  let files ← Run.ofExcept (k.manifests (← get).files (Path.ofText directory) o)
  if files.isEmpty then
    Run.log .info .pip ("No " ++ k.fileName ++ " files found in " ++ directory)
    return []
  match ← k.runtime? with
  | none => return []
  | some runtime => k.findingsFor o runtime files

/-- The source of these manifests. -/
def source (k : ManifestKind) : Source := { name := k.name, find := k.find }

end ManifestKind

/-- The graph of a report, as deep as calls may nest. -/
def graphOf (r : Report) (manager : Text := "pip") : Run DependencyGraph := do
  Run.ofExcept (r.graphWithin (← get).callDepth manager)

/-- Requirements files; `reportExclusions` says that other sources should pass over them. -/
def requirementsFiles (c : Client) (reportExclusions : Bool := false) : ManifestKind where
  name := "pip"
  fileName := "requirements.txt"
  manager := "pip"
  accepts target := (Path.ofText target).suffix = ".txt"
  lockFile := id
  exclusions file := if reportExclusions then [file] else []
  resolve file _ := do graphOf (← c.reportOnFile file.path.toText)

end ManifestGraph.Pip
