/-
  Resolving a directory: the sources first, and the fallback for what they do not cover.

  If one project is asked for, the first source that finds anything decides, and its first finding is
  the project. If all projects are asked for, every source contributes, and the fallback is asked for
  the rest. The graphs of the sources are written before the fallback is asked. Projects that fail are
  listed in one warning.
-/
import ManifestGraph.Conversion.Graphs
import ManifestGraph.Resolution.Combined
import ManifestGraph.Resolution.Problems
import ManifestGraph.Resolution.Source
namespace ManifestGraph

/-- What a resolution works with. -/
structure Resolution where
  /-- In order of precedence. -/
  sources : List Source
  fallback : Text → ResolutionOptions → Run (List Output)
  organization : Text
  /-- Turns the SBOM of a finding into graphs. -/
  convert : Option (Finding → Run (List DependencyGraph)) := none

/-- The converter that asks the service. -/
def Conversion.converter (s : Service) (remoteUrl : Text) (f : Finding) :
    Run (List DependencyGraph) :=
  match f.metadata with
  | some metadata => Conversion.graphs s (f.sbom.getD []) metadata remoteUrl
  | none => Run.fail (.resolution (.noMetadata f.lockFile))

namespace Resolution

/-- The findings of one source. -/
def ask (source : Source) (directory : Text) (o : SourceOptions) : Run (List Finding) := do
  Run.note (.consulted source.name directory o)
  match ← Run.attempt (source.find directory o) with
  | .ok findings => return findings
  | .error e => Run.failFrom (.resolution (.sourceFailed source.name e.message)) e

/-- The first finding of the first source that has one. -/
def firstFinding (directory : Text) (o : SourceOptions) : List Source → Run (List Finding)
  | [] => return []
  | source :: sources => do
    match ← ask source directory o with
    | [] => firstFinding directory o sources
    | finding :: _ =>
      match finding.error with
      | some e => Run.failFrom (.resolution (.findingFailed finding.lockFile e.message)) e
      | none => return [finding]

/-- Fails for the first finding with an error. -/
def stopAtError : List Finding → Run Unit
  | [] => return
  | finding :: findings =>
    match finding.error with
    | some e => throw (e.failFast finding.lockFile)
    | none => stopAtError findings

/-- The findings of all sources; `failFast` stops at the first one with an error. -/
def allFindings (directory : Text) (o : SourceOptions) (failFast : Bool) :
    List Source → Run (List Finding)
  | [] => return []
  | source :: sources => do
    let here ← ask source directory o
    if failFast then stopAtError here
    let further ← allFindings directory o failFast sources
    return here ++ further

/-- The findings that the resolution goes on with. -/
def collect (r : Resolution) (directory : Text) (o : ResolutionOptions) : Run (List Finding) :=
  if o.allProjects then allFindings directory o.forSources o.failFast r.sources
  else firstFinding directory o.forSources r.sources

/-- The graphs of a finding without an error. -/
def graphsOf (r : Resolution) (f : Finding) : Run (List DependencyGraph) := do
  match f.graph, f.sbom, r.convert with
  | some g, _, _ => return [g]
  | none, none, _ => Run.fail (.resolution (.nothingToConvert f.lockFile))
  | none, some _, none => Run.fail (.resolution (.noConverter f.lockFile))
  | none, some sbom, some convert =>
    Run.note (.converted f.lockFile sbom)
    match ← Run.attempt (convert f) with
    | .ok graphs => return graphs
    | .error e => Run.failFrom (.resolution (.conversionFailed e.message)) e

/-- The graphs of all findings without an error. -/
def resolved (r : Resolution) : List Finding → Run (List ResolvedProject)
  | [] => return []
  | f :: fs =>
    match f.error with
    | some _ => resolved r fs
    | none => do
      let graphs ← r.graphsOf f
      let further ← resolved r fs
      return graphs.map (fun graph => ⟨f, graph⟩) ++ further

/-- The findings with an error, as problems. -/
def problemsOf (fs : List Finding) : List ProblemProject :=
  fs.filterMap fun f => f.error.map fun e => ⟨f.lockFile, f.manifestFile, e⟩

/-- The outputs for the graphs of all findings, where they can be written. -/
def outputsOf (ps : List ResolvedProject) (o : ResolutionOptions) : List Output :=
  if ps.isEmpty then []
  else if !o.targetFile.isEmpty && o.workspacePackages then
    [ResolvedProject.combined ps o.targetFile]
  else ps.map ResolvedProject.output

/-- The outputs for the graphs of all findings; one that cannot be written on its own is a failure. -/
def write (ps : List ResolvedProject) (o : ResolutionOptions) : Except Failure (List Output) :=
  if !o.targetFile.isEmpty && o.workspacePackages then .ok (outputsOf ps o)
  else ps.mapM ResolvedProject.write

/-- What the fallback is asked for: it passes over what the sources resolved and reports errors with
the graphs. -/
def forFallback (o : ResolutionOptions) (fs : List Finding) : ResolutionOptions :=
  { o with
    exclude := Exclusion.append o.exclude (fs.flatMap Finding.exclusions)
    effectiveGraph := false
    effectiveGraphWithErrors := true }

/-- The outputs of the fallback. That it finds nothing is a failure only if the sources found nothing
either. -/
def askFallback (r : Resolution) (directory : Text) (o : ResolutionOptions) (fs : List Finding) :
    Run (List Output) := do
  let options := forFallback o fs
  Run.note (.fellBack directory options)
  match ← Run.attempt (r.fallback directory options) with
  | .ok outputs => return outputs
  | .error e =>
    if !e.meansNoProjects then Run.failFrom (.resolution (.fallbackFailed e.message)) e
    else if fs.isEmpty then Run.failFrom .noSupportedProjects e
    else do
      Run.log .info .resolution "Legacy resolver found no additional projects"
      return []

/-- The outputs without errors. -/
def goodOutputs (os : List Output) : List Output := os.filter fun o => o.errors.isEmpty

/-- The outputs with errors, as problems. -/
def outputProblems (os : List Output) : List ProblemProject :=
  os.filterMap fun o => o.errors.head?.map fun e => ⟨o.targetFile, o.pluginFile.getD [], e⟩

/-- Warns about problems, if there are any. -/
def warn (ps : List ProblemProject) (total : Nat) : Run Unit :=
  if ps.isEmpty then return
  else Run.log .warning .resolution (ProblemProject.warning ps total)

/-- Resolves a directory. -/
def run (r : Resolution) (directory : Text) (o : ResolutionOptions) : Run (List Output) := do
  if r.organization.isEmpty then
    Run.log .error .failures "failed to determine org id"
    throw Failure.withoutOrganization
  let findings ← r.collect directory o
  let projects ← r.resolved findings
  let own ← Run.ofExcept (write projects o)
  let further ←
    if findings.isEmpty || o.allProjects then r.askFallback directory o findings else pure []
  warn (problemsOf findings ++ outputProblems further) (findings.length + further.length)
  return own ++ goodOutputs further

end Resolution
end ManifestGraph
