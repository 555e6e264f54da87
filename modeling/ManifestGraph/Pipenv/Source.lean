/-
  The source that resolves Pipfiles: pip resolves the packages of the Pipfile, pinned to the versions of
  the lock file beside it. There must be a lock file; one that cannot be read is reported, and then
  nothing is pinned.
-/
import ManifestGraph.Pip.Source
import ManifestGraph.Pipenv.Lock
import ManifestGraph.Pipenv.Pipfile
namespace ManifestGraph.Pipenv

/-- The lock file beside a Pipfile. -/
def lockFileOf (pipfile : Path) : Path := pipfile.parent ++ Path.ofText lockName

/-- The constraints of the lock file at a path; none if it cannot be read. -/
def constraintsAt (lockPath : Path) (dev : Bool) : Run (List Text) := do
  match ← Run.attempt (Lock.read lockPath) with
  | .ok lock => return lock.constraints dev
  | .error e =>
    let why := (e.fault.reason.catalog?).elim e.message CatalogError.detail
    Run.log .error .pipenv (why ++ ", proceeding without constraints")
    return []

/-- What pip would install for a Pipfile; nothing, without asking, for one without packages. -/
def report (c : Pip.Client) (file : Pipfile) (constraints : List Text) (dev : Bool) :
    Run Pip.Report := do
  let packages ← Run.ofExcept (file.requirements dev)
  if packages.isEmpty then return {} else c.reportOnPackages packages constraints

/-- The graph of a Pipfile. -/
def graphOf (c : Pip.Client) (file : FoundFile) (o : SourceOptions) : Run DependencyGraph := do
  let pipfile ← Pipfile.read file.path
  let lockPath := lockFileOf file.path
  if !(← Run.isPresent lockPath) then
    Run.fail (.inFamily .manifestNotFound ("Pipfile.lock not found at " ++ lockPath.toText
      ++ ". Run 'pipenv lock' to generate it."))
  let constraints ← constraintsAt lockPath o.dev
  let g ← Pip.graphOf (← report c pipfile constraints o.dev) "pipenv"
  Run.log .info .pipenv ("Successfully built dependency graph from " ++ file.relative)
  return g

/-- Pipfiles; `reportExclusions` says that other sources should pass over them and their lock files. -/
def pipfiles (c : Pip.Client) (reportExclusions : Bool := false) : Pip.ManifestKind where
  name := "pipenv"
  fileName := pipfileName
  manager := "pipenv"
  accepts target := (Path.ofText target).name = pipfileName
  lockFile file := (lockFileOf (Path.ofText file)).toText
  exclusions file :=
    if reportExclusions then [file, (lockFileOf (Path.ofText file)).toText] else []
  resolve := graphOf c

end ManifestGraph.Pipenv
