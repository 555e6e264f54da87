/-
  The projects that could not be resolved, and the warning that lists them.
-/
import ManifestGraph.Failure
namespace ManifestGraph

/-- A project that could not be resolved. -/
structure ProblemProject where
  lockFile : Text
  manifestFile : Text
  error : Failure

namespace ProblemProject

/-- Where the project is: its lock file, with the manifest if that is another file. -/
def place (p : ProblemProject) : Text :=
  if p.lockFile.isEmpty then (if p.manifestFile.isEmpty then "<unknown>" else p.manifestFile)
  else if p.manifestFile.isEmpty || p.manifestFile = p.lockFile then p.lockFile
  else p.lockFile ++ " (" ++ p.manifestFile ++ ")"

/-- The line about a project. -/
def line (p : ProblemProject) : Text := "  " ++ p.place ++ ": " ++ p.error.projectMessage

/-- The warning about some of `total` projects. -/
def warning (ps : List ProblemProject) (total : Nat) : Text :=
  let title : Text := "Dependency graphs could not be resolved for some projects:"
  let count : Text := Text.ofNat ps.length ++ "/" ++ Text.ofNat total ++ " projects failed"
  Text.join "\n" (title :: ps.map line ++ [count])

end ProblemProject
end ManifestGraph
