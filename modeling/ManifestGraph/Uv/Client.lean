/-
  Exporting SBOM documents with uv. Nothing is exported before the version of the binary was found to
  be recent enough.
-/
import ManifestGraph.Machine
import ManifestGraph.Sbom
import ManifestGraph.Uv.Version
namespace ManifestGraph.Uv

/-- How uv is called. -/
structure Client where
  binary : Text := "uv"
  deriving DecidableEq, Inhabited

/-- A structured error without a family of its own, with its cause. -/
def generalFrom (detail : Text) (cause : Failure) : Failure :=
  .caused (.inFamily .general detail) cause

namespace Client

/-- The path of the uv binary. -/
def locate (c : Client) : Run Text := do
  match ← Run.find? c.binary with
  | some path => return path
  | none => Run.fail (.inFamily .general (c.binary ++ " binary not found in PATH"))

/-- The version of a binary, which must be recent enough. -/
def version (binary : Text) : Run Version := do
  match ← Run.attempt (Run.outputText [binary, "--version"]) with
  | .ok output => Run.ofExcept (checkVersion binary output)
  | .error e =>
    if e.fault.reason.isProgramFault then
      throw (generalFrom ("failed to get " ++ binary ++ " version: " ++ e.message) e)
    else throw e

/-- The failure of a command, with all that it wrote; that its arguments were refused is told as it is. -/
def failedCommand (e : Failure) : Failure :=
  let words := "failed to execute uv export command: " ++ e.message
  match e.fault.reason with
  | .commandFailed _ _ stdout stderr =>
    let output := Utf8.decodeLossy (stdout.getD [] ++ stderr.getD [])
    generalFrom (words ++ "\noutput: " ++ output) e
  | reason => if reason.isProgramFault then generalFrom words e else e

/-- Runs uv in a directory and gives what it wrote. -/
def execute (c : Client) (directory : Text) (args : List Text) : Run Bytes := do
  let binary ← c.locate
  let _ ← version binary
  match ← Run.attempt (Run.output (binary :: args) none (some directory)) with
  | .ok output => return output
  | .error e => throw (failedCommand e)

/-- The arguments of an export. -/
def exportArguments (o : SourceOptions) : List Text :=
  (["export", "--format", "cyclonedx1.5", "--frozen", "--preview"] : List Text)
  ++ (if o.allProjects then (["--all-packages"] : List Text) else [])
  ++ (if o.dev then ([] : List Text) else ["--no-dev"])

/-- Exports the project in a directory. -/
def exportSbom (c : Client) (directory : Text) (o : SourceOptions) : Run Bytes := do
  let sbom ← c.execute directory (exportArguments o)
  let _ ← Run.ofExcept (Sbom.decode sbom)
  return sbom

end Client
end ManifestGraph.Uv
