/-
  Asking pip what it would install, without installing it, and the interpreter for its version.
-/
import ManifestGraph.Json.Model
import ManifestGraph.Machine
import ManifestGraph.Pip.Diagnosis
import ManifestGraph.Pip.Report
namespace ManifestGraph.Pip

/-- How pip is called. -/
structure Client where
  binary : Text := "pip"
  indexUrl : Text := []
  noBuildIsolation : Bool := false
  deriving DecidableEq, Inhabited

/-- The names under which an interpreter is looked for, in order of preference. -/
def interpreters : List Text := ["python3", "python"]

/-- The failure of a run without an interpreter. -/
def interpreterMissing : Failure :=
  .of (.inFamily .installation ("Python is not installed or not found in PATH. "
    ++ "Please install Python 3 and ensure it is available in your system PATH."))

/-- A text without another one at its start. -/
def dropPrefix (start t : Text) : Text := if start.isPrefixOf t then t.drop start.length else t

/-- The version that an interpreter prints. -/
def versionOf (output : Text) : Text := dropPrefix "Python " output.trim

/-- The version of the first of some interpreters that can be run. -/
def firstVersion : List Text → Run Text
  | [] => throw interpreterMissing
  | command :: commands => do
    match ← Run.attempt (Run.outputText [command, "--version"]) with
    | .ok output => return versionOf output
    | .error e => if e.fault.reason.isProgramFault then firstVersion commands else throw e

/-- The version of the interpreter. -/
def interpreterVersion : Run Text := firstVersion interpreters

namespace Client

/-- The path of the pip binary. -/
def locate (c : Client) : Run Text := do
  match ← Run.find? c.binary with
  | some path => return path
  | none => Run.fail (.inFamily .installation (c.binary ++ " binary not found in PATH"))

/-- The arguments of a run. -/
def arguments (c : Client) (what constraints : List Text) : List Text :=
  (["install", "--dry-run", "--ignore-installed", "--report", "-", "--quiet"] : List Text) ++ what
  ++ (if constraints.isEmpty then ([] : List Text) else ["-c", "/dev/stdin"])
  ++ (if c.noBuildIsolation then (["--no-build-isolation"] : List Text) else [])
  ++ (if c.indexUrl.isEmpty then ([] : List Text) else ["--index-url", c.indexUrl])

/-- Constraints as pip reads them, one a line; none if there are no constraints. -/
def constraintLines : List Text → Option Bytes
  | [] => none
  | constraints => some (Utf8.encode (Text.join "\n" constraints))

/-- What a failed run means; that its arguments were refused is told as it is. -/
def diagnosed (e : Failure) : Failure :=
  match e.fault.reason with
  | .commandFailed _ _ _ stderr =>
    .caused (.catalog (classify (Utf8.decodeLossy (stderr.getD [])))) e
  | reason => if reason.isProgramFault then .caused (.catalog (installFailure e.message)) e else e

/-- The report that pip printed. -/
def readReport (output : Bytes) : Except Failure Report :=
  match Report.decode output with
  | .ok report => .ok report
  | .error misfits =>
    let why := Misfit.summary misfits
    .error (.caused (.inFamily .unprocessable ("failed to parse pip report: " ++ why))
      (.of (.misfit misfits)))

/-- What pip would install for some arguments. -/
def report (c : Client) (what : List Text) (constraints : List Text := []) : Run Report := do
  let binary ← c.locate
  match ← Run.attempt (Run.output (binary :: c.arguments what constraints)
      (constraintLines constraints)) with
  | .ok output => Run.ofExcept (readReport output)
  | .error e => throw (diagnosed e)

/-- What pip would install for a requirements file. -/
def reportOnFile (c : Client) (file : Text) : Run Report :=
  if file.isEmpty then Run.fail (.foreign .value "requirements file path cannot be empty")
  else c.report ["-r", file]

/-- What pip would install for some requirements. -/
def reportOnPackages (c : Client) (packages : List Text) (constraints : List Text := []) :
    Run Report :=
  if packages.isEmpty then Run.fail (.foreign .value "packages list cannot be empty")
  else c.report packages constraints

end Client
end ManifestGraph.Pip
