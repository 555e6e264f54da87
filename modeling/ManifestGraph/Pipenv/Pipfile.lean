/-
  Pipfiles, as far as they are needed to resolve them. A Pipfile that cannot be read, is no TOML or
  does not have the shape of a Pipfile is unprocessable.
-/
import ManifestGraph.Machine
import ManifestGraph.Pipenv.Requirement
import ManifestGraph.Toml.Document
namespace ManifestGraph.Pipenv

/-- A package index. -/
structure Source where
  name : Text := []
  url : Text := []
  verifySsl : Bool := true
  deriving DecidableEq, Inhabited

/-- A Pipfile. -/
structure Pipfile where
  sources : List Source := []
  packages : Members := []
  devPackages : Members := []
  pythonVersion : Text := []
  deriving Inhabited

/-- The file name of a Pipfile. -/
def pipfileName : Text := "Pipfile"

namespace Pipfile

/-- An index from a table. -/
def fitSource : Data → Fit Source :=
  Data.fitModel fun ms =>
    Source.mk <$> ms.withDefault ["name"] [] Data.fitText
      <*> ms.withDefault ["url"] [] Data.fitText
      <*> ms.withDefault ["verify_ssl"] true Data.fitBool

/-- A Pipfile from the root table of a document. -/
def fit : Data → Fit Pipfile :=
  Data.fitModel fun ms =>
    Pipfile.mk <$> ms.withDefault ["source"] [] (Data.fitList fitSource)
      <*> ms.withDefault ["packages"] [] (Data.fitMapping Data.fitAny)
      <*> ms.withDefault ["dev-packages", "dev_packages"] [] (Data.fitMapping Data.fitAny)
      <*> ms.withDefault ["requires"] [] (Data.fitModel fun ms =>
            ms.withDefault ["python_version"] [] Data.fitText)

/-- The failure to read a Pipfile. -/
def unreadable (cause : Failure) : Failure :=
  .caused (.inFamily .unprocessable ("failed to parse Pipfile: " ++ cause.message)) cause

/-- Reads a document. One that is not UTF-8, holds a numeral that is too long, or is nested too deep is
not reported as unprocessable. -/
def decode (bs : Bytes) : Except Failure Pipfile :=
  match Toml.read bs with
  | .error .encoding => .error Toml.Fault.encoding.failure
  | .error .longNumeral => .error Toml.Fault.longNumeral.failure
  | .error .tooDeep => .error Toml.Fault.tooDeep.failure
  | .error fault => .error (unreadable fault.failure)
  | .ok ms =>
    match fit (.record ms) with
    | .ok file => .ok file
    | .bad misfits => .error (unreadable (.of (.misfit misfits)))

/-- Reads the file at a path. -/
def read (p : Path) : Run Pipfile := do
  match ← Run.attempt (Run.readFile p) with
  | .ok content => Run.ofExcept (decode content)
  | .error e => throw (unreadable e)

/-- The requirements for pip, in the order of the file; those for development only if asked for. -/
def requirements (file : Pipfile) (dev : Bool := false) : Except Failure (List Text) := do
  let entries := if dev then file.packages ++ file.devPackages else file.packages
  let found ← entries.mapM fun (name, entry) => requirement name entry
  .ok (found.filter fun r => !r.isEmpty)

end Pipfile
end ManifestGraph.Pipenv
