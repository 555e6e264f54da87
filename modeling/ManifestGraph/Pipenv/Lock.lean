/-
  Lock files of Pipenv, and the constraints for pip that pin packages to the locked versions.
-/
import ManifestGraph.Json.Model
import ManifestGraph.Machine
import ManifestGraph.Pip.Requirement
namespace ManifestGraph.Pipenv

/-- A package as it is locked. -/
structure LockedPackage where
  version : Text := []
  hashes : List Text := []
  markers : Text := []
  index : Text := []
  extras : List Text := []
  git : Text := []
  ref : Text := []
  path : Text := []
  editable : Bool := false
  deriving DecidableEq, Inhabited

namespace LockedPackage

/-- A package from a record. -/
def fit : Data → Fit LockedPackage :=
  Data.fitModel fun ms =>
    LockedPackage.mk <$> ms.withDefault ["version"] [] Data.fitText
      <*> ms.withDefault ["hashes"] [] (Data.fitList Data.fitText)
      <*> ms.withDefault ["markers"] [] Data.fitText
      <*> ms.withDefault ["index"] [] Data.fitText
      <*> ms.withDefault ["extras"] [] (Data.fitList Data.fitText)
      <*> ms.withDefault ["git"] [] Data.fitText
      <*> ms.withDefault ["ref"] [] Data.fitText
      <*> ms.withDefault ["path"] [] Data.fitText
      <*> ms.withDefault ["editable"] false Data.fitBool

/-- The constraint that pins a package; none for one from a repository or a path, or without version. -/
def constraint? (name : Text) (p : LockedPackage) : Option Text :=
  if !p.git.isEmpty || !p.path.isEmpty || p.version.isEmpty then none
  else
    let pin : Text := "=="
    let version := if pin.isPrefixOf p.version then p.version else pin ++ p.version
    some (Pip.normalName name ++ version)

end LockedPackage

/-- A lock file. -/
structure Lock where
  info : Members := []
  packages : List (Text × LockedPackage) := []
  devPackages : List (Text × LockedPackage) := []
  deriving Inhabited

/-- The file name of a lock file. -/
def lockName : Text := "Pipfile.lock"

namespace Lock

/-- A lock file from a record. -/
def fit : Data → Fit Lock :=
  Data.fitModel fun ms =>
    Lock.mk <$> ms.withDefault ["_meta", "meta"] [] (Data.fitMapping Data.fitAny)
      <*> ms.withDefault ["default"] [] (Data.fitMapping LockedPackage.fit)
      <*> ms.withDefault ["develop"] [] (Data.fitMapping LockedPackage.fit)

/-- The failure to read a lock file. -/
def unreadable (cause : Failure) : Failure :=
  .caused (.inFamily .unprocessable ("failed to parse Pipfile.lock: " ++ cause.message)) cause

/-- Reads a document. -/
def decode (bs : Bytes) : Except Failure Lock :=
  match Json.readModel fit bs with
  | .ok lock => .ok lock
  | .error misfits => .error (unreadable (.of (.misfit misfits)))

/-- Reads the file at a path. -/
def read (p : Path) : Run Lock := do
  match ← Run.attempt (Run.readFile p) with
  | .ok content => Run.ofExcept (decode content)
  | .error e => throw (unreadable e)

/-- The constraints for pip, in the order of the file; those for development only if asked for. -/
def constraints (lock : Lock) (dev : Bool := false) : List Text :=
  let entries := if dev then lock.packages ++ lock.devPackages else lock.packages
  entries.filterMap fun (name, p) => p.constraint? name

end Lock
end ManifestGraph.Pipenv
