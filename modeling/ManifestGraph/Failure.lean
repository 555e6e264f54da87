/-
  A failure: a fault and the faults that caused it, one after the other. The chain may lead back into
  itself; it is then listed once around.
-/
import ManifestGraph.Failure.Fault
namespace ManifestGraph

/-- A fault with the chain of its causes, which are faults again. If `back` is a place in the chain, the
last fault leads back to it. -/
structure Failure where
  fault : Fault
  causes : List Fault := []
  back : Option Nat := none

namespace Failure

/-- A fault without a cause. -/
def of (reason : Reason) : Failure := { fault := reason }

/-- A new fault caused by a failure. -/
def caused (reason : Reason) (cause : Failure) : Failure :=
  { fault := reason, causes := cause.fault :: cause.causes, back := cause.back.map (· + 1) }

/-- The fault and everything that caused it. -/
def chain (e : Failure) : List Fault := e.fault :: e.causes

/-- The message of the fault at the head. -/
def message (e : Failure) : Text := e.fault.message

/-- The failure that starts at a place of the chain. A way back before that place is listed after the
end. -/
def since (e : Failure) (place : Nat) : Option Failure :=
  let around : List Fault := match e.back with
    | some b => (e.chain.take place).drop b
    | none => []
  match e.chain.drop place ++ around with
  | [] => none
  | fault :: causes => some { fault, causes, back := e.back.map fun b => b - place }

/-- The first exit code that a fault of the chain reports. -/
def exitMark? (e : Failure) : Option Data := e.chain.findSome? Fault.exitMark?

/-- The number of an exit code; a truth value counts as one or zero. -/
def codeOf : Data → Option Int
  | .int n => some n
  | .bool b => some (if b then 1 else 0)
  | _ => none

/-- The first exit code in the chain, as a number. -/
def exitCode? (e : Failure) : Option Int := e.exitMark?.bind codeOf

/-- The chain reports that there is no project. -/
def meansNoProjects (e : Failure) : Bool := e.exitCode? = some noProjectsCode

/-- The first structured error of the chain. -/
def catalog? (e : Failure) : Option CatalogError := e.chain.findSome? fun f => f.reason.catalog?

/-- The failure that starts at the first structured error of the chain. -/
def sinceCatalog? (e : Failure) : Option Failure :=
  (e.chain.findIdx? fun f => f.reason.catalog?.isSome).bind e.since

/-- The failure of a run that stops at its first failed project. -/
def failFast (lockFile : Text) (e : Failure) : Failure :=
  let why := match e.catalog? with
    | some error => error.detail
    | none => e.message
  caused (.exit failFastCode ("Failed to scan " ++ lockFile ++ ": " ++ why)) e

/-- The words about a failed project: the detail of its structured error, else its message. -/
def projectMessage (e : Failure) : Text :=
  match e.catalog? with
  | some error => if error.detail.isEmpty then e.message else error.detail
  | none => e.message

/-- The words that a user is shown when a run fails. -/
def userMessage (e : Failure) : Text :=
  match e.fault.reason with
  | .conversion message => message
  | .noOrganization => Reason.noOrganizationMessage
  | _ => e.projectMessage

/-- A failure met while an SBOM is converted. -/
def whileConverting (e : Failure) : Failure :=
  caused (.conversion ("There was an error while analyzing the SBOM document: " ++ e.message)) e

/-- The failure of a run without an organization. -/
def withoutOrganization : Failure :=
  caused .noOrganization (of (.foreign .value "failed to determine org id"))

end Failure
end ManifestGraph
