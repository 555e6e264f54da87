/-
  The exit code of a failure, which the first fault in the chain of its causes reports. A failure that
  `StemsFrom` another one hands on its exit code (`StemsFrom.exitCode?_eq`). A failure without one is
  `Unmarked`, and one whose exit code is the status of a program is `Attributed` to it.
-/
import ManifestGraph.Failure
import ManifestGraph.Proofs.Graph.Validity
import ManifestGraph.Record.Lines

namespace ManifestGraph.Failure

variable {e : Failure} {reason : Reason} {programs : List Text} {code : Int}

/-! ## Failures without an exit code -/

/-- No fault of the failure reports an exit code. -/
def Unmarked (e : Failure) : Prop := e.exitMark? = none

theorem exitMark?_caused (h : Fault.exitMark? reason = none) :
    (caused reason e).exitMark? = e.exitMark? := by
  rw [exitMark?, chain, caused, List.findSome?_cons, h]
  rfl

theorem exitCode?_caused (h : Fault.exitMark? reason = none) :
    (caused reason e).exitCode? = e.exitCode? := by
  rw [exitCode?, exitMark?_caused h]
  rfl

theorem unmarked_of (h : Fault.exitMark? reason = none) : (of reason).Unmarked := by
  rw [Unmarked, exitMark?, chain, of, List.findSome?_cons, h]
  rfl

theorem Unmarked.caused (he : e.Unmarked) (h : Fault.exitMark? reason = none) :
    (caused reason e).Unmarked :=
  (exitMark?_caused h).trans he

theorem Unmarked.exitCode? (h : e.Unmarked) : e.exitCode? = none := by
  rw [Failure.exitCode?, h]
  rfl

theorem Unmarked.meansNoProjects (h : e.Unmarked) : e.meansNoProjects = false := by
  rw [Failure.meansNoProjects, h.exitCode?]
  rfl

theorem unmarked_reason (fault : Json.Fault) : (of fault.reason).Unmarked :=
  unmarked_of (by cases fault <;> rfl)

theorem unmarked_check {g : DependencyGraph} (h : g.check = .error e) : e.Unmarked := by
  obtain ⟨messages, rfl⟩ := DependencyGraph.exists_of_check_eq_error h
  exact unmarked_of rfl

/-! ## Failures that stem from others -/

/-- A failure with the faults that it caused, one after the other, none of which reports an exit code. -/
inductive StemsFrom (raw : Failure) : Failure → Prop where
  | refl : StemsFrom raw raw
  | caused {reason : Reason} {e : Failure} (h : StemsFrom raw e) (hreason : Fault.exitMark? reason = none) :
      StemsFrom raw (Failure.caused reason e)

variable {raw : Failure}

theorem StemsFrom.exitCode?_eq (h : StemsFrom raw e) : e.exitCode? = raw.exitCode? := by
  induction h with
  | refl => rfl
  | caused _ hreason ih => rw [exitCode?_caused hreason, ih]

/-- The chain of a failure ends with that of what it stems from. -/
theorem StemsFrom.suffix_chain (h : StemsFrom raw e) : raw.chain <:+ e.chain := by
  induction h with
  | refl => exact List.suffix_rfl
  | caused _ _ ih => exact ih.trans (List.suffix_cons _ _)

theorem StemsFrom.mem_chain (h : StemsFrom raw e) : raw.fault ∈ e.chain :=
  h.suffix_chain.mem List.mem_cons_self

/-! ## Exit codes that are the status of a program -/

/-- The failure of a program that ended with some status. -/
def ofCommand (args : List Text) (status : Int) (stdout stderr : Bytes) : Failure :=
  of (.commandFailed (.arguments args) status (some stdout) (some stderr))

theorem exitCode?_ofCommand (args : List Text) (status : Int) (stdout stderr : Bytes) :
    (ofCommand args status stdout stderr).exitCode? = some status := rfl

/-- An exit code of the failure is the status that one of the programs ended with. -/
def Attributed (programs : List Text) (e : Failure) : Prop :=
  ∀ code, e.exitCode? = some code → ∃ fault ∈ e.chain, ∃ program ∈ programs, ∃ args stdout stderr,
    fault.reason = .commandFailed (.arguments (program :: args)) code stdout stderr

theorem Unmarked.attributed (h : e.Unmarked) : e.Attributed programs := by
  intro code hcode
  rw [h.exitCode?] at hcode
  cases hcode

theorem attributed_ofCommand (program : Text) (args : List Text) (status : Int)
    (stdout stderr : Bytes) : (ofCommand (program :: args) status stdout stderr).Attributed [program] := by
  intro code hcode
  rw [exitCode?_ofCommand] at hcode
  cases hcode
  exact ⟨_, List.mem_cons_self, program, List.mem_singleton_self program, args, _, _, rfl⟩

theorem Attributed.caused (h : e.Attributed programs) (hreason : Fault.exitMark? reason = none) :
    (caused reason e).Attributed programs := by
  intro code hcode
  rw [exitCode?_caused hreason] at hcode
  obtain ⟨fault, hfault, hrest⟩ := h code hcode
  exact ⟨fault, List.mem_cons_of_mem _ hfault, hrest⟩

theorem Attributed.mono {others : List Text} (h : e.Attributed programs) (hsub : programs ⊆ others) :
    e.Attributed others := by
  intro code hcode
  obtain ⟨fault, hfault, program, hprogram, hrest⟩ := h code hcode
  exact ⟨fault, hfault, program, hsub hprogram, hrest⟩

/-- The run that stops at a failed project has an exit code of its own. -/
theorem exitCode?_failFast (lockFile : Text) (e : Failure) :
    (failFast lockFile e).exitCode? = some failFastCode := rfl

end ManifestGraph.Failure
