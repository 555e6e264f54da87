/-
  What reaches a run from outside. A program cannot be started, or takes no such arguments, a file cannot be
  read, the service cannot be reached: these faults report no exit code (`IsForeign.unmarked`). A command
  fails with such a fault, or because its program ended with a status other than zero (`output_eq_error`);
  this status is then the exit code of the failure.
-/
import ManifestGraph.Proofs.Machine.Outcomes

namespace ManifestGraph.Run

open Failure (ofCommand Attributed)

variable {α : Type} {args : List Text} {stdin : Option Bytes} {directory : Option Text}
  {m m' : Machine} {status : Int} {stdout stderr : Bytes} {e : Failure} {outcome : ProgramOutcome}

/-- A fault from outside, without a cause. -/
def IsForeign (e : Failure) : Prop := ∃ kind message, e = .of (.foreign kind message)

theorem IsForeign.unmarked (h : IsForeign e) : e.Unmarked := by
  obtain ⟨kind, message, rfl⟩ := h
  exact Failure.unmarked_of rfl

theorem isForeign_of_begun {next : Option ProgramOutcome} (h : begun args next = .error e) :
    IsForeign e := by
  match next, h with
  | none, h => cases h; exact ⟨_, _, rfl⟩
  | some (.notStarted message), h => cases h; exact ⟨_, _, rfl⟩

theorem ended_of_begun {next : Option ProgramOutcome} (h : begun args next = .ok outcome) :
    ∃ status stdout stderr, outcome = .ended status stdout stderr := by
  match next, h with
  | some (.ended status stdout stderr), h => cases h; exact ⟨status, stdout, stderr, rfl⟩

theorem eq_of_unlessRefused {result : Except Failure α} (h : unlessRefused m args result = .error e) :
    e = refusal ∨ result = .error e := by
  unfold unlessRefused at h
  split at h
  next => cases h; exact Or.inl rfl
  next => exact Or.inr h

theorem accepted_of_unlessRefused {result : Except Failure α} {a : α}
    (h : unlessRefused m args result = .ok a) : m.refuses args = false ∧ result = .ok a := by
  unfold unlessRefused at h
  split at h
  next => cases h
  next haccepted => exact ⟨Bool.eq_false_iff.mpr haccepted, h⟩

/-- A program cannot be started because of its arguments, because it is not there, or because of a fault of
the system. -/
theorem raises_start : (start args stdin directory).Raises IsForeign := by
  intro m e m' h
  obtain ⟨m₁, hstart, _⟩ := start_eq args stdin directory m
  rcases eq_of_unlessRefused (Prod.mk.inj (hstart.symm.trans h)).1 with rfl | hbegun
  · exact ⟨_, _, rfl⟩
  · exact isForeign_of_begun hbegun

/-- A program that was started has ended. -/
theorem ended_of_start (h : start args stdin directory m = (.ok outcome, m')) :
    ∃ status stdout stderr, outcome = .ended status stdout stderr := by
  obtain ⟨m₁, hstart, _⟩ := start_eq args stdin directory m
  exact ended_of_begun (accepted_of_unlessRefused (Prod.mk.inj (hstart.symm.trans h)).1).2

theorem output_of_start (h : start args stdin directory m = (.ok (.ended status stdout stderr), m')) :
    output args stdin directory m =
      if status = 0 then (.ok stdout, m') else (.error (ofCommand args status stdout stderr), m') := by
  rw [output, bind_eq, h]
  dsimp only
  split <;> rfl

/-- A command fails because its program cannot be started or ends with a status other than zero. -/
theorem output_eq_error (h : output args stdin directory m = (.error e, m')) :
    (start args stdin directory m = (.error e, m') ∧ IsForeign e) ∨
      ∃ status stdout stderr, start args stdin directory m = (.ok (.ended status stdout stderr), m') ∧
        status ≠ 0 ∧ e = ofCommand args status stdout stderr := by
  rcases bind_eq_error.mp h with hstart | ⟨outcome, m₁, hstart, _⟩
  · exact Or.inl ⟨hstart, raises_start m e m' hstart⟩
  obtain ⟨status, stdout, stderr, rfl⟩ := ended_of_start hstart
  rw [output_of_start hstart] at h
  split at h
  next => cases h
  next hne => cases h; exact Or.inr ⟨status, stdout, stderr, hstart, hne, rfl⟩

section Located

variable {program : Text} {located : Option Text → Run Text} {reason : Reason}

/-- To look for a program fails only if it is not there. -/
theorem raises_located {F : Failure → Prop} (hsome : ∀ path, located (some path) = pure path)
    (hnone : located none = fail reason) (h : F (.of reason)) : (find? program >>= located).Raises F := by
  refine Raises.bind (fun _ _ _ h => nomatch h) fun found => ?_
  cases found with
  | some path => rw [hsome]; exact raises_pure path
  | none => rw [hnone]; exact raises_throw h

/-- A program that is there is found in one place. -/
theorem ensures_located (hsome : ∀ path, located (some path) = pure path)
    (hnone : located none = fail reason) :
    (find? program >>= located).Ensures fun path => path = "/bin/" ++ program := by
  have hfind : (find? program).Ensures fun found =>
      ∀ path, found = some path → path = "/bin/" ++ program := by
    intro m found m' h path hpath
    unfold find? at h
    rw [get_bind] at h
    split at h
    next => cases h; cases hpath; rfl
    next => cases h; cases hpath
  refine hfind.bind fun found hfound => ?_
  cases found with
  | some path => rw [hsome]; exact ensures_pure (hfound path rfl)
  | none => rw [hnone]; exact ensures_throw _

end Located

/-! ## Files and the service -/

theorem isForeign_reason (p : Path) (fault : FileFault) : IsForeign (.of (fault.reason p)) := by
  cases fault <;> exact ⟨_, _, rfl⟩

/-- A file is read from the files of the machine, which stays as it is. -/
theorem readFile_eq (p : Path) (m : Machine) :
    readFile p m = ((m.files.read p).mapError fun fault => .of (fault.reason p), m) := by
  rw [readFile, get_bind]
  cases m.files.read p <;> rfl

theorem isPresent_eq (p : Path) (m : Machine) : isPresent p m = ((m.files.look p).map Option.isSome, m) := by
  rw [isPresent, get_bind]
  cases m.files.look p <;> rfl

/-- What is at a path cannot be told because of a fault of the system. -/
theorem isForeign_of_look {fs : FileSystem} {p : Path} (h : fs.look p = .error e) : IsForeign e := by
  unfold FileSystem.look at h
  split at h
  next => cases h
  next fault _ => cases h; exact isForeign_reason p fault

theorem raises_isPresent (p : Path) : (isPresent p).Raises IsForeign := by
  intro m e m' h
  rw [isPresent_eq] at h
  cases hlook : m.files.look p with
  | ok found => rw [hlook] at h; cases h
  | error e' => rw [hlook] at h; cases h; exact isForeign_of_look hlook

theorem raises_readFile (p : Path) : (readFile p).Raises IsForeign := by
  intro m e m' h
  rw [readFile_eq] at h
  cases hread : m.files.read p with
  | ok content => rw [hread] at h; cases h
  | error fault => rw [hread] at h; cases h; exact isForeign_reason p fault

theorem raises_post (url : Text) (parameters : List (Text × Text)) (body : Bytes)
    (headers : List (Text × Text)) : (post url parameters body headers).Raises IsForeign := by
  intro m e m' h
  unfold post at h
  rw [note_bind, get_bind] at h
  generalize nextOutcome? _ = next at h
  match next, h with
  | none, h => cases h; exact ⟨_, _, rfl⟩
  | some (reply, rest), h =>
    cases reply with
    | unreachable message => cases h; exact ⟨_, _, rfl⟩
    | response status reason headers body => cases h

/-! ## Exit codes -/

/-- The failure reports no exit code unless it is of some kind, and then it is the status of a program. -/
structure ReportsFor (kind : Failure → Bool) (programs : List Text) (e : Failure) : Prop where
  attributed : e.Attributed programs
  unmarked : kind e = false → e.Unmarked

/-- The failure is that of a program. -/
def ofProgram (e : Failure) : Bool := e.fault.reason.isProgramFault

variable {kind : Failure → Bool} {programs : List Text}

theorem reportsFor_of_unmarked (h : e.Unmarked) : ReportsFor kind programs e :=
  ⟨h.attributed, fun _ => h⟩

theorem reportsFor_ofCommand (program : Text) (args : List Text) (status : Int) (stdout stderr : Bytes) :
    ReportsFor ofProgram [program] (ofCommand (program :: args) status stdout stderr) :=
  ⟨Failure.attributed_ofCommand program args status stdout stderr, fun h => nomatch h⟩

theorem ReportsFor.caused {reason : Reason} {kind' : Failure → Bool} (h : ReportsFor kind' programs e)
    (hkind : kind (.caused reason e) = true) (hreason : Fault.exitMark? reason = none) :
    ReportsFor kind programs (.caused reason e) :=
  ⟨h.attributed.caused hreason, fun hfalse => by rw [hkind] at hfalse; cases hfalse⟩

theorem raises_output (program : Text) (args : List Text) :
    (output (program :: args) stdin directory).Raises (ReportsFor ofProgram [program]) := by
  intro m e m' h
  rcases output_eq_error h with ⟨_, he⟩ | ⟨status, stdout, stderr, _, _, rfl⟩
  · exact reportsFor_of_unmarked he.unmarked
  · exact reportsFor_ofCommand program args status stdout stderr

theorem raises_fail {F : Failure → Prop} {reason : Reason} (h : F (.of reason)) :
    (fail reason : Run α).Raises F :=
  raises_throw h

theorem raises_decoded (bs : Bytes) : (decoded bs).Raises Failure.Unmarked := by
  unfold decoded
  split
  next => exact raises_pure _
  next => exact raises_fail (Failure.unmarked_of rfl)

theorem raises_outputText (program : Text) (args : List Text) :
    (outputText (program :: args)).Raises (ReportsFor ofProgram [program]) := by
  intro m e m' h
  rcases bind_eq_error.mp h with h | ⟨outcome, m₁, hstart, h⟩
  · exact reportsFor_of_unmarked (raises_start m e m' h).unmarked
  obtain ⟨status, stdout, stderr, rfl⟩ := ended_of_start hstart
  refine ((raises_decoded stdout).mono fun _ => reportsFor_of_unmarked).bind (fun out => ?_) m₁ e m' h
  refine ((raises_decoded stderr).mono fun _ => reportsFor_of_unmarked).bind fun _ => ?_
  split
  next => exact raises_pure _
  next => exact raises_throw (reportsFor_ofCommand program args status stdout stderr)

end ManifestGraph.Run
