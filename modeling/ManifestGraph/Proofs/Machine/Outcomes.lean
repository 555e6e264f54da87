/-
  The outcomes of a program, one for each time that it is started; after the last one it repeats for ever
  (`outcomeAt?`). What a command gives is read off the next outcome of its program, unless its arguments are
  refused (`start_eq`, `output_eq`, `outputText_eq`). Whatever the outcome was, the journal notes the start and
  the outcomes after it move up by one (`Machine.Starts`); a refused start uses none.
-/
import ManifestGraph.Proofs.Data.Settled
import ManifestGraph.Proofs.Failure.ExitCode
import ManifestGraph.Proofs.Machine

namespace ManifestGraph

variable {α : Type} {m m' m₁ : Machine} {program name : Text} {n k : Nat}

/-- Of the outcomes that are still to come the one after `n` others. -/
def outcomeAt? (outcomes : List α) (n : Nat) : Option α := outcomes[min n (outcomes.length - 1)]?

theorem outcomeAt?_nil (n : Nat) : outcomeAt? ([] : List α) n = none := rfl

/-- The outcome that is next, and those that come after it. -/
theorem nextOutcome?_eq_some {outcomes rest : List α} {x : α} (h : nextOutcome? outcomes = some (x, rest)) :
    outcomeAt? outcomes 0 = some x ∧ ∀ n, outcomeAt? rest n = outcomeAt? outcomes (n + 1) := by
  match outcomes, h with
  | [x], h => cases h; exact ⟨rfl, fun n => by simp [outcomeAt?]⟩
  | x :: y :: outcomes, h =>
    cases h
    refine ⟨rfl, fun n => ?_⟩
    have hmin : min (n + 1) (outcomes.length + 1) = min n outcomes.length + 1 := by omega
    simp [outcomeAt?, hmin]

theorem nextOutcome?_eq_none {outcomes : List α} (h : nextOutcome? outcomes = none) : outcomes = [] := by
  match outcomes, h with
  | [], _ => rfl
  | [_], h => cases h
  | _ :: _ :: _, h => cases h

namespace Machine

/-- The outcomes of a program that are still to come. -/
def outcomes (m : Machine) (program : Text) : List ProgramOutcome := (List.lookup program m.programs).getD []

/-- The program is there, under a name that the system takes. -/
def has (m : Machine) (name : Text) : Bool := (List.lookup name m.programs).isSome && !m.refuses [name]

/-- So many outcomes of a program were used, and none of another one. No program is there that was not there
before, nor is one gone, the same arguments are refused, and there is room for as many calls. -/
structure MovesUp (program : Text) (n : Nat) (m m' : Machine) : Prop where
  outcomes : ∀ k, outcomeAt? (m'.outcomes program) k = outcomeAt? (m.outcomes program) (k + n)
  others : ∀ other, other ≠ program → m'.outcomes other = m.outcomes other
  has : ∀ name, m'.has name = m.has name
  refuses : ∀ args, m'.refuses args = m.refuses args
  callDepth : m'.callDepth = m.callDepth

theorem MovesUp.refl (m : Machine) : MovesUp program 0 m m :=
  ⟨fun _ => rfl, fun _ _ => rfl, fun _ => rfl, fun _ => rfl, rfl⟩

theorem MovesUp.noting {e : Event} (h : MovesUp program n m m') : MovesUp program n m (m'.noting e) :=
  ⟨h.outcomes, h.others, h.has, h.refuses, h.callDepth⟩

theorem refuses_cons {arg : Text} {args : List Text} :
    m.refuses (arg :: args) = (m.refuses [arg] || m.refuses args) := by
  rw [refuses, refuses, refuses, List.any_cons, List.any_cons, List.any_nil, Bool.or_false,
    Bool.and_or_distrib_left]

theorem refuses_of_plain {args : List Text} (h : ∀ arg ∈ args, CodePoint.scalar '\x00' ∉ arg) :
    m.refuses args = false := by
  rw [refuses, Bool.and_eq_false_iff]
  exact Or.inr (List.any_eq_false.mpr fun arg harg => by simpa using h arg harg)

/-- A program that is there can be started by the path under which it is found. -/
theorem refuses_path (h : m.has name = true) : m.refuses ["/bin/" ++ name] = false := by
  have hname : m.refuses [name] = false := by
    rw [Machine.has, Bool.and_eq_true, Bool.not_eq_true'] at h
    exact h.2
  rw [← hname, refuses, refuses, List.any_cons, List.any_cons, List.contains_append]
  rfl

theorem movesUp_put {e : Event} {outcome : ProgramOutcome} {rest : List ProgramOutcome}
    (h : nextOutcome? (m.outcomes program) = some (outcome, rest)) :
    MovesUp program 1 m { m.noting e with programs := putMember program rest m.programs } where
  outcomes k := by
    rw [Machine.outcomes, lookup_putMember, if_pos rfl]
    exact (nextOutcome?_eq_some h).2 k
  others other hother := by
    rw [Machine.outcomes, lookup_putMember, if_neg hother]
    rfl
  has name := by
    refine congrArg (· && !m.refuses [name]) ?_
    rw [lookup_putMember]
    split
    next heq =>
      subst heq
      unfold Machine.outcomes at h
      cases hlookup : List.lookup name m.programs with
      | none => rw [hlookup] at h; cases h
      | some _ => rfl
    next => rfl
  refuses _ := rfl
  callDepth := rfl

/-- A program without outcomes has none after any number of starts. -/
theorem movesUp_of_none {e : Event} (h : nextOutcome? (m.outcomes program) = none) :
    MovesUp program 1 m (m.noting e) where
  outcomes k := by
    have hnil : (m.noting e).outcomes program = [] := nextOutcome?_eq_none h
    have hnil' : m.outcomes program = [] := hnil
    rw [hnil, hnil', outcomeAt?_nil, outcomeAt?_nil]
  others _ _ := rfl
  has _ := rfl
  refuses _ := rfl
  callDepth := rfl

/-- A program was started: the journal notes how, and the outcomes of the program move up unless the arguments
were refused. -/
structure Starts (args : List Text) (stdin : Option Bytes) (directory : Option Text) (m m' : Machine) : Prop
    extends MovesUp (Text.afterLast '/' (args.headD [])) (if m.refuses args then 0 else 1) m m' where
  journal : m'.journal = m.journal ++ [.started args stdin directory]

end Machine

namespace Run

open Failure (ofCommand)

variable {args : List Text} {stdin : Option Bytes} {directory : Option Text}

/-- What starting a program gives if it has an outcome. -/
def begun (args : List Text) : Option ProgramOutcome → Except Failure ProgramOutcome
  | none => .error (.of (.foreign .fileNotFound ("no such program: " ++ args.headD [])))
  | some (.notStarted message) => .error (.of (.foreign .system message))
  | some (.ended status stdout stderr) => .ok (.ended status stdout stderr)

/-- What a command gives if its program has an outcome. -/
def written (args : List Text) : Option ProgramOutcome → Except Failure Bytes
  | none => .error (.of (.foreign .fileNotFound ("no such program: " ++ args.headD [])))
  | some (.notStarted message) => .error (.of (.foreign .system message))
  | some (.ended status stdout stderr) =>
    if status = 0 then .ok stdout else .error (ofCommand args status stdout stderr)

/-- The text that a command gives if its program has an outcome. -/
def spoken (args : List Text) : Option ProgramOutcome → Except Failure Text
  | none => .error (.of (.foreign .fileNotFound ("no such program: " ++ args.headD [])))
  | some (.notStarted message) => .error (.of (.foreign .system message))
  | some (.ended status stdout stderr) =>
    match Utf8.decode stdout, Utf8.decode stderr with
    | .ok out, .ok _ =>
      if status = 0 then .ok (unixLines out) else .error (ofCommand args status stdout stderr)
    | .ok _, .error run => .error (.of (.undecodable run))
    | .error run, _ => .error (.of (.undecodable run))

/-- The failure to start a program with arguments that the system refuses. -/
def refusal : Failure := .of (.foreign .value "embedded null byte")

/-- On a machine a command only gives something if its arguments are not refused. -/
def unlessRefused (m : Machine) (args : List Text) (result : Except Failure α) : Except Failure α :=
  if m.refuses args then .error refusal else result

theorem unlessRefused_of_accepted {result : Except Failure α} (h : m.refuses args = false) :
    unlessRefused m args result = result := by
  rw [unlessRefused, h]
  rfl

theorem spoken_ended {status : Int} {stdout stderr : Bytes} {out err : Text}
    (hout : Utf8.decode stdout = .ok out) (herr : Utf8.decode stderr = .ok err) :
    spoken args (some (.ended status stdout stderr)) =
      if status = 0 then .ok (unixLines out) else .error (ofCommand args status stdout stderr) := by
  dsimp only [spoken]
  rw [hout, herr]

/-- A command gives a text just if its program ends well and both of its streams are text. -/
theorem spoken_eq_ok {outcome : Option ProgramOutcome} {text : Text} :
    spoken args outcome = .ok text ↔ ∃ stdout stderr out err, outcome = some (.ended 0 stdout stderr) ∧
      Utf8.decode stdout = .ok out ∧ Utf8.decode stderr = .ok err ∧ text = unixLines out := by
  constructor
  · intro h
    match outcome, h with
    | some (.ended status stdout stderr), h =>
      dsimp only [spoken] at h
      split at h
      next out err hout herr =>
        split at h
        next hstatus =>
          cases h
          exact ⟨stdout, stderr, out, err, by rw [hstatus], hout, herr, rfl⟩
        next => cases h
      next => cases h
      next => cases h
  · rintro ⟨stdout, stderr, out, err, rfl, hout, herr, rfl⟩
    rw [spoken_ended hout herr, if_pos rfl]

/-- A program is started with its next outcome. -/
theorem start_of_accepted (stdin : Option Bytes) (directory : Option Text) (h : m.refuses args = false) :
    ∃ m', start args stdin directory m =
        (begun args (outcomeAt? (m.outcomes (Text.afterLast '/' (args.headD []))) 0), m') ∧
      m.Starts args stdin directory m' := by
  generalize hkey : Text.afterLast '/' (args.headD []) = key
  have hlookup : (List.lookup key (m.noting (.started args stdin directory)).programs).getD [] =
      m.outcomes key := rfl
  have haccepted : (m.noting (.started args stdin directory)).refuses args = false := h
  have hused : (if m.refuses args then 0 else 1) = 1 := by rw [h]; rfl
  rw [start, note_bind, get_bind, hkey, hlookup, haccepted]
  cases hnext : nextOutcome? (m.outcomes key) with
  | none =>
    subst hkey
    refine ⟨_, ?_, hused ▸ Machine.movesUp_of_none (e := .started args stdin directory) hnext, rfl⟩
    rw [nextOutcome?_eq_none hnext]
    rfl
  | some next =>
    obtain ⟨outcome, rest⟩ := next
    rw [(nextOutcome?_eq_some hnext).1]
    subst hkey
    refine ⟨_, ?_, hused ▸ Machine.movesUp_put (e := .started args stdin directory) hnext, rfl⟩
    cases outcome <;> rfl

/-- With arguments that are refused no outcome is used. -/
theorem start_of_refused (stdin : Option Bytes) (directory : Option Text) (h : m.refuses args = true) :
    ∃ m', start args stdin directory m = (.error refusal, m') ∧ m.Starts args stdin directory m' := by
  have hrefused : (m.noting (.started args stdin directory)).refuses args = true := h
  have hused : (if m.refuses args then 0 else 1) = 0 := by rw [h]; rfl
  refine ⟨m.noting (.started args stdin directory), ?_, ?_, rfl⟩
  · rw [start, note_bind, get_bind, hrefused]
    rfl
  · rw [hused]
    exact (Machine.MovesUp.refl m).noting

theorem start_eq (args : List Text) (stdin : Option Bytes) (directory : Option Text) (m : Machine) :
    ∃ m', start args stdin directory m = (unlessRefused m args
        (begun args (outcomeAt? (m.outcomes (Text.afterLast '/' (args.headD []))) 0)), m') ∧
      m.Starts args stdin directory m' := by
  unfold unlessRefused
  cases h : m.refuses args with
  | false => exact start_of_accepted stdin directory h
  | true => exact start_of_refused stdin directory h

/-- What comes after the start of a program may be told by the next outcome too. -/
theorem start_bind {f : ProgramOutcome → Run α} (given : Option ProgramOutcome → Except Failure α)
    (h : ∀ next m, (ofExcept (begun args next) >>= f) m = (given next, m)) (stdin : Option Bytes)
    (directory : Option Text) (m : Machine) :
    ∃ m', (start args stdin directory >>= f) m = (unlessRefused m args
        (given (outcomeAt? (m.outcomes (Text.afterLast '/' (args.headD []))) 0)), m') ∧
      m.Starts args stdin directory m' := by
  obtain ⟨m', hstart, hstarts⟩ := start_eq args stdin directory m
  refine ⟨m', ?_, hstarts⟩
  rw [bind_eq, hstart]
  unfold unlessRefused
  cases m.refuses args with
  | true => rfl
  | false =>
    have hgiven := h (outcomeAt? (m.outcomes (Text.afterLast '/' (args.headD []))) 0) m'
    rw [bind_eq, ofExcept_eq] at hgiven
    exact hgiven

/-- A command gives what the next outcome of its program says, and uses it. -/
theorem output_eq (args : List Text) (stdin : Option Bytes) (directory : Option Text) (m : Machine) :
    ∃ m', output args stdin directory m = (unlessRefused m args
        (written args (outcomeAt? (m.outcomes (Text.afterLast '/' (args.headD []))) 0)), m') ∧
      m.Starts args stdin directory m' := by
  refine start_bind (written args) (fun next m' => ?_) stdin directory m
  match next with
  | none => rfl
  | some (.notStarted message) => rfl
  | some (.ended status stdout stderr) =>
    dsimp only [begun, written]
    rw [bind_eq, ofExcept_eq]
    dsimp only
    split <;> rfl

/-- So does a command whose output is text. -/
theorem outputText_eq (args : List Text) (m : Machine) :
    ∃ m', outputText args m = (unlessRefused m args
        (spoken args (outcomeAt? (m.outcomes (Text.afterLast '/' (args.headD []))) 0)), m') ∧
      m.Starts args none none m' := by
  refine start_bind (spoken args) (fun next m' => ?_) none none m
  match next with
  | none => rfl
  | some (.notStarted message) => rfl
  | some (.ended status stdout stderr) =>
    dsimp only [begun, spoken]
    rw [bind_eq, ofExcept_eq]
    dsimp only
    unfold decoded
    cases Utf8.decode stdout with
    | error run => rfl
    | ok out =>
      cases Utf8.decode stderr with
      | error run => rfl
      | ok err =>
        rw [pure_bind, pure_bind]
        dsimp only
        split <;> rfl

theorem find?_eq (program : Text) (m : Machine) :
    find? program m = (.ok (if m.has program then some ("/bin/" ++ program) else none), m) := by
  unfold find?
  rw [get_bind]
  rfl

end Run
end ManifestGraph
