/-
  What an action leaves behind. An action `Keeps` to events of some kind if it writes no file and notes only
  such events. Actions in turn keep to what each of them keeps to (`Keeps.bind`), and what a run exchanges
  with programs, files and the service is of the kind `Event.isOutward`.
-/
import ManifestGraph.Proofs.Machine.Programs

namespace ManifestGraph

/-- The event concerns a program or the service, or is a message from outside the resolution. -/
def Event.isOutward : Event → Bool
  | .started .. | .posted .. => true
  | .logged _ topic _ => topic ≠ .resolution
  | _ => false

/-- The event is a message. -/
def Event.isLogged : Event → Bool
  | .logged .. => true
  | _ => false

/-- The second machine has the files of the first one, and some more events of a kind in its journal. -/
structure Machine.Follows (kind : Event → Bool) (m m' : Machine) : Prop where
  files : m'.files = m.files
  journal : ∃ noted, m'.journal = m.journal ++ noted ∧ ∀ e ∈ noted, kind e = true

namespace Machine.Follows

variable {kind : Event → Bool} {m m₁ m' : Machine}

/-- Nothing is noted; programs and the service may have moved on. -/
theorem of_journal_eq (hfiles : m'.files = m.files) (hjournal : m'.journal = m.journal) :
    m.Follows kind m' :=
  ⟨hfiles, [], by rw [hjournal, List.append_nil], List.forall_mem_nil _⟩

theorem refl (m : Machine) : m.Follows kind m := .of_journal_eq rfl rfl

theorem trans (h : m.Follows kind m₁) (h' : m₁.Follows kind m') : m.Follows kind m' := by
  obtain ⟨noted, hjournal, hkind⟩ := h.journal
  obtain ⟨noted', hjournal', hkind'⟩ := h'.journal
  refine ⟨h'.files.trans h.files, noted ++ noted', ?_, List.forall_mem_append.mpr ⟨hkind, hkind'⟩⟩
  rw [hjournal', hjournal, List.append_assoc]

theorem noting {e : Event} (h : kind e = true) : m.Follows kind (m.noting e) :=
  ⟨rfl, [e], rfl, List.forall_mem_singleton.mpr h⟩

theorem mono {kind' : Event → Bool} (h : m.Follows kind m')
    (hkind : ∀ e, kind e = true → kind' e = true) : m.Follows kind' m' := by
  obtain ⟨noted, hjournal, hnoted⟩ := h.journal
  exact ⟨h.files, noted, hjournal, fun e he => hkind e (hnoted e he)⟩

end Machine.Follows

namespace Run

variable {α β : Type} {kind : Event → Bool} {x : Run α} {f : α → Run β}

/-- The action writes no file, and all that it notes are events of a kind. -/
def Keeps (kind : Event → Bool) (x : Run α) : Prop := ∀ m : Machine, m.Follows kind (x m).2

theorem keeps_pure (a : α) : Keeps kind (pure a : Run α) := fun m => .refl m

theorem keeps_throw (e : Failure) : Keeps kind (throw e : Run α) := fun m => .refl m

theorem keeps_get : Keeps kind (get : Run Machine) := fun m => .refl m

theorem keeps_ofExcept (x : Except Failure α) : Keeps kind (ofExcept x) := by
  cases x with
  | ok a => exact keeps_pure a
  | error e => exact keeps_throw e

theorem keeps_note {e : Event} (h : kind e = true) : Keeps kind (note e) := fun _ => .noting h

theorem Keeps.mono {kind' : Event → Bool} (hx : x.Keeps kind)
    (hkind : ∀ e, kind e = true → kind' e = true) : x.Keeps kind' := fun m => (hx m).mono hkind

theorem Keeps.bind (hx : x.Keeps kind) (hf : ∀ a, (f a).Keeps kind) : (x >>= f).Keeps kind := by
  intro m
  have hfirst := hx m
  rw [bind_eq]
  generalize x m = result at hfirst
  obtain ⟨e | a, m₁⟩ := result
  · exact hfirst
  · exact hfirst.trans (hf a m₁)

/-- What comes after an attempt keeps to the kind whichever way the attempt ended. -/
theorem Keeps.attempt_bind {f : Except Failure α → Run β} (hx : x.Keeps kind)
    (hok : ∀ a, (f (.ok a)).Keeps kind) (herror : ∀ e, (f (.error e)).Keeps kind) :
    (attempt x >>= f).Keeps kind := by
  have hattempt : (attempt x).Keeps kind := hx
  refine hattempt.bind fun result => ?_
  cases result with
  | ok a => exact hok a
  | error e => exact herror e

/-! ## The outside -/

theorem keeps_decoded (bs : Bytes) : (decoded bs).Keeps kind := by
  unfold decoded
  split
  next => exact keeps_pure _
  next => exact keeps_throw _

theorem keeps_find? (program : Text) : (find? program).Keeps kind :=
  keeps_get.bind fun _ => keeps_pure _

theorem keeps_isPresent (p : Path) : (isPresent p).Keeps kind := by
  refine keeps_get.bind fun m => ?_
  split
  next => exact keeps_pure _
  next => exact keeps_throw _

theorem keeps_readFile (p : Path) : (readFile p).Keeps kind := by
  refine keeps_get.bind fun m => ?_
  split
  next => exact keeps_pure _
  next => exact keeps_throw _

theorem keeps_start (args : List Text) (stdin : Option Bytes) (directory : Option Text) :
    (start args stdin directory).Keeps Event.isOutward := by
  refine (keeps_note rfl).bind fun _ => ?_
  intro m
  dsimp only
  rw [get_bind]
  cases m.refuses args with
  | true => exact .refl m
  | false =>
    generalize nextOutcome? _ = next
    obtain _ | ⟨outcome, rest⟩ := next
    · exact .refl m
    · cases outcome <;> exact .of_journal_eq rfl rfl

theorem keeps_post (url : Text) (parameters : List (Text × Text)) (body : Bytes)
    (headers : List (Text × Text)) : (post url parameters body headers).Keeps Event.isOutward := by
  refine (keeps_note rfl).bind fun _ => ?_
  intro m
  rw [get_bind]
  generalize nextOutcome? _ = next
  obtain _ | ⟨reply, rest⟩ := next
  · exact .refl m
  · cases reply <;> exact .of_journal_eq rfl rfl

theorem keeps_output (args : List Text) (stdin : Option Bytes) (directory : Option Text) :
    (output args stdin directory).Keeps Event.isOutward := by
  refine (keeps_start args stdin directory).bind fun outcome => ?_
  cases outcome with
  | notStarted message => exact keeps_throw _
  | ended status stdout stderr =>
    dsimp only
    split
    next => exact keeps_pure _
    next => exact keeps_throw _

theorem keeps_outputText (args : List Text) : (outputText args).Keeps Event.isOutward := by
  refine (keeps_start args none none).bind fun outcome => ?_
  cases outcome with
  | notStarted message => exact keeps_throw _
  | ended status stdout stderr =>
    refine (keeps_decoded stdout).bind fun _ => (keeps_decoded stderr).bind fun _ => ?_
    split
    next => exact keeps_pure _
    next => exact keeps_throw _

end Run
end ManifestGraph
