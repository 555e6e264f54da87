/-
  Actions taken apart: what an action that ended well went through, and what the single steps do to the
  machine.
-/
import ManifestGraph.Machine
import ManifestGraph.Proofs.Data.Results

namespace ManifestGraph

/-- The machine with one more event in its journal. -/
def Machine.noting (m : Machine) (e : Event) : Machine := { m with journal := m.journal ++ [e] }

namespace Run

variable {α β : Type} {m m' : Machine}

theorem bind_eq {x : Run α} {f : α → Run β} : (x >>= f) m = match x m with
    | (.ok a, m₁) => f a m₁
    | (.error e, m₁) => (.error e, m₁) := by
  show (ExceptT.bindCont f (x m).1) (x m).2 = _
  rcases x m with ⟨a | e, m₁⟩ <;> rfl

/-- Two actions in turn end well if both do. -/
theorem bind_eq_ok {x : Run α} {f : α → Run β} {b : β} :
    (x >>= f) m = (.ok b, m') ↔ ∃ a m₁, x m = (.ok a, m₁) ∧ f a m₁ = (.ok b, m') := by
  rw [bind_eq]
  rcases x m with ⟨e | a, m₁⟩
  · constructor
    · intro h; cases h
    · rintro ⟨_, _, h, _⟩; cases h
  · constructor
    · exact fun h => ⟨a, m₁, rfl, h⟩
    · rintro ⟨_, _, h, hf⟩; cases h; exact hf

/-- Two actions in turn fail if the first one does, or the second one after it. -/
theorem bind_eq_error {x : Run α} {f : α → Run β} {e : Failure} :
    (x >>= f) m = (.error e, m') ↔
      x m = (.error e, m') ∨ ∃ a m₁, x m = (.ok a, m₁) ∧ f a m₁ = (.error e, m') := by
  rw [bind_eq]
  rcases x m with ⟨e' | a, m₁⟩
  · constructor
    · intro h; cases h; exact Or.inl rfl
    · rintro (h | ⟨_, _, h, _⟩)
      · cases h; rfl
      · cases h
  · constructor
    · exact fun h => Or.inr ⟨a, m₁, rfl, h⟩
    · rintro (h | ⟨_, _, h, hf⟩)
      · cases h
      · cases h; exact hf

theorem pure_eq_ok {a b : α} : (pure a : Run α) m = (.ok b, m') ↔ a = b ∧ m = m' := by
  constructor
  · intro h; cases h; exact ⟨rfl, rfl⟩
  · rintro ⟨rfl, rfl⟩; rfl

/-- A result that was reached outside leaves the machine as it is. -/
theorem ofExcept_eq (x : Except Failure α) : ofExcept x m = (x, m) := by
  cases x <;> rfl

theorem ofExcept_eq_ok {x : Except Failure α} {a : α} :
    ofExcept x m = (.ok a, m') ↔ x = .ok a ∧ m = m' := by
  rw [ofExcept_eq, Prod.mk.injEq]

/-- What is made of an action's result outside leaves the machine as the action did. -/
theorem machine_bind_ofExcept {x : Run α} {f : α → Except Failure β} :
    ((x >>= fun a => ofExcept (f a)) m).2 = (x m).2 := by
  rw [bind_eq]
  rcases x m with ⟨e | a, m₁⟩
  · rfl
  · exact congrArg Prod.snd (ofExcept_eq (f a))

/-- An action that was seen to give something ends well. -/
theorem exists_of_toOption {x : Run α} {f : α → β} {b : β} (h : (x m).1.toOption.map f = some b) :
    ∃ a, x m = (.ok a, (x m).2) ∧ f a = b := by
  obtain ⟨a, ha, hb⟩ := Except.exists_of_toOption h
  exact ⟨a, Prod.ext ha rfl, hb⟩

/-! ## Single steps -/

variable {f : Unit → Run α}

theorem note_bind (e : Event) : (note e >>= f) m = f () (m.noting e) := rfl

theorem log_bind (level : LogLevel) (topic : LogTopic) (message : Text) :
    (log level topic message >>= f) m = f () (m.noting (.logged level topic message)) := rfl

theorem get_bind {f : Machine → Run α} : (get >>= f) m = f m m := rfl

theorem attempt_bind {x : Run α} {f : Except Failure α → Run β} :
    (attempt x >>= f) m = f (x m).1 (x m).2 := rfl

/-- An action whose failure is raised again ends well if the action itself does. -/
theorem attempt_bind_eq_ok {x : Run α} {f : Except Failure α → Run α} {a : α}
    (hok : ∀ a m, f (.ok a) m = (.ok a, m)) (herror : ∀ e m, ∃ e', (f (.error e) m).1 = .error e') :
    (attempt x >>= f) m = (.ok a, m') ↔ x m = (.ok a, m') := by
  rw [attempt_bind]
  rcases x m with ⟨e | b, m₁⟩
  · obtain ⟨e', he⟩ := herror e m₁
    constructor
    · intro h
      rw [h] at he
      cases he
    · intro h; cases h
  · rw [hok]

/-- An action whose failure is raised again in other words fails if the action itself does. -/
theorem attempt_bind_eq_error {x : Run α} {f : Except Failure α → Run α} {told : Failure → Failure}
    {e : Failure} (hok : ∀ a m, f (.ok a) m = (.ok a, m))
    (herror : ∀ e m, f (.error e) m = (.error (told e), m)) :
    (attempt x >>= f) m = (.error e, m') ↔ ∃ raw, x m = (.error raw, m') ∧ e = told raw := by
  rw [attempt_bind]
  rcases x m with ⟨raw | a, m₁⟩
  · rw [herror]
    constructor
    · intro h; cases h; exact ⟨raw, rfl, rfl⟩
    · rintro ⟨_, h, rfl⟩; cases h; rfl
  · rw [hok]
    constructor
    · intro h; cases h
    · rintro ⟨_, h, _⟩; cases h

/-! ## What an action gives and what it fails with -/

/-- Whatever the action gives has a property. -/
def Ensures (x : Run α) (P : α → Prop) : Prop := ∀ m a m', x m = (.ok a, m') → P a

/-- Whatever the action fails with has a property. -/
def Raises (x : Run α) (P : Failure → Prop) : Prop := ∀ m e m', x m = (.error e, m') → P e

section Outcomes

variable {x : Run α} {f : α → Run β} {P : α → Prop} {Q : β → Prop} {F : Failure → Prop} {a : α}

theorem ensures_pure (h : P a) : Ensures (pure a) P := by
  intro m b m' hb
  obtain ⟨rfl, _⟩ := pure_eq_ok.mp hb
  exact h

theorem ensures_throw (e : Failure) : Ensures (throw e) P := fun _ _ _ h => nomatch h

theorem ensures_ofExcept {x : Except Failure α} (h : ∀ a, x = .ok a → P a) :
    Ensures (ofExcept x) P := by
  intro m a m' ha
  exact h a (ofExcept_eq_ok.mp ha).1

theorem Ensures.bind (hx : x.Ensures P) (hf : ∀ a, P a → (f a).Ensures Q) : (x >>= f).Ensures Q := by
  intro m b m' hb
  obtain ⟨a, m₁, ha, hb⟩ := bind_eq_ok.mp hb
  exact hf a (hx m a m₁ ha) m₁ b m' hb

/-- Of an action in turn it matters only what the last one gives. -/
theorem ensures_bind (hf : ∀ a, (f a).Ensures Q) : (x >>= f).Ensures Q :=
  Ensures.bind (P := fun _ => True) (fun _ _ _ _ => trivial) fun a _ => hf a

theorem ensures_attempt (hx : x.Ensures P) : (attempt x).Ensures fun r => ∀ a, r = .ok a → P a := by
  intro m r m' hr a ha
  have hrun : attempt x m = (.ok (x m).1, (x m).2) := rfl
  rw [hrun] at hr
  cases hr
  exact hx m a (x m).2 (Prod.ext ha rfl)

theorem raises_pure (a : α) : Raises (pure a) F := fun _ _ _ h => nomatch h

theorem raises_throw {e : Failure} (h : F e) : Raises (throw e : Run α) F := by
  intro m e' m' he
  cases he
  exact h

theorem raises_ofExcept {x : Except Failure α} (h : ∀ e, x = .error e → F e) :
    Raises (ofExcept x) F := by
  intro m e m' he
  cases x with
  | ok a => cases he
  | error e' => cases he; exact h e rfl

theorem raises_get : (get : Run Machine).Raises F := fun _ _ _ h => nomatch h

theorem raises_note (e : Event) : Raises (note e) F := fun _ _ _ h => nomatch h

theorem Raises.mono {G : Failure → Prop} (hx : x.Raises F) (h : ∀ e, F e → G e) : x.Raises G :=
  fun m e m' he => h e (hx m e m' he)

theorem Raises.bind (hx : x.Raises F) (hf : ∀ a, (f a).Raises F) : (x >>= f).Raises F := by
  intro m e m' he
  rcases bind_eq_error.mp he with he | ⟨a, m₁, _, he⟩
  · exact hx m e m' he
  · exact hf a m₁ e m' he

/-- What comes after an action is only run on what the action gives. -/
theorem Raises.bind_ensured (hx : x.Raises F) (hP : x.Ensures P) (hf : ∀ a, P a → (f a).Raises F) :
    (x >>= f).Raises F := by
  intro m e m' he
  rcases bind_eq_error.mp he with he | ⟨a, m₁, ha, he⟩
  · exact hx m e m' he
  · exact hf a (hP m a m₁ ha) m₁ e m' he

/-- An attempt does not fail; what comes after it may, knowing what the action failed with. -/
theorem Raises.attempt_bind {f : Except Failure α → Run β} {G : Failure → Prop} (hx : x.Raises F)
    (hok : ∀ a, (f (.ok a)).Raises G) (herror : ∀ e, F e → (f (.error e)).Raises G) :
    (attempt x >>= f).Raises G := by
  intro m e m' h
  rw [Run.attempt_bind] at h
  rcases hrun : x m with ⟨raw | a, m₁⟩
  · rw [hrun] at h
    exact herror raw (hx m raw m₁ hrun) m₁ e m' h
  · rw [hrun] at h
    exact hok a m₁ e m' h

theorem Raises.ensures_attempt_bind {f : Except Failure α → Run β} (hx : x.Raises F)
    (hok : ∀ a, (f (.ok a)).Ensures Q) (herror : ∀ e, F e → (f (.error e)).Ensures Q) :
    (attempt x >>= f).Ensures Q := by
  intro m b m' h
  rw [Run.attempt_bind] at h
  rcases hrun : x m with ⟨raw | a, m₁⟩
  · rw [hrun] at h
    exact herror raw (hx m raw m₁ hrun) m₁ b m' h
  · rw [hrun] at h
    exact hok a m₁ b m' h

end Outcomes

end Run
end ManifestGraph
