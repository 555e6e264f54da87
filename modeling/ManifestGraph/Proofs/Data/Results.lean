/-
  Results that are there or not. Steps in turn give a result if each of them does (`Except.bind_eq_ok`), and
  fail with what the first of them fails with (`Except.bind_eq_error`); so does a list of results
  (`Except.mapM_eq_ok`, `Except.exists_of_mapM_eq_error`), also where they go by their place
  (`Except.mapM_mapIdx_eq_ok`).
-/
import Mathlib.Data.List.Forall2

namespace ManifestGraph

theorem Except.bind_eq_ok {ε α β : Type} {x : Except ε α} {f : α → Except ε β} {b : β} :
    (x >>= f) = .ok b ↔ ∃ a, x = .ok a ∧ f a = .ok b := by
  cases x with
  | ok a => exact ⟨fun h => ⟨a, rfl, h⟩, fun ⟨_, ha, h⟩ => by cases ha; exact h⟩
  | error e => exact ⟨fun h => (nomatch h), fun ⟨_, ha, _⟩ => (nomatch ha)⟩

theorem Except.bind_eq_error {ε α β : Type} {x : Except ε α} {f : α → Except ε β} {e : ε} :
    (x >>= f) = .error e ↔ x = .error e ∨ ∃ a, x = .ok a ∧ f a = .error e := by
  cases x with
  | ok a =>
    constructor
    · exact fun h => Or.inr ⟨a, rfl, h⟩
    · rintro (h | ⟨_, ha, h⟩)
      · cases h
      · cases ha; exact h
  | error e' =>
    constructor
    · intro h; cases h; exact Or.inl rfl
    · rintro (h | ⟨_, ha, _⟩)
      · cases h; rfl
      · cases ha

/-- A result that is there on a condition. -/
theorem Except.ite_ok_eq_ok {ε α : Type} {p : Prop} [Decidable p] {a b : α} {e : ε} :
    (if p then .ok a else .error e : Except ε α) = .ok b ↔ p ∧ b = a := by
  split
  next h => exact ⟨fun hb => ⟨h, (Except.ok.inj hb).symm⟩, fun hb => congrArg _ hb.2.symm⟩
  next h => exact ⟨fun hb => (nomatch hb), fun hb => absurd hb.1 h⟩

theorem Except.ite_error_eq_ok {ε α : Type} {p : Prop} [Decidable p] {a b : α} {e : ε} :
    (if p then .error e else .ok a : Except ε α) = .ok b ↔ ¬p ∧ b = a := by
  rw [← ite_not, ite_ok_eq_ok]

/-- A list of results fails for one of them. -/
theorem Except.exists_of_mapM_eq_error {ε α β : Type} {f : α → Except ε β} {as : List α} {e : ε}
    (h : as.mapM f = .error e) : ∃ a ∈ as, f a = .error e := by
  induction as with
  | nil => cases h
  | cons a as ih =>
    rw [List.mapM_cons] at h
    rcases Except.bind_eq_error.mp h with h | ⟨b, _, h⟩
    · exact ⟨a, List.mem_cons_self, h⟩
    rcases Except.bind_eq_error.mp h with h | ⟨bs, _, h⟩
    · obtain ⟨a', ha', h⟩ := ih h
      exact ⟨a', List.mem_cons_of_mem a ha', h⟩
    · cases h

/-- A list of results is there if each of them is. -/
theorem Except.mapM_eq_ok {ε α β : Type} {f : α → Except ε β} {as : List α} {bs : List β} :
    as.mapM f = .ok bs ↔ List.Forall₂ (fun a b => f a = .ok b) as bs := by
  induction as generalizing bs with
  | nil =>
    rw [List.mapM_nil, List.forall₂_nil_left_iff]
    exact ⟨fun h => by cases h; rfl, fun h => by rw [h]; rfl⟩
  | cons a as ih =>
    rw [List.mapM_cons, Except.bind_eq_ok, List.forall₂_cons_left_iff]
    constructor
    · rintro ⟨b, hb, h⟩
      obtain ⟨rest, hrest, h⟩ := Except.bind_eq_ok.mp h
      cases h
      exact ⟨b, rest, hb, ih.mp hrest, rfl⟩
    · rintro ⟨b, rest, hb, hrest, rfl⟩
      exact ⟨b, hb, Except.bind_eq_ok.mpr ⟨rest, ih.mpr hrest, rfl⟩⟩

section Indexed

variable {ε α β : Type} {f : Nat → α → Except ε β} {as : List α} {bs : List β}

/-- Results that go by their place are there if the one at each place is. -/
theorem Except.mapM_mapIdx_eq_ok : (as.mapIdx f).mapM id = .ok bs ↔
    bs.length = as.length ∧ ∀ n a, as[n]? = some a → ∃ b, bs[n]? = some b ∧ f n a = .ok b := by
  rw [Except.mapM_eq_ok, List.forall₂_iff_get]
  have hsame : (as.mapIdx f).length = as.length := List.length_mapIdx
  constructor
  · rintro ⟨hlength, heach⟩
    refine ⟨hlength.symm.trans hsame, fun n a ha => ?_⟩
    obtain ⟨hn, rfl⟩ := List.getElem?_eq_some_iff.mp ha
    have hn' : n < bs.length := by omega
    have hb := heach n (by omega) hn'
    rw [List.get_eq_getElem, List.getElem_mapIdx] at hb
    exact ⟨bs[n], List.getElem?_eq_getElem hn', hb⟩
  · rintro ⟨hlength, heach⟩
    refine ⟨hsame.trans hlength.symm, fun n hn hn' => ?_⟩
    obtain ⟨b, hb, hresult⟩ := heach n _ (List.getElem?_eq_getElem (hsame ▸ hn))
    rw [List.getElem?_eq_getElem hn', Option.some.injEq] at hb
    rw [List.get_eq_getElem, List.get_eq_getElem, List.getElem_mapIdx, hb]
    exact hresult

theorem Except.exists_mapM_mapIdx_eq_ok : (∃ bs, (as.mapIdx f).mapM id = .ok bs) ↔
    ∀ n a, as[n]? = some a → ∃ b, f n a = .ok b := by
  constructor
  · rintro ⟨bs, hall⟩ n a ha
    obtain ⟨b, _, hb⟩ := (mapM_mapIdx_eq_ok.mp hall).2 n a ha
    exact ⟨b, hb⟩
  · intro heach
    cases hall : (as.mapIdx f).mapM id with
    | ok bs => exact ⟨bs, rfl⟩
    | error e =>
      obtain ⟨result, hresult, rfl⟩ := Except.exists_of_mapM_eq_error hall
      obtain ⟨n, hn, hf⟩ := List.mem_mapIdx.mp hresult
      obtain ⟨b, hb⟩ := heach n _ (List.getElem?_eq_getElem hn)
      cases hf.symm.trans hb

end Indexed

theorem Except.eq_ok_of_toOption {ε α : Type} {x : Except ε α} {a : α} (h : x.toOption = some a) :
    x = .ok a := by
  cases x with
  | ok b => cases h; rfl
  | error e => cases h

/-- A result that was seen to give something is there. -/
theorem Except.exists_of_toOption {ε α β : Type} {x : Except ε α} {f : α → β} {b : β}
    (h : x.toOption.map f = some b) : ∃ a, x = .ok a ∧ f a = b := by
  cases x with
  | ok a => exact ⟨a, rfl, Option.some.inj h⟩
  | error e => cases h

end ManifestGraph
