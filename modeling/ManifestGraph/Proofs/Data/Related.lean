/-
  Lists that go together item by item. What is in one of them goes with something in the other
  (`exists_of_mem_left`, `exists_of_mem_right`), the parts of one go with the parts of the other
  (`forall₂_append_left_iff`), and so does what is found in them (`rel_find?`).
-/
import Mathlib.Data.List.Forall2

namespace ManifestGraph

variable {α β γ : Type} {R S : α → β → Prop} {as as' : List α} {bs : List β} {a : α} {b : β}

/-! ## Single items -/

theorem exists_of_mem_left (h : List.Forall₂ R as bs) (ha : a ∈ as) : ∃ b ∈ bs, R a b := by
  induction h with
  | nil => exact absurd ha List.not_mem_nil
  | cons hab _ ih =>
    rcases List.mem_cons.mp ha with rfl | ha
    · exact ⟨_, List.mem_cons_self, hab⟩
    · obtain ⟨b, hb, hR⟩ := ih ha
      exact ⟨b, List.mem_cons_of_mem _ hb, hR⟩

theorem exists_of_mem_right (h : List.Forall₂ R as bs) (hb : b ∈ bs) : ∃ a ∈ as, R a b :=
  exists_of_mem_left h.flip hb

/-- The items of a list go with other items if each of them does. -/
theorem exists_forall₂_iff : (∃ bs, List.Forall₂ R as bs) ↔ ∀ a ∈ as, ∃ b, R a b := by
  induction as with
  | nil => simp
  | cons a as ih =>
    rw [List.forall_mem_cons, ← ih]
    simp only [List.forall₂_cons_left_iff]
    grind

theorem forall₂_of_mem_left (hRS : ∀ a b, a ∈ as → R a b → S a b) (h : List.Forall₂ R as bs) :
    List.Forall₂ S as bs := by
  have hmem : List.Forall₂ (fun a b => a ∈ as ∧ R a b) as bs :=
    (List.forall₂_and_left as bs).mpr ⟨fun _ ha => ha, h⟩
  exact hmem.imp fun a b hab => hRS a b hab.1 hab.2

/-- What the items of a list are told apart by tells those apart that they go with. -/
theorem nodup_of_forall₂ {f : α → γ} (h : List.Forall₂ R as bs) (has : (as.map f).Nodup)
    (hR : ∀ a a' b, R a b → R a' b → f a = f a') : bs.Nodup := by
  induction h with
  | nil => exact List.nodup_nil
  | @cons a b as bs hab hrest ih =>
    rw [List.map_cons, List.nodup_cons] at has
    refine List.nodup_cons.mpr ⟨fun hb => has.1 ?_, ih has.2⟩
    obtain ⟨a', ha', hab'⟩ := exists_of_mem_right hrest hb
    rw [hR a a' b hab hab']
    exact List.mem_map_of_mem ha'

/-! ## Whole lists -/

theorem forall₂_comp {S : β → γ → Prop} {T : α → γ → Prop} {cs : List γ}
    (hT : ∀ a b c, R a b → S b c → T a c) (h : List.Forall₂ R as bs) (h' : List.Forall₂ S bs cs) :
    List.Forall₂ T as cs := by
  induction h generalizing cs with
  | nil => cases h'; exact .nil
  | cons hab _ ih =>
    cases h' with
    | cons hbc h' => exact .cons (hT _ _ _ hab hbc) (ih h')

theorem forall₂_append_left_iff : List.Forall₂ R (as ++ as') bs ↔
    ∃ front back, List.Forall₂ R as front ∧ List.Forall₂ R as' back ∧ bs = front ++ back := by
  constructor
  · intro h
    have hfront := List.forall₂_take as.length h
    have hback := List.forall₂_drop as.length h
    rw [List.take_left] at hfront
    rw [List.drop_left] at hback
    exact ⟨_, _, hfront, hback, (List.take_append_drop as.length bs).symm⟩
  · rintro ⟨front, back, hfront, hback, rfl⟩
    exact List.rel_append hfront hback

theorem rel_find? {p : α → Bool} {q : β → Bool} (h : List.Forall₂ R as bs)
    (hpq : ∀ a b, R a b → p a = q b) : Option.Rel R (as.find? p) (bs.find? q) := by
  induction h with
  | nil => exact .none
  | @cons a b as bs hab _ ih =>
    rw [List.find?_cons, List.find?_cons, ← hpq a b hab]
    cases p a with
    | true => exact .some hab
    | false => exact ih

/-- What a partial function makes of a list goes with the items that it is defined on. -/
theorem forall₂_filterMap {p : α → Bool} {f : α → Option β} (hp : ∀ a, p a = (f a).isSome)
    (hf : ∀ a b, f a = some b → R a b) (as : List α) :
    List.Forall₂ R (as.filter p) (as.filterMap f) := by
  induction as with
  | nil => exact .nil
  | cons a as ih =>
    rw [List.filter_cons, List.filterMap_cons, hp]
    cases ha : f a with
    | none => exact ih
    | some b => exact .cons (hf a b ha) ih

theorem filterMap_eq_of_forall₂ {f : α → Option γ} {bs : List α}
    (h : List.Forall₂ (fun a b => f a = f b) as bs) : as.filterMap f = bs.filterMap f := by
  induction h with
  | nil => rfl
  | cons hab _ ih => rw [List.filterMap_cons, List.filterMap_cons, hab, ih]

theorem flatMap_eq_of_forall₂ {f : α → List γ} {bs : List α}
    (h : List.Forall₂ (fun a b => f a = f b) as bs) : as.flatMap f = bs.flatMap f := by
  induction h with
  | nil => rfl
  | cons hab _ ih => rw [List.flatMap_cons, List.flatMap_cons, hab, ih]

end ManifestGraph
