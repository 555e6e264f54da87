/-
  Names and ids of the packages in a report. Normal names are normal (`normalName_normalName`), and
  without an `@` in the names the id of a node tells the package: two packages that can be looked up
  have different nodes (`Listed.eq_of_nodeId_eq`), and no pruned leaf has the id of a node
  (`Listed.prunedId_ne_nodeId`).
-/
import ManifestGraph.Pip.Tree
import ManifestGraph.Proofs.Text.LowerCase
import Mathlib.Data.List.Basic
import Mathlib.Data.List.Nodup

namespace ManifestGraph.Pip

open Text (stable_of_mem_lower)

/-! ## Normal names -/

theorem replace_of_not_mem {a b : CodePoint} {t : Text} (h : a ∉ t) : t.replace a b = t := by
  refine (List.map_congr_left fun c hc => ?_).trans (List.map_id t)
  have hne : c ≠ a := by
    rintro rfl
    exact h hc
  rw [if_neg hne]
  rfl

theorem not_mem_replace {a b : CodePoint} (hab : a ≠ b) (t : Text) : a ∉ t.replace a b := by
  intro h
  obtain ⟨c, _, hc⟩ := List.mem_map.mp h
  split at hc
  next => exact hab hc.symm
  next hne => exact hne hc

/-- A normal name is its own normal form. -/
theorem normalName_normalName (name : Text) : normalName (normalName name) = normalName name := by
  have hlow : (name.lower.replace '_' '-').lower = name.lower.replace '_' '-' := by
    refine Text.lowerAfter_of_stable [] fun p hp => ?_
    obtain ⟨c, hc, rfl⟩ := List.mem_map.mp hp
    split
    · exact ⟨by decide, by decide⟩
    · exact stable_of_mem_lower hc
  unfold normalName
  rw [hlow]
  exact replace_of_not_mem (not_mem_replace (by decide) _)

theorem at_mem_of_mem_normalName {name : Text} (h : CodePoint.scalar '@' ∈ normalName name) :
    CodePoint.scalar '@' ∈ name := by
  obtain ⟨c, hc, heq⟩ := List.mem_map.mp h
  split at heq
  next => exact absurd heq (by decide)
  next => rw [heq] at hc; exact Text.at_mem_lower hc

/-! ## Looking up -/

/-- The last item with a normal name. -/
def Report.last? (r : Report) (key : Text) : Option Item :=
  r.items.reverse.find? fun i => i.key = key

/-- The item is the one that its name is looked up to. -/
def Report.Listed (r : Report) (i : Item) : Prop := r.last? i.key = some i

/-- No name has an `@` in it. -/
def Report.NamesPlain (r : Report) : Prop := ∀ i ∈ r.items, CodePoint.scalar '@' ∉ i.name

variable {r : Report} {i j : Item} {key name : Text}

theorem item?_eq_last? : r.item? name = r.last? (normalName name) := rfl

theorem key_of_last? (h : r.last? key = some i) : i.key = key := by
  simpa using List.find?_some h

theorem mem_items_of_last? (h : r.last? key = some i) : i ∈ r.items :=
  List.mem_reverse.mp (List.mem_of_find?_eq_some h)

theorem listed_of_last? (h : r.last? key = some i) : r.Listed i := by
  rw [Report.Listed, key_of_last? h]
  exact h

theorem listed_of_item? (h : r.item? name = some i) : r.Listed i := listed_of_last? h

theorem Report.Listed.mem (h : r.Listed i) : i ∈ r.items := mem_items_of_last? h

theorem item?_key (i : Item) : r.item? i.key = r.last? i.key := by
  rw [item?_eq_last?]
  exact congrArg r.last? (normalName_normalName i.name)

/-- An item can be looked up unless another one has its name. -/
theorem exists_last?_of_mem (h : i ∈ r.items) : ∃ j, r.last? i.key = some j := by
  have hsome : (r.last? i.key).isSome = true := by
    rw [Report.last?, List.find?_isSome]
    exact ⟨i, List.mem_reverse.mpr h, by simp⟩
  exact Option.isSome_iff_exists.mp hsome

/-- With distinct names an item is found by its own. -/
theorem last?_eq_some_iff (hnames : (r.items.map Item.key).Nodup) :
    r.last? key = some i ↔ i ∈ r.items ∧ i.key = key := by
  constructor
  · intro h
    exact ⟨mem_items_of_last? h, key_of_last? h⟩
  · rintro ⟨hi, rfl⟩
    obtain ⟨j, hj⟩ := exists_last?_of_mem hi
    rw [hj, List.inj_on_of_nodup_map hnames (mem_items_of_last? hj) hi (key_of_last? hj)]

/-! ## Ids of nodes -/

namespace Item

/-- The id of the item's pruned leaves. -/
def prunedId (i : Item) : Text := i.nodeId ++ ":" ++ prunedLabel

theorem package_id (i : Item) : i.package.id = i.nodeId := rfl

theorem nodeId_eq (i : Item) : i.nodeId = i.key ++ CodePoint.scalar '@' :: i.shownVersion := by
  simp [nodeId, Text.ofString]

theorem prunedId_eq (i : Item) :
    i.prunedId = i.key ++ CodePoint.scalar '@' :: (i.shownVersion ++ (":" ++ prunedLabel)) := by
  simp [prunedId, nodeId_eq]

theorem at_mem_nodeId (i : Item) : CodePoint.scalar '@' ∈ i.nodeId := by
  simp [nodeId_eq]

theorem at_mem_prunedId (i : Item) : CodePoint.scalar '@' ∈ i.prunedId := by
  simp [prunedId_eq]

theorem nodeId_ne_rootId (i : Item) : i.nodeId ≠ GraphBuilder.rootId := by
  intro h
  have hmem := h ▸ at_mem_nodeId i
  exact absurd hmem (by decide)

theorem prunedId_ne_rootId (i : Item) : i.prunedId ≠ GraphBuilder.rootId := by
  intro h
  have hmem := h ▸ at_mem_prunedId i
  exact absurd hmem (by decide)

theorem prunedId_inj (h : i.prunedId = j.prunedId) : i.nodeId = j.nodeId := by
  unfold prunedId at h
  exact List.append_cancel_right (List.append_cancel_right h)

end Item

/-- A text is cut in one way at the first place where a code point stands. -/
theorem eq_of_append_cons_eq {a : CodePoint} {s t x y : Text} (hs : a ∉ s) (ht : a ∉ t)
    (h : s ++ a :: x = t ++ a :: y) : s = t ∧ x = y := by
  induction s generalizing t with
  | nil =>
    cases t with
    | nil => exact ⟨rfl, (List.cons.inj h).2⟩
    | cons c t => exact absurd (List.cons.inj h).1 fun he => ht (he ▸ List.mem_cons_self)
  | cons c s ih =>
    cases t with
    | nil => exact absurd (List.cons.inj h).1 fun he => hs (he ▸ List.mem_cons_self)
    | cons d t =>
      obtain ⟨rfl, hrest⟩ := List.cons.inj h
      obtain ⟨rfl, hxy⟩ := ih (List.not_mem_of_not_mem_cons hs) (List.not_mem_of_not_mem_cons ht) hrest
      exact ⟨rfl, hxy⟩

section Plain

variable (hplain : r.NamesPlain)

include hplain

theorem at_not_mem_key (h : r.Listed i) : CodePoint.scalar '@' ∉ i.key := fun hmem =>
  hplain i h.mem (at_mem_of_mem_normalName hmem)

/-- What stands before the first `@` is the name. -/
theorem Report.Listed.eq_of_cons_eq (hi : r.Listed i) (hj : r.Listed j) {s t : Text}
    (h : i.key ++ CodePoint.scalar '@' :: s = j.key ++ CodePoint.scalar '@' :: t) :
    i = j ∧ s = t := by
  obtain ⟨hkey, hrest⟩ := eq_of_append_cons_eq (at_not_mem_key hplain hi)
    (at_not_mem_key hplain hj) h
  rw [Report.Listed, hkey, hj] at hi
  exact ⟨(Option.some.inj hi).symm, hrest⟩

theorem Report.Listed.eq_of_nodeId_eq (hi : r.Listed i) (hj : r.Listed j)
    (h : i.nodeId = j.nodeId) : i = j := by
  rw [Item.nodeId_eq, Item.nodeId_eq] at h
  exact (hi.eq_of_cons_eq hplain hj h).1

theorem Report.Listed.prunedId_ne_nodeId (hi : r.Listed i) (hj : r.Listed j) :
    i.prunedId ≠ j.nodeId := by
  intro h
  rw [Item.prunedId_eq, Item.nodeId_eq] at h
  obtain ⟨rfl, hrest⟩ := hi.eq_of_cons_eq hplain hj h
  have hlen := congrArg List.length hrest
  rw [List.length_append] at hlen
  have : (((":" : String) : Text) ++ prunedLabel).length = 7 := by decide
  omega

end Plain

end ManifestGraph.Pip
