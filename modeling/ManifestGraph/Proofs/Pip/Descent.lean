/-
  The walk through a report as a relation, without a bound on its depth. `Descends` relates the walks
  before and after some names were met below a node: each name is unknown, or is met again (`prune`),
  or leads to a package whose requirements were added before (`enter`) or are added now (`expand`).
  `Rounds` is the walk from the direct dependencies, each with nothing visited.

  The bound is never reached: every level expands one more package, so a report of `n` items takes at
  most `n + 1` levels (`rounds_toGraph`). There is one walk, so the rounds tell the graph
  (`Rounds.toGraph_eq`).
-/
import ManifestGraph.Pip.Tree
import ManifestGraph.Proofs.Pip.Names
import Mathlib.Data.Finset.Card

namespace ManifestGraph.Pip

namespace Walk

/-- The node of an item below a node, with its requirements to be added next. -/
def expand (w : Walk) (parent : Text) (i : Item) : Walk :=
  { w.enter parent i with expanded := i.nodeId :: w.expanded }

section Steps

variable (w : Walk) (parent : Text) (i : Item)

@[simp] theorem visited_prune : (w.prune parent i).visited = w.visited := rfl

@[simp] theorem expanded_prune : (w.prune parent i).expanded = w.expanded := rfl

@[simp] theorem visited_enter : (w.enter parent i).visited = i.nodeId :: w.visited := rfl

@[simp] theorem expanded_enter : (w.enter parent i).expanded = w.expanded := rfl

@[simp] theorem visited_expand : (w.expand parent i).visited = i.nodeId :: w.visited := rfl

@[simp] theorem expanded_expand : (w.expand parent i).expanded = i.nodeId :: w.expanded := rfl

end Steps

/-- The walk before and after some names are met below a node. -/
inductive Descends (r : Report) : Text → List Text → Walk → Walk → Prop where
  | done (parent : Text) (w : Walk) : Descends r parent [] w w
  | unknown {parent name : Text} {names : List Text} {w w' : Walk} (hi : r.item? name = none)
      (rest : Descends r parent names w w') : Descends r parent (name :: names) w w'
  | prune {parent name : Text} {names : List Text} {w w' : Walk} {i : Item}
      (hi : r.item? name = some i) (hv : i.nodeId ∈ w.visited)
      (rest : Descends r parent names (w.prune parent i) w') :
      Descends r parent (name :: names) w w'
  | enter {parent name : Text} {names : List Text} {w w' : Walk} {i : Item}
      (hi : r.item? name = some i) (hv : i.nodeId ∉ w.visited) (he : i.nodeId ∈ w.expanded)
      (rest : Descends r parent names (w.enter parent i) w') :
      Descends r parent (name :: names) w w'
  | expand {parent name : Text} {names : List Text} {w w₁ w' : Walk} {i : Item}
      (hi : r.item? name = some i) (hv : i.nodeId ∉ w.visited) (he : i.nodeId ∉ w.expanded)
      (below : Descends r i.nodeId i.dependencyNames (w.expand parent i) w₁)
      (rest : Descends r parent names w₁ w') :
      Descends r parent (name :: names) w w'

/-- The walk before and after some direct dependencies. -/
inductive Rounds (r : Report) : List Text → Walk → Walk → Prop where
  | done (w : Walk) : Rounds r [] w w
  | next {name : Text} {names : List Text} {w w₁ w' : Walk}
      (round : Descends r GraphBuilder.rootId [name] { w with visited := [] } w₁)
      (rest : Rounds r names w₁ w') : Rounds r (name :: names) w w'

variable {r : Report} {parent : Text} {names : List Text} {w w₁ w₂ w' : Walk} {i : Item}

/-! ## No level is cut off -/

theorem Descends.expanded_subset (h : Descends r parent names w w') :
    w.expanded ⊆ w'.expanded := by
  induction h with
  | done => exact List.Subset.refl _
  | unknown _ _ ih => exact ih
  | prune _ _ _ ih => exact ih
  | enter _ _ _ _ ih => exact ih
  | expand _ _ _ _ _ ihb ihr =>
    exact List.Subset.trans (List.subset_cons_self _ _) (List.Subset.trans ihb ihr)

/-- How many nodes of items have not been expanded yet. -/
def unexpanded (r : Report) (w : Walk) : Nat :=
  ((r.items.map Item.nodeId).toFinset \ w.expanded.toFinset).card

theorem unexpanded_le (h : w.expanded ⊆ w'.expanded) : unexpanded r w' ≤ unexpanded r w := by
  refine Finset.card_le_card (Finset.sdiff_subset_sdiff (Finset.Subset.refl _) ?_)
  intro id hid
  exact List.mem_toFinset.mpr (h (List.mem_toFinset.mp hid))

theorem unexpanded_le_length (r : Report) (w : Walk) : unexpanded r w ≤ r.items.length :=
  calc unexpanded r w
      ≤ (r.items.map Item.nodeId).toFinset.card := Finset.card_le_card Finset.sdiff_subset
    _ ≤ (r.items.map Item.nodeId).length := List.toFinset_card_le _
    _ = r.items.length := List.length_map _

theorem unexpanded_expand_lt (hi : i ∈ r.items) (he : i.nodeId ∉ w.expanded) :
    unexpanded r (w.expand parent i) < unexpanded r w := by
  refine Finset.card_lt_card (Finset.ssubset_iff_of_subset ?_ |>.mpr ⟨i.nodeId, ?_, ?_⟩)
  · refine Finset.sdiff_subset_sdiff (Finset.Subset.refl _) fun id hid => ?_
    exact List.mem_toFinset.mpr (List.mem_cons_of_mem _ (List.mem_toFinset.mp hid))
  · rw [Finset.mem_sdiff, List.mem_toFinset, List.mem_toFinset]
    exact ⟨List.mem_map_of_mem hi, he⟩
  · rw [Finset.mem_sdiff, List.mem_toFinset, List.mem_toFinset]
    exact fun h => h.2 List.mem_cons_self

theorem descend_nil (r : Report) (depth : Nat) (parent : Text) (w : Walk) :
    descend r depth parent [] w = w := by
  cases depth <;> rfl

/-- With more levels than there are nodes to expand, the walk goes all the way down. -/
theorem descends_descend (r : Report) (depth : Nat) (parent : Text) (names : List Text) (w : Walk)
    (hdepth : unexpanded r w < depth) :
    Descends r parent names w (descend r depth parent names w) := by
  induction depth generalizing parent names w with
  | zero => exact absurd hdepth (Nat.not_lt_zero _)
  | succ depth ihd =>
    induction names generalizing w with
    | nil => rw [descend_nil]; exact .done parent w
    | cons name names ihn =>
      rw [descend, List.foldl_cons]
      cases hi : r.item? name with
      | none => exact .unknown hi (ihn w hdepth)
      | some i =>
        dsimp only
        by_cases hv : i.nodeId ∈ w.visited
        · rw [if_pos (by simpa using hv)]
          exact .prune hi hv (ihn _ hdepth)
        · rw [if_neg (by simpa using hv)]
          by_cases he : i.nodeId ∈ w.expanded
          · rw [if_pos (by simpa using he)]
            exact .enter hi hv he (ihn _ hdepth)
          · rw [if_neg (by simpa using he)]
            have hlt : unexpanded r (w.expand parent i) < unexpanded r w :=
              unexpanded_expand_lt (mem_items_of_last? hi) he
            have hbelow := ihd i.nodeId i.dependencyNames (w.expand parent i) (by omega)
            have hle := unexpanded_le (r := r) hbelow.expanded_subset
            exact .expand hi hv he hbelow (ihn _ (by omega))

/-- The graph of a report is built by rounds through its direct dependencies. -/
theorem rounds_toGraph (r : Report) (manager : Text) :
    ∃ w, Rounds r r.directNames (start manager) w ∧ r.toGraph manager = w.builder.build := by
  have hfold : ∀ (names : List Text) (w : Walk), Rounds r names w
      (names.foldl (fun w name => descend r (r.items.length + 1) GraphBuilder.rootId [name]
        { w with visited := [] }) w) := by
    intro names
    induction names with
    | nil => exact fun w => .done w
    | cons name names ih =>
      intro w
      exact .next (descends_descend r _ _ _ _ (Nat.lt_succ_of_le (unexpanded_le_length r _))) (ih _)
  exact ⟨_, hfold r.directNames (start manager), rfl⟩

/-! ## There is one walk -/

theorem Descends.eq (h : Descends r parent names w w₁) (h' : Descends r parent names w w₂) :
    w₁ = w₂ := by
  induction h generalizing w₂ with
  | done => cases h'; rfl
  | unknown hi _ ih => cases h' <;> grind
  | prune hi hv _ ih => cases h' <;> grind
  | enter hi hv he _ ih => cases h' <;> grind
  | expand hi hv he _ _ ihb ihr => cases h' <;> grind

theorem Rounds.eq (h : Rounds r names w w₁) (h' : Rounds r names w w₂) : w₁ = w₂ := by
  induction h generalizing w₂ with
  | done => cases h'; rfl
  | next round _ ih =>
    cases h' with
    | next round' rest =>
      obtain rfl := round.eq round'
      exact ih rest

/-- Whatever rounds lead through the direct dependencies, they build the graph. -/
theorem Rounds.toGraph_eq {manager : Text} (h : Rounds r r.directNames (start manager) w) :
    r.toGraph manager = w.builder.build := by
  obtain ⟨w', hrounds, hbuild⟩ := rounds_toGraph r manager
  rw [hbuild, h.eq hrounds]

end Walk
end ManifestGraph.Pip
