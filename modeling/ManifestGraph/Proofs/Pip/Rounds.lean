/-
  What one round of the walk adds. After some rounds those nodes are expanded whose packages are below
  one of the direct dependencies that were met (`Rounds.mem_expanded_iff`), so a round expands the packages
  that are first met in it. Of the nodes that one round expands no two have the unpruned node of one
  package as a child, because that node has been visited once the first of them has it
  (`Descends.apart`). Nodes of different rounds may share children.
-/
import ManifestGraph.Proofs.Pip.Reachable

namespace ManifestGraph.Pip

open GraphBuilder (rootId childrenOf_attach)
open Relation (ReflTransGen)

/-- A package requires another one. -/
def Report.Requires (r : Report) (i j : Item) : Prop := ∃ name ∈ i.dependencyNames, r.item? name = some j

/-- A package is, or leads by what it requires to, another one. -/
def Report.Below (r : Report) : Item → Item → Prop := ReflTransGen r.Requires

variable {r : Report} {parent name id manager : Text} {names old before after : List Text}
  {w w₁ w' : Walk} {i k : Item}

theorem Report.Below.listed (hi : r.Listed i) (h : r.Below i k) : r.Listed k := by
  rcases h.cases_tail with rfl | ⟨_, _, _, _, hk⟩
  · exact hi
  · exact listed_of_item? hk

namespace Walk

/-! ## What is expanded -/

/-- A descent expands only what is below the names that it meets. -/
theorem Descends.exists_below (h : Descends r parent names w w') (hplain : r.NamesPlain)
    (hk : r.Listed k) (hk' : k.nodeId ∈ w'.expanded) (hkw : k.nodeId ∉ w.expanded) :
    ∃ name ∈ names, ∃ i, r.item? name = some i ∧ r.Below i k := by
  induction h with
  | done => exact absurd hk' hkw
  | unknown _ _ ih => exact List.exists_mem_cons_of_exists (ih hk' hkw)
  | prune _ _ _ ih => exact List.exists_mem_cons_of_exists (ih hk' hkw)
  | enter _ _ _ _ ih => exact List.exists_mem_cons_of_exists (ih hk' hkw)
  | @expand parent name names w w₁ w' i hi _ _ below _ ihb ihr =>
    by_cases hk₁ : k.nodeId ∈ w₁.expanded
    · refine ⟨name, List.mem_cons_self, i, hi, ?_⟩
      by_cases hki : k.nodeId = i.nodeId
      · rw [hk.eq_of_nodeId_eq hplain (listed_of_item? hi) hki]
        exact .refl
      · have hnew : k.nodeId ∉ (w.expand parent i).expanded := by simp [hki, hkw]
        obtain ⟨n, hn, j, hj, hbelow⟩ := ihb hk₁ hnew
        exact .head ⟨n, hn, hj⟩ hbelow
    · exact List.exists_mem_cons_of_exists (ihr hk' hk₁)

theorem Rounds.exists_below (h : Rounds r names w w') (hplain : r.NamesPlain)
    (hk : r.Listed k) (hk' : k.nodeId ∈ w'.expanded) (hkw : k.nodeId ∉ w.expanded) :
    ∃ name ∈ names, ∃ i, r.item? name = some i ∧ r.Below i k := by
  induction h with
  | done => exact absurd hk' hkw
  | @next name names w w₁ w' round _ ih =>
    by_cases hk₁ : k.nodeId ∈ w₁.expanded
    · obtain ⟨n, hn, hbelow⟩ := round.exists_below hplain hk hk₁ hkw
      rw [List.mem_singleton.mp hn] at hbelow
      exact ⟨name, List.mem_cons_self, hbelow⟩
    · exact List.exists_mem_cons_of_exists (ih hk' hk₁)

theorem Rounds.mem_expanded_of_below (h : Rounds r names (Walk.start manager) w)
    (hplain : r.NamesPlain) (hnames : names ⊆ r.directNames) (hname : name ∈ names)
    (hi : r.item? name = some i) (hbelow : r.Below i k) : k.nodeId ∈ w.expanded := by
  have hn : LeadToNeeded r names := fun n hn => leadToNeeded_directNames r n (hnames hn)
  have hw := h.coherent (.start r manager) hn
  induction hbelow with
  | refl =>
    obtain ⟨added, hadd, hlead⟩ :=
      h.childrenOf_root (.start r manager) hn fun n hn => directNames_known (hnames hn)
    obtain ⟨child, hchild, j, hj, rfl⟩ := exists_of_mem_left hlead hname
    rw [hi] at hj
    obtain rfl := Option.some.inj hj
    have hmem : i.nodeId ∈ w.builder.childrenOf rootId := by
      rw [hadd]
      exact List.mem_append_right _ hchild
    exact hw.expanded_of_child hplain (listed_of_item? hi) hmem (Or.inl rfl)
  | tail hbelow hrequires ih =>
    obtain ⟨n, hn', hj⟩ := hrequires
    have hlisted := Report.Below.listed (listed_of_item? hi) hbelow
    have hchildren := h.childrenOf_expanded hplain (.start r manager) hn hlisted ih List.not_mem_nil
    exact hw.expanded_of_leads hplain hchildren hn' hj

/-- After some rounds from the start that is expanded which is below the names that were met. -/
theorem Rounds.mem_expanded_iff (h : Rounds r names (Walk.start manager) w) (hplain : r.NamesPlain)
    (hnames : names ⊆ r.directNames) (hk : r.Listed k) :
    k.nodeId ∈ w.expanded ↔ ∃ name ∈ names, ∃ i, r.item? name = some i ∧ r.Below i k := by
  constructor
  · exact fun hmem => h.exists_below hplain hk hmem List.not_mem_nil
  · rintro ⟨name, hname, i, hi, hbelow⟩
    exact h.mem_expanded_of_below hplain hnames hname hi hbelow

/-! ## What a round gives no two nodes -/

/-- A node that has been expanded meanwhile has the unpruned node of a package as a child. -/
structure NewParent (r : Report) (old : List Text) (w : Walk) (id : Text) (i : Item) : Prop where
  listed : r.Listed i
  child : i.nodeId ∈ w.builder.childrenOf id
  expanded : id ∈ w.expanded
  new : id ∉ old

/-- What has been expanded meanwhile has visited children, and no two nodes share one. -/
structure Apart (r : Report) (old : List Text) (w : Walk) : Prop where
  visited : ∀ id i, NewParent r old w id i → i.nodeId ∈ w.visited
  eq_of_child : ∀ id id' i, NewParent r old w id i → NewParent r old w id' i → id = id'

/-- One more child for a node: a pruned leaf, or a node that has not been visited and is visited now. -/
theorem Apart.attach {p : PackageInfo} {info : Option NodeInfo} {visited expanded : List Text}
    (h : Apart r old w) (hparent : parent ∈ w.builder.ids) (hvisited : w.visited ⊆ visited)
    (hexpanded : ∀ x ∈ expanded, x ∈ w.expanded ∨ w.builder.childrenOf x = [])
    (hid : ∀ i, r.Listed i → i.nodeId = id → id ∉ w.visited ∧ id ∈ visited) :
    Apart r old ⟨w.builder.attach parent id p info, visited, expanded⟩ := by
  have hold : ∀ x i, NewParent r old ⟨w.builder.attach parent id p info, visited, expanded⟩ x i →
      NewParent r old w x i ∨ x = parent ∧ i.nodeId = id := by
    intro x i hx
    have hchild := hx.child
    rw [childrenOf_attach hparent] at hchild
    have hchild : i.nodeId ∈ w.builder.childrenOf x ∨ x = parent ∧ i.nodeId = id := by
      split at hchild
      next heq => simpa [heq] using hchild
      next => exact Or.inl hchild
    refine hchild.imp_left fun hchild => ⟨hx.listed, hchild, ?_, hx.new⟩
    exact (hexpanded x hx.expanded).resolve_right (List.ne_nil_of_mem hchild)
  -- a child that is new and an old one are different: the old one has been visited
  have hne : ∀ x i, NewParent r old w x i → i.nodeId ≠ id := by
    rintro x i hx rfl
    exact (hid i hx.listed rfl).1 (h.visited x i hx)
  constructor
  · intro x i hx
    rcases hold x i hx with hx' | ⟨_, rfl⟩
    · exact hvisited (h.visited x i hx')
    · exact (hid i hx.listed rfl).2
  · intro x y i hx hy
    rcases hold x i hx with hx' | ⟨hxp, hxi⟩
    · rcases hold y i hy with hy' | ⟨_, hyi⟩
      · exact h.eq_of_child x y i hx' hy'
      · exact absurd hyi (hne x i hx')
    · rcases hold y i hy with hy' | ⟨hyp, _⟩
      · exact absurd hxi (hne y i hy')
      · rw [hxp, hyp]

theorem Apart.prune (h : Apart r old w) (hplain : r.NamesPlain) (hparent : parent ∈ w.builder.ids)
    (hi : r.Listed i) : Apart r old (w.prune parent i) :=
  h.attach hparent (List.Subset.refl _) (fun _ => Or.inl) fun _ hj heq =>
    absurd heq.symm (hi.prunedId_ne_nodeId hplain hj)

theorem Apart.enter (h : Apart r old w) (hparent : parent ∈ w.builder.ids)
    (hv : i.nodeId ∉ w.visited) : Apart r old (w.enter parent i) :=
  h.attach hparent (List.subset_cons_self _ _) (fun _ => Or.inl) fun _ _ _ =>
    ⟨hv, List.mem_cons_self⟩

theorem Apart.expand (h : Apart r old w) (hw : Coherent r w) (hparent : parent ∈ w.builder.ids)
    (hv : i.nodeId ∉ w.visited) (he : i.nodeId ∉ w.expanded) : Apart r old (w.expand parent i) := by
  refine h.attach hparent (List.subset_cons_self _ _) (fun x hx => ?_) fun _ _ _ =>
    ⟨hv, List.mem_cons_self⟩
  rcases List.mem_cons.mp hx with rfl | hx
  · exact Or.inr (hw.childrenOf_item he)
  · exact Or.inl hx

theorem Descends.apart (h : Descends r parent names w w') (hplain : r.NamesPlain)
    (hw : Coherent r w) (ho : w.Open parent) (hn : LeadToNeeded r names) (ha : Apart r old w) :
    Apart r old w' := by
  induction h with
  | done => exact ha
  | unknown _ _ ih => exact ih hw ho hn.tail ha
  | prune hi hv _ ih =>
    refine ih (hw.prune ho (hn.head hi) hv) ho hn.tail ?_
    exact ha.prune hplain (hw.open_known ho) (listed_of_item? hi)
  | enter hi hv he _ ih =>
    exact ih (hw.enter ho (hn.head hi) he) ho hn.tail (ha.enter (hw.open_known ho) hv)
  | expand hi hv he below _ ihb ihr =>
    have hneed := hn.head hi
    obtain ⟨hw₁, ho₁⟩ := below.coherent_above hw ho hneed
    refine ihr hw₁ ho₁ hn.tail ?_
    exact ihb (hw.expand ho hneed) open_expand (leadToNeeded_dependencyNames hneed)
      (ha.expand hw (hw.open_known ho) hv he)

/-- At the beginning of a round nothing has been expanded in it. -/
theorem apart_forget (r : Report) (w : Walk) : Apart r w.expanded { w with visited := [] } where
  visited := fun _ _ h => absurd h.expanded h.new
  eq_of_child := fun _ _ _ h _ => absurd h.expanded h.new

/-! ## Rounds before and after others -/

theorem rounds_append : Rounds r (before ++ after) w w' ↔
    ∃ w₁, Rounds r before w w₁ ∧ Rounds r after w₁ w' := by
  induction before generalizing w with
  | nil =>
    constructor
    · exact fun h => ⟨w, .done w, h⟩
    · rintro ⟨_, hbefore, hafter⟩
      cases hbefore
      exact hafter
  | cons name before ih =>
    constructor
    · intro h
      cases h with
      | next round rest =>
        obtain ⟨w₁, hbefore, hafter⟩ := ih.mp rest
        exact ⟨w₁, .next round hbefore, hafter⟩
    · rintro ⟨w₁, hbefore, hafter⟩
      cases hbefore with
      | next round rest => exact .next round (ih.mpr ⟨w₁, rest, hafter⟩)

end Walk
end ManifestGraph.Pip
