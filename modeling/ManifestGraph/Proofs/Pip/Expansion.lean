/-
  Which children the walk adds. A node gets one child for each name it is asked to meet and knows
  (`Descends.childrenOf_parent`), every other node keeps its children unless it is expanded meanwhile
  (`Descends.childrenOf_of_ne`), and a node that is expanded gets the children for all its requirements
  (`Descends.childrenOf_expanded`). Below the root the walk starts afresh each time, so no child of the
  root is pruned (`Rounds.childrenOf_root`).
-/
import ManifestGraph.Proofs.Pip.Coherence

namespace ManifestGraph.Pip

open GraphBuilder (rootId childrenOf_attach)

/-- The names that can be looked up. -/
def Report.known (r : Report) (names : List Text) : List Text :=
  names.filter fun name => (r.last? (normalName name)).isSome

/-- The child is the node or the pruned leaf of the item that the name is looked up to. -/
def Report.Leads (r : Report) (name child : Text) : Prop :=
  ∃ i, r.last? (normalName name) = some i ∧ (child = i.nodeId ∨ child = i.prunedId)

variable {r : Report} {parent name x : Text} {names : List Text} {w w₁ w' : Walk} {i : Item}

theorem known_cons_of_some (hi : r.item? name = some i) :
    r.known (name :: names) = name :: r.known names := by
  rw [Report.known, List.filter_cons_of_pos (by rw [← item?_eq_last?, hi]; rfl)]
  rfl

theorem known_cons_of_none (hi : r.item? name = none) : r.known (name :: names) = r.known names := by
  rw [Report.known, List.filter_cons_of_neg (by rw [← item?_eq_last?, hi]; simp)]
  rfl

namespace Walk

/-! ## One descent -/

/-- Only the parent and nodes that are expanded meanwhile get children. -/
theorem Descends.childrenOf_of_ne (h : Descends r parent names w w') (hw : Coherent r w)
    (ho : w.Open parent) (hn : LeadToNeeded r names) (hx : x ≠ parent)
    (hx' : x ∈ w.expanded ∨ x ∉ w'.expanded) :
    w'.builder.childrenOf x = w.builder.childrenOf x := by
  induction h with
  | done => rfl
  | unknown _ _ ih => exact ih hw ho hn.tail hx hx'
  | prune hi hv _ ih =>
    rw [ih (hw.prune ho (hn.head hi) hv) ho hn.tail hx hx', builder_prune,
      childrenOf_attach (hw.open_known ho), if_neg hx]
  | enter hi _ he _ ih =>
    rw [ih (hw.enter ho (hn.head hi) he) ho hn.tail hx hx', builder_enter,
      childrenOf_attach (hw.open_known ho), if_neg hx]
  | @expand parent name names w w₁ w' i hi _ he below rest ihb ihr =>
    have hneed := hn.head hi
    have hsub : w.expanded ⊆ w₁.expanded :=
      List.Subset.trans (List.subset_cons_self _ _) below.expanded_subset
    have hi₁ : i.nodeId ∈ w₁.expanded := below.expanded_subset List.mem_cons_self
    have hxi : x ≠ i.nodeId := by
      rintro rfl
      exact hx'.elim he fun h => h (rest.expanded_subset hi₁)
    obtain ⟨hw₁, ho₁⟩ := below.coherent_above hw ho hneed
    have hr := ihr hw₁ ho₁ hn.tail hx (hx'.imp_left fun h => hsub h)
    have hb := ihb (hw.expand ho hneed) open_expand (leadToNeeded_dependencyNames hneed) hxi
      (hx'.imp (List.mem_cons_of_mem _) fun h hx₁ => h (rest.expanded_subset hx₁))
    rw [hr, hb, builder_expand, childrenOf_attach (hw.open_known ho), if_neg hx]

/-- What lies below an item does not touch the node above it. -/
theorem Descends.childrenOf_above
    (below : Descends r i.nodeId i.dependencyNames (w.expand parent i) w₁)
    (hw : Coherent r w) (ho : w.Open parent) (hi : r.Needed i) (he : i.nodeId ∉ w.expanded) :
    w₁.builder.childrenOf parent = w.builder.childrenOf parent ++ [i.nodeId] := by
  have hne : parent ≠ i.nodeId := by
    rintro rfl
    exact ho.elim i.nodeId_ne_rootId he
  have hkeep : parent ∈ (w.expand parent i).expanded ∨ parent ∉ w₁.expanded := by
    rcases ho with rfl | hp
    · exact Or.inr (below.coherent_above hw (Or.inl rfl) hi).1.rootId_not_mem_expanded
    · exact Or.inl (List.mem_cons_of_mem _ hp)
  rw [below.childrenOf_of_ne (hw.expand ho hi) open_expand (leadToNeeded_dependencyNames hi) hne hkeep,
    builder_expand, childrenOf_attach (hw.open_known ho), if_pos rfl]

/-- The parent gets one child for each known name, in their order. -/
theorem Descends.childrenOf_parent (h : Descends r parent names w w') (hw : Coherent r w)
    (ho : w.Open parent) (hn : LeadToNeeded r names) :
    ∃ added, w'.builder.childrenOf parent = w.builder.childrenOf parent ++ added ∧
      List.Forall₂ r.Leads (r.known names) added := by
  induction h with
  | done => exact ⟨[], (List.append_nil _).symm, .nil⟩
  | unknown hi _ ih =>
    rw [known_cons_of_none hi]
    exact ih hw ho hn.tail
  | @prune parent name names w w' i hi hv _ ih =>
    obtain ⟨added, hadd, hlead⟩ := ih (hw.prune ho (hn.head hi) hv) ho hn.tail
    rw [builder_prune, childrenOf_attach (hw.open_known ho), if_pos rfl, List.append_assoc] at hadd
    rw [known_cons_of_some hi]
    exact ⟨i.prunedId :: added, hadd, .cons ⟨i, hi, Or.inr rfl⟩ hlead⟩
  | @enter parent name names w w' i hi _ he _ ih =>
    obtain ⟨added, hadd, hlead⟩ := ih (hw.enter ho (hn.head hi) he) ho hn.tail
    rw [builder_enter, childrenOf_attach (hw.open_known ho), if_pos rfl, List.append_assoc] at hadd
    rw [known_cons_of_some hi]
    exact ⟨i.nodeId :: added, hadd, .cons ⟨i, hi, Or.inl rfl⟩ hlead⟩
  | @expand parent name names w w₁ w' i hi _ he below _ _ ihr =>
    have hneed := hn.head hi
    obtain ⟨hw₁, ho₁⟩ := below.coherent_above hw ho hneed
    obtain ⟨added, hadd, hlead⟩ := ihr hw₁ ho₁ hn.tail
    rw [below.childrenOf_above hw ho hneed he, List.append_assoc] at hadd
    rw [known_cons_of_some hi]
    exact ⟨i.nodeId :: added, hadd, .cons ⟨i, hi, Or.inl rfl⟩ hlead⟩

/-- A node that has not been expanded has no children yet. -/
theorem Coherent.childrenOf_item (hw : Coherent r w) (he : i.nodeId ∉ w.expanded) :
    w.builder.childrenOf i.nodeId = [] := by
  by_contra hne
  exact (hw.parent_open _ hne).elim i.nodeId_ne_rootId he

/-- A node that is expanded meanwhile gets the children for all that its item requires. -/
theorem Descends.childrenOf_expanded (h : Descends r parent names w w') (hplain : r.NamesPlain)
    (hw : Coherent r w) (ho : w.Open parent) (hn : LeadToNeeded r names) {k : Item}
    (hk : r.Listed k) (hk' : k.nodeId ∈ w'.expanded) (hkw : k.nodeId ∉ w.expanded) :
    List.Forall₂ r.Leads (r.known k.dependencyNames) (w'.builder.childrenOf k.nodeId) := by
  induction h with
  | done => exact absurd hk' hkw
  | unknown _ _ ih => exact ih hw ho hn.tail hk' hkw
  | prune hi hv _ ih => exact ih (hw.prune ho (hn.head hi) hv) ho hn.tail hk' hkw
  | enter hi _ he _ ih => exact ih (hw.enter ho (hn.head hi) he) ho hn.tail hk' hkw
  | @expand parent name names w w₁ w' i hi _ he below rest ihb ihr =>
    have hneed := hn.head hi
    have hwe := hw.expand ho hneed
    have hin := leadToNeeded_dependencyNames hneed
    obtain ⟨hw₁, ho₁⟩ := below.coherent_above hw ho hneed
    by_cases hk₁ : k.nodeId ∈ w₁.expanded
    · have hne : k.nodeId ≠ parent := by
        rintro rfl
        exact ho.elim k.nodeId_ne_rootId hkw
      rw [rest.childrenOf_of_ne hw₁ ho₁ hn.tail hne (Or.inl hk₁)]
      by_cases hki : k.nodeId = i.nodeId
      · -- the item that this step expands: it starts without children
        obtain rfl := hk.eq_of_nodeId_eq hplain hneed.listed hki
        obtain ⟨added, hadd, hlead⟩ := below.childrenOf_parent hwe open_expand hin
        rw [builder_expand, childrenOf_attach (hw.open_known ho), if_neg hne,
          hw.childrenOf_item he, List.nil_append] at hadd
        rwa [hadd]
      · refine ihb hwe open_expand hin hk₁ fun hmem => ?_
        exact (List.mem_cons.mp hmem).elim hki hkw
    · exact ihr hw₁ ho₁ hn.tail hk' hk₁

/-! ## All rounds -/

theorem LeadToNeeded.singleton (h : LeadToNeeded r (name :: names)) : LeadToNeeded r [name] := by
  intro n hn
  rw [List.mem_singleton.mp hn]
  exact h name List.mem_cons_self

/-- With nothing visited the root gets the node of the one name that is met. -/
theorem Descends.childrenOf_root (h : Descends r rootId [name] { w with visited := [] } w')
    (hw : Coherent r w) (hn : LeadToNeeded r [name]) (hi : r.item? name = some i) :
    w'.builder.childrenOf rootId = w.builder.childrenOf rootId ++ [i.nodeId] := by
  have hwf := hw.forget
  have ho : ({ w with visited := [] } : Walk).Open rootId := Or.inl rfl
  cases h with
  | unknown hi' _ => rw [hi] at hi'; cases hi'
  | prune _ hv _ => exact absurd hv List.not_mem_nil
  | enter hi' _ _ rest =>
    rw [hi] at hi'
    cases hi'
    cases rest
    rw [builder_enter, childrenOf_attach (hwf.open_known ho), if_pos rfl]
  | expand hi' _ he below rest =>
    rw [hi] at hi'
    cases hi'
    cases rest
    exact below.childrenOf_above hwf ho (hn.head hi) he

/-- The root gets the nodes of the direct dependencies, in their order. -/
theorem Rounds.childrenOf_root (h : Rounds r names w w') (hw : Coherent r w)
    (hn : LeadToNeeded r names) (hknown : ∀ name ∈ names, ∃ i, r.item? name = some i) :
    ∃ added, w'.builder.childrenOf rootId = w.builder.childrenOf rootId ++ added ∧
      List.Forall₂ (fun name child => ∃ i, r.item? name = some i ∧ child = i.nodeId) names added := by
  induction h with
  | done => exact ⟨[], (List.append_nil _).symm, .nil⟩
  | @next name names w w₁ w' round _ ih =>
    obtain ⟨i, hi⟩ := hknown name List.mem_cons_self
    have hw₁ := round.coherent hw.forget (Or.inl rfl) hn.singleton
    obtain ⟨added, hadd, hlead⟩ := ih hw₁ hn.tail fun n hmem => hknown n (List.mem_cons_of_mem _ hmem)
    rw [round.childrenOf_root hw hn.singleton hi, List.append_assoc] at hadd
    exact ⟨i.nodeId :: added, hadd, .cons ⟨i, hi, rfl⟩ hlead⟩

/-- Rounds keep what expanded nodes have. -/
theorem Rounds.childrenOf_of_mem (h : Rounds r names w w') (hw : Coherent r w)
    (hn : LeadToNeeded r names) (hx : x ∈ w.expanded) :
    w'.builder.childrenOf x = w.builder.childrenOf x := by
  induction h with
  | done => rfl
  | @next name names w w₁ w' round _ ih =>
    have hne : x ≠ rootId := by
      rintro rfl
      exact hw.rootId_not_mem_expanded hx
    have hw₁ := round.coherent hw.forget (Or.inl rfl) hn.singleton
    rw [ih hw₁ hn.tail (round.expanded_subset hx),
      round.childrenOf_of_ne hw.forget (Or.inl rfl) hn.singleton hne (Or.inl hx)]

/-- A node that is expanded in some round has the children for all that its item requires. -/
theorem Rounds.childrenOf_expanded (h : Rounds r names w w') (hplain : r.NamesPlain)
    (hw : Coherent r w) (hn : LeadToNeeded r names) (hi : r.Listed i)
    (hi' : i.nodeId ∈ w'.expanded) (hiw : i.nodeId ∉ w.expanded) :
    List.Forall₂ r.Leads (r.known i.dependencyNames) (w'.builder.childrenOf i.nodeId) := by
  induction h with
  | done => exact absurd hi' hiw
  | @next name names w w₁ w' round rest ih =>
    have hw₁ := round.coherent hw.forget (Or.inl rfl) hn.singleton
    by_cases hi₁ : i.nodeId ∈ w₁.expanded
    · rw [rest.childrenOf_of_mem hw₁ hn.tail hi₁]
      exact round.childrenOf_expanded hplain hw.forget (Or.inl rfl) hn.singleton hi hi₁ hiw
    · exact ih hw₁ hn.tail hi' hi₁

end Walk
end ManifestGraph.Pip
