/-
  The graph of a report has no cycle, whatever the packages require of each other. The order that
  shows it is the one in which expansions end: whatever a walk has expanded but not visited in the
  present round is complete, and a node that is complete has only complete nodes and pruned leaves
  below it (`Descends.complete`). So no way leads down forever (`Finished.wellFounded`).
-/
import ManifestGraph.Proofs.Pip.Reachable
import Mathlib.Order.WellFounded

namespace ManifestGraph.Pip

open GraphBuilder (rootId childrenOf_attach)

/-! ## An order of completion -/

/-- Every node has, as children, only leaves and nodes that come after it. -/
def Descending (children : Text → List Text) (Leaf : Text → Prop) : List Text → Prop
  | [] => True
  | a :: ids => (∀ c ∈ children a, c ∈ ids ∨ Leaf c) ∧ Descending children Leaf ids

section Descending

variable {children children' : Text → List Text} {Leaf : Text → Prop} {ids : List Text} {a : Text}

theorem Descending.congr (h : Descending children Leaf ids)
    (hsame : ∀ a ∈ ids, children' a = children a) : Descending children' Leaf ids := by
  induction ids with
  | nil => trivial
  | cons a ids ih =>
    refine ⟨?_, ih h.2 fun b hb => hsame b (List.mem_cons_of_mem _ hb)⟩
    rw [hsame a List.mem_cons_self]
    exact h.1

theorem acc_of_childless (h : children a = []) : Acc (fun c a => c ∈ children a) a := by
  refine ⟨a, fun c hc => ?_⟩
  rw [h] at hc
  exact absurd hc List.not_mem_nil

/-- No way leads down forever from a node in the list. -/
theorem Descending.acc (h : Descending children Leaf ids) (hleaf : ∀ c, Leaf c → children c = [])
    (ha : a ∈ ids) : Acc (fun c a => c ∈ children a) a := by
  induction ids generalizing a with
  | nil => exact absurd ha List.not_mem_nil
  | cons b ids ih =>
    rcases List.mem_cons.mp ha with rfl | ha
    · refine ⟨a, fun c hc => ?_⟩
      rcases h.1 c hc with hc | hc
      · exact ih h.2 hc
      · exact acc_of_childless (hleaf c hc)
    · exact ih h.2 ha

end Descending

variable {r : Report} {parent name id : Text} {names closed closed' : List Text} {w w₁ w' : Walk}
  {i : Item}

/-- The id of a pruned leaf. -/
def Report.IsPrunedId (r : Report) (id : Text) : Prop := ∃ i, r.Needed i ∧ id = i.prunedId

namespace Walk

/-- Nodes whose expansion is complete, the last one first. Expanded nodes that are not among them have
been visited in the present round. -/
structure Completes (r : Report) (w : Walk) (closed : List Text) : Prop where
  descending : Descending w.builder.childrenOf r.IsPrunedId closed
  expanded : closed ⊆ w.expanded
  unvisited : ∀ id ∈ w.expanded, id ∉ w.visited → id ∈ closed

/-- Children that are given to a node that is not complete leave the others complete. -/
theorem Completes.attach {p : PackageInfo} {info : Option NodeInfo} {visited expanded : List Text}
    (h : Completes r w closed) (hparent : parent ∈ w.builder.ids) (hne : parent ∉ closed)
    (hsub : w.expanded ⊆ expanded) (hnew : ∀ x ∈ expanded, x ∉ visited → x ∈ w.expanded ∧ x ∉ w.visited) :
    Completes r ⟨w.builder.attach parent id p info, visited, expanded⟩ closed where
  descending := by
    refine h.descending.congr fun a ha => ?_
    rw [childrenOf_attach hparent, if_neg]
    rintro rfl
    exact hne ha
  expanded := List.Subset.trans h.expanded hsub
  unvisited := fun x hx hv => h.unvisited x (hnew x hx hv).1 (hnew x hx hv).2

theorem Completes.prune (h : Completes r w closed) (hparent : parent ∈ w.builder.ids)
    (hne : parent ∉ closed) : Completes r (w.prune parent i) closed :=
  h.attach hparent hne (List.Subset.refl _) fun _ hx hv => ⟨hx, hv⟩

theorem Completes.enter (h : Completes r w closed) (hparent : parent ∈ w.builder.ids)
    (hne : parent ∉ closed) : Completes r (w.enter parent i) closed :=
  h.attach hparent hne (List.Subset.refl _) fun _ hx hv => ⟨hx, List.not_mem_of_not_mem_cons hv⟩

theorem Completes.expand (h : Completes r w closed) (hparent : parent ∈ w.builder.ids)
    (hne : parent ∉ closed) : Completes r (w.expand parent i) closed := by
  refine h.attach hparent hne (List.subset_cons_self _ _) fun x hx hv => ?_
  have hxi : x ≠ i.nodeId := List.ne_of_not_mem_cons hv
  exact ⟨(List.mem_cons.mp hx).resolve_left hxi, List.not_mem_of_not_mem_cons hv⟩

/-- What a descent completes: the nodes that it expands. The children that it gives to the node above
are complete or pruned. -/
structure Completed (r : Report) (parent : Text) (w w' : Walk) (closed closed' : List Text) :
    Prop where
  completes : Completes r w' closed'
  mem_iff : ∀ id, id ∈ closed' ↔ id ∈ closed ∨ id ∈ w'.expanded ∧ id ∉ w.expanded
  children : ∀ c ∈ w'.builder.childrenOf parent,
    c ∈ w.builder.childrenOf parent ∨ c ∈ closed' ∨ r.IsPrunedId c

/-- A node whose children are all complete is the next one that is. -/
theorem Completes.cons (h : Completes r w closed) (hid : id ∈ w.expanded)
    (hchildren : ∀ c ∈ w.builder.childrenOf id, c ∈ closed ∨ r.IsPrunedId c) :
    Completes r w (id :: closed) where
  descending := ⟨hchildren, h.descending⟩
  expanded := List.cons_subset.mpr ⟨hid, h.expanded⟩
  unvisited := fun x hx hv => List.mem_cons_of_mem _ (h.unvisited x hx hv)

/-- The node above had one more child, which was complete or pruned. -/
theorem Completed.children_of_append (h : Completed r parent w₁ w' closed closed')
    (happend : w₁.builder.childrenOf parent = w.builder.childrenOf parent ++ [id])
    (hid : id ∈ closed ∨ r.IsPrunedId id) :
    ∀ c ∈ w'.builder.childrenOf parent,
      c ∈ w.builder.childrenOf parent ∨ c ∈ closed' ∨ r.IsPrunedId c := by
  intro c hc
  rcases h.children c hc with hold | hnew
  · rw [happend, List.mem_append, List.mem_singleton] at hold
    refine hold.imp_right fun hcid => ?_
    rw [hcid]
    exact hid.imp_left fun hmem => (h.mem_iff id).mpr (Or.inl hmem)
  · exact Or.inr hnew

theorem Descends.complete (h : Descends r parent names w w') (hw : Coherent r w)
    (ho : w.Open parent) (hn : LeadToNeeded r names) (hc : Completes r w closed)
    (hne : parent ∉ closed) : ∃ closed', Completed r parent w w' closed closed' := by
  induction h generalizing closed with
  | done => exact ⟨closed, hc, fun id => by simp, fun _ => Or.inl⟩
  | unknown _ _ ih => exact ih hw ho hn.tail hc hne
  | @prune parent name names w w' i hi hv _ ih =>
    have hparent := hw.open_known ho
    obtain ⟨closed', hclosed'⟩ :=
      ih (hw.prune ho (hn.head hi) hv) ho hn.tail (hc.prune hparent hne) hne
    refine ⟨closed', hclosed'.completes, hclosed'.mem_iff, hclosed'.children_of_append ?_
      (Or.inr ⟨i, hn.head hi, rfl⟩)⟩
    rw [builder_prune, childrenOf_attach hparent, if_pos rfl]
  | @enter parent name names w w' i hi hv he _ ih =>
    have hparent := hw.open_known ho
    obtain ⟨closed', hclosed'⟩ :=
      ih (hw.enter ho (hn.head hi) he) ho hn.tail (hc.enter hparent hne) hne
    -- expanded but not visited in this round: it was completed in an earlier one
    refine ⟨closed', hclosed'.completes, hclosed'.mem_iff, hclosed'.children_of_append ?_
      (Or.inl (hc.unvisited _ he hv))⟩
    rw [builder_enter, childrenOf_attach hparent, if_pos rfl]
  | @expand parent name names w w₁ w' i hi hv he below rest ihb ihr =>
    have hparent := hw.open_known ho
    have hneed := hn.head hi
    obtain ⟨hw₁, ho₁⟩ := below.coherent_above hw ho hneed
    have hpi : parent ≠ i.nodeId := by
      rintro rfl
      exact ho.elim i.nodeId_ne_rootId he
    have hsub := below.expanded_subset
    have hsub' := rest.expanded_subset
    obtain ⟨closed₁, hclosed₁⟩ := ihb (hw.expand ho hneed) open_expand
      (leadToNeeded_dependencyNames hneed) (hc.expand hparent hne) fun hmem => he (hc.expanded hmem)
    -- below the item everything is complete, so the item itself is the next to be complete
    have hc₂ : Completes r w₁ (i.nodeId :: closed₁) := by
      refine hclosed₁.completes.cons (hsub List.mem_cons_self) fun c hcc => ?_
      refine (hclosed₁.children c hcc).resolve_left fun hold => ?_
      rw [builder_expand, childrenOf_attach hparent, if_neg hpi.symm, hw.childrenOf_item he] at hold
      exact absurd hold List.not_mem_nil
    have hne₂ : parent ∉ i.nodeId :: closed₁ := by
      rw [List.mem_cons, hclosed₁.mem_iff]
      rintro (h | h | ⟨h₁, h₂⟩)
      · exact hpi h
      · exact hne h
      · rcases ho with rfl | hp
        · exact hw₁.rootId_not_mem_expanded h₁
        · exact h₂ (List.mem_cons_of_mem _ hp)
    obtain ⟨closed', hclosed'⟩ := ihr hw₁ ho₁ hn.tail hc₂ hne₂
    refine ⟨closed', hclosed'.completes, fun x => ?_, hclosed'.children_of_append
      (below.childrenOf_above hw ho hneed he) (Or.inl List.mem_cons_self)⟩
    rw [hclosed'.mem_iff, List.mem_cons, hclosed₁.mem_iff, expanded_expand, List.mem_cons]
    have h₁ : x ∈ w₁.expanded → x ∈ w'.expanded := fun hx => hsub' hx
    have h₂ : x ∈ w.expanded → x ∈ w₁.expanded := fun hx => hsub (List.mem_cons_of_mem _ hx)
    have h₃ : x = i.nodeId → x ∈ w₁.expanded ∧ x ∉ w.expanded := by
      rintro rfl
      exact ⟨hsub List.mem_cons_self, he⟩
    grind

/-- After some rounds all that is expanded is complete, and so is what the root leads to. -/
theorem Rounds.complete (h : Rounds r names w w') (hw : Coherent r w) (hn : LeadToNeeded r names)
    (hc : Completes r { w with visited := [] } closed)
    (hroot : ∀ c ∈ w.builder.childrenOf rootId, c ∈ closed ∨ r.IsPrunedId c) :
    ∃ closed', Descending w'.builder.childrenOf r.IsPrunedId closed' ∧
      w'.expanded ⊆ closed' ∧
      ∀ c ∈ w'.builder.childrenOf rootId, c ∈ closed' ∨ r.IsPrunedId c := by
  induction h generalizing closed with
  | done w => exact ⟨closed, hc.descending, fun x hx => hc.unvisited x hx List.not_mem_nil, hroot⟩
  | @next name names w w₁ w' round _ ih =>
    have hne : rootId ∉ closed := fun hmem => hw.rootId_not_mem_expanded (hc.expanded hmem)
    obtain ⟨closed₁, hc₁, hmem₁, hchildren₁⟩ :=
      round.complete hw.forget (Or.inl rfl) hn.singleton hc hne
    have hw₁ := round.coherent hw.forget (Or.inl rfl) hn.singleton
    refine ih hw₁ hn.tail ⟨hc₁.descending, hc₁.expanded, fun x hx _ => ?_⟩ fun c hcc => ?_
    · rw [hmem₁]
      by_cases hxw : x ∈ w.expanded
      · exact Or.inl (hc.unvisited x hxw List.not_mem_nil)
      · exact Or.inr ⟨hx, hxw⟩
    · rcases hchildren₁ c hcc with hcc | hcc
      · exact (hroot c hcc).imp_left fun hcc => (hmem₁ c).mpr (Or.inl hcc)
      · exact hcc

/-! ## The shape of the graph -/

/-- A pruned leaf has no children. -/
theorem Finished.childrenOf_prunedId (hw : Finished r w) (hplain : r.NamesPlain) (hi : r.Listed i) :
    w.builder.childrenOf i.prunedId = [] := by
  by_contra hne
  rcases hw.coherent.parent_open _ hne with hroot | he
  · exact i.prunedId_ne_rootId hroot
  · obtain ⟨k, hk, hid⟩ := hw.coherent.expanded_needed _ he
    exact hi.prunedId_ne_nodeId hplain hk.listed hid

/-- No way leads down forever from any node. -/
theorem Finished.wellFounded (hw : Finished r w) (hplain : r.NamesPlain) {manager : Text}
    (h : Rounds r r.directNames (Walk.start manager) w) :
    WellFounded fun c a => c ∈ w.builder.childrenOf a := by
  have hroot : ∀ c ∈ (Walk.start manager).builder.childrenOf rootId, c ∈ [] ∨ r.IsPrunedId c := by
    rw [childrenOf_start]
    exact fun c hc => absurd hc List.not_mem_nil
  have hstart : Completes r { Walk.start manager with visited := [] } [] :=
    ⟨by rw [Descending]; trivial, List.nil_subset _, fun _ hx => absurd hx List.not_mem_nil⟩
  obtain ⟨closed, hdesc, hexpanded, hroot⟩ := h.complete (.start r manager)
    (leadToNeeded_directNames r) hstart hroot
  have hleaf : ∀ c, r.IsPrunedId c → w.builder.childrenOf c = [] := by
    rintro c ⟨i, hi, rfl⟩
    exact hw.childrenOf_prunedId hplain hi.listed
  refine ⟨fun a => ?_⟩
  by_cases ha : w.builder.childrenOf a = []
  · exact acc_of_childless ha
  · rcases hw.coherent.parent_open a ha with rfl | he
    · refine ⟨_, fun c hc => ?_⟩
      rcases hroot c hc with hc | hc
      · exact hdesc.acc hleaf hc
      · exact acc_of_childless (hleaf c hc)
    · exact hdesc.acc hleaf (hexpanded he)

end Walk
end ManifestGraph.Pip
