/-
  What every step of the walk keeps. A walk is coherent (`Coherent`) if its graph is sound, each node is
  the root, the node of a needed item, or a pruned leaf of one that has its node, only the root and
  expanded nodes have children, and the root leads everywhere. Each of the three steps keeps that, and
  so does the whole walk (`Rounds.coherent`).
-/
import ManifestGraph.Proofs.Graph.Builder
import ManifestGraph.Proofs.Pip.Descent
import Mathlib.Logic.Relation

namespace ManifestGraph.Pip

open GraphBuilder (rootId)

/-- What the direct dependencies lead to: the items that are looked up by the name of a requested
item, and those looked up by what such items require. -/
inductive Report.Needed (r : Report) : Item → Prop where
  | direct {i j : Item} (hj : j ∈ r.items) (hreq : j.requested = true)
      (hi : r.last? j.key = some i) : Needed r i
  | required {i j : Item} {name : Text} (hi : Needed r i) (hname : name ∈ i.dependencyNames)
      (hj : r.last? (normalName name) = some j) : Needed r j

theorem Report.Needed.listed {r : Report} {i : Item} (h : r.Needed i) : r.Listed i := by
  cases h with
  | direct _ _ hi => exact listed_of_last? hi
  | required _ _ hj => exact listed_of_last? hj

namespace Walk

/-- The root package. -/
def rootPackage : PackageInfo := { name := rootName, version := some rootVersion }

/-- What a pruned leaf says of itself. -/
def prunedInfo : NodeInfo := { labels := some [(prunedLabel, "true")] }

variable {r : Report} {parent name id : Text} {names : List Text} {w w₁ w' : Walk} {i : Item}

theorem builder_prune :
    (w.prune parent i).builder =
      w.builder.attach parent i.prunedId i.package (some prunedInfo) := rfl

theorem builder_enter :
    (w.enter parent i).builder = w.builder.attach parent i.nodeId i.package := rfl

theorem builder_expand :
    (w.expand parent i).builder = w.builder.attach parent i.nodeId i.package := rfl

/-! ## The invariant -/

/-- What a node of the walk is. -/
inductive Kind (r : Report) (w : Walk) (n : Node) : Prop where
  | root (hid : n.id = rootId) (hpackage : n.package = rootPackage.id) (hinfo : n.info = none)
  | item (i : Item) (hi : r.Needed i) (he : i.nodeId ∈ w.expanded) (hid : n.id = i.nodeId)
      (hpackage : n.package = i.nodeId) (hinfo : n.info = none)
  | pruned (i : Item) (hi : r.Needed i) (he : i.nodeId ∈ w.expanded) (hid : n.id = i.prunedId)
      (hpackage : n.package = i.nodeId) (hinfo : n.info = some prunedInfo)

/-- A node that may be given children. -/
def Open (w : Walk) (id : Text) : Prop := id = rootId ∨ id ∈ w.expanded

/-- What holds between the steps of a walk. -/
structure Coherent (r : Report) (w : Walk) : Prop where
  sound : w.builder.Sound
  kind : ∀ n ∈ w.builder.nodes, Kind r w n
  package_info : ∀ p ∈ w.builder.packages, p.info = rootPackage ∨ ∃ i, r.Needed i ∧ p.info = i.package
  expanded_known : ∀ id ∈ w.expanded, id ∈ w.builder.ids
  expanded_needed : ∀ id ∈ w.expanded, ∃ i, r.Needed i ∧ id = i.nodeId
  visited_expanded : ∀ id ∈ w.visited, id ∈ w.expanded
  parent_open : ∀ id, w.builder.childrenOf id ≠ [] → w.Open id
  child_ne_root : ∀ id, rootId ∉ w.builder.childrenOf id
  reached : ∀ id ∈ w.builder.ids,
    Relation.ReflTransGen (fun a b => b ∈ w.builder.childrenOf a) rootId id

theorem Kind.mono (h : w.expanded ⊆ w'.expanded) {n m : Node} (hid : n.id = m.id)
    (hpackage : n.package = m.package) (hinfo : n.info = m.info) (hm : Kind r w m) :
    Kind r w' n := by
  cases hm with
  | root h1 h2 h3 => exact .root (hid.trans h1) (hpackage.trans h2) (hinfo.trans h3)
  | item i hi he h1 h2 h3 =>
    exact .item i hi (h he) (hid.trans h1) (hpackage.trans h2) (hinfo.trans h3)
  | pruned i hi he h1 h2 h3 =>
    exact .pruned i hi (h he) (hid.trans h1) (hpackage.trans h2) (hinfo.trans h3)

theorem Open.mono (h : w.expanded ⊆ w'.expanded) (ho : w.Open id) : w'.Open id :=
  ho.imp_right fun he => h he

theorem open_expand : (w.expand parent i).Open i.nodeId := Or.inr List.mem_cons_self

namespace Coherent

theorem start (r : Report) (manager : Text) : Coherent r (Walk.start manager) where
  sound := GraphBuilder.sound_start _ _
  kind := by
    intro n hn
    simp only [Walk.start, GraphBuilder.start, GraphBuilder.add, GraphBuilder.hasNode,
      List.any_nil, Bool.false_eq_true, if_false, List.nil_append, List.mem_singleton] at hn
    subst hn
    exact .root rfl rfl rfl
  package_info := by
    intro p hp
    simp only [Walk.start, GraphBuilder.start, GraphBuilder.add, GraphBuilder.hasNode,
      List.any_nil, Bool.false_eq_true, if_false, List.nil_append, List.mem_singleton] at hp
    subst hp
    exact Or.inl rfl
  expanded_known := fun _ h => absurd h List.not_mem_nil
  expanded_needed := fun _ h => absurd h List.not_mem_nil
  visited_expanded := fun _ h => absurd h List.not_mem_nil
  parent_open := by
    intro id h
    simp only [Walk.start, GraphBuilder.start, GraphBuilder.childrenOf_add] at h
    exact absurd rfl h
  child_ne_root := by
    intro id h
    simp only [Walk.start, GraphBuilder.start, GraphBuilder.childrenOf_add] at h
    exact absurd h List.not_mem_nil
  reached := by
    intro id h
    simp only [Walk.start, GraphBuilder.start, GraphBuilder.mem_ids_add] at h
    rcases h with rfl | h
    · exact .refl
    · exact absurd h List.not_mem_nil

theorem rootId_mem (h : Coherent r w) : rootId ∈ w.builder.ids := by
  have hroot := h.sound.root_first
  cases hn : w.builder.nodes with
  | nil => rw [hn] at hroot; cases hroot
  | cons n ns =>
    rw [hn, List.head?_cons, Option.map_some, Option.some.injEq, Prod.mk.injEq] at hroot
    rw [GraphBuilder.ids, hn, List.map_cons, hroot.1]
    exact List.mem_cons_self

theorem open_known (h : Coherent r w) (ho : w.Open id) : id ∈ w.builder.ids := by
  rcases ho with rfl | he
  · exact h.rootId_mem
  · exact h.expanded_known id he

theorem rootId_not_mem_expanded (h : Coherent r w) : rootId ∉ w.expanded := by
  intro hmem
  obtain ⟨i, _, hi⟩ := h.expanded_needed _ hmem
  exact i.nodeId_ne_rootId hi.symm

/-- After a node is attached below a known one, every node is reached if every node was. -/
theorem reached_attach {b : GraphBuilder} {p : PackageInfo} {info : Option NodeInfo}
    (hparent : parent ∈ b.ids)
    (h : ∀ x ∈ b.ids, Relation.ReflTransGen (fun a c => c ∈ b.childrenOf a) rootId x) :
    ∀ x ∈ (b.attach parent id p info).ids,
      Relation.ReflTransGen (fun a c => c ∈ (b.attach parent id p info).childrenOf a) rootId x := by
  have hold : ∀ x ∈ b.ids,
      Relation.ReflTransGen (fun a c => c ∈ (b.attach parent id p info).childrenOf a) rootId x := by
    intro x hx
    refine Relation.ReflTransGen.mono (fun a c hac => ?_) _ _ (h x hx)
    rw [GraphBuilder.childrenOf_attach hparent]
    split
    · exact List.mem_append_left _ hac
    · exact hac
  intro x hx
  rcases GraphBuilder.mem_ids_attach.mp hx with rfl | hx
  · refine (hold parent hparent).tail ?_
    rw [GraphBuilder.childrenOf_attach hparent, if_pos rfl]
    exact List.mem_append_right _ (List.mem_singleton_self x)
  · exact hold x hx

/-- One more node below an open one: the node of a needed item or its pruned leaf. -/
theorem attach {info : Option NodeInfo} {visited expanded : List Text} (h : Coherent r w)
    (ho : w.Open parent) (hi : r.Needed i)
    (hid : id = i.nodeId ∧ info = none ∨ id = i.prunedId ∧ info = some prunedInfo)
    (hexp : ∀ x, x ∈ expanded ↔ x ∈ w.expanded ∨ x = i.nodeId)
    (hnew : i.nodeId ∉ w.expanded → id = i.nodeId)
    (hvis : ∀ x ∈ visited, x ∈ w.visited ∨ x = i.nodeId) :
    Coherent r ⟨w.builder.attach parent id i.package info, visited, expanded⟩ := by
  have hparent := h.open_known ho
  have hsub : w.expanded ⊆ expanded := fun x hx => (hexp x).mpr (Or.inl hx)
  have hie : i.nodeId ∈ expanded := (hexp _).mpr (Or.inr rfl)
  have hidroot : id ≠ rootId := by
    rcases hid with ⟨rfl, _⟩ | ⟨rfl, _⟩
    · exact i.nodeId_ne_rootId
    · exact i.prunedId_ne_rootId
  constructor
  case sound => exact h.sound.attach
  case reached => exact reached_attach hparent h.reached
  case kind =>
    intro n hn
    rcases GraphBuilder.mem_nodes_attach hn with ⟨m, hm, h1, h2, h3⟩ | ⟨_, h1, h2, h3⟩
    · exact (h.kind m hm).mono hsub h1 h2 h3
    · rcases hid with ⟨rfl, rfl⟩ | ⟨rfl, rfl⟩
      · exact .item i hi hie h1 h2 h3
      · exact .pruned i hi hie h1 h2 h3
  case package_info =>
    intro p hp
    rcases GraphBuilder.mem_packages_attach hp with hp | hp
    · exact h.package_info p hp
    · exact Or.inr ⟨i, hi, hp⟩
  case expanded_known =>
    intro x hx
    rw [GraphBuilder.mem_ids_attach]
    rcases (hexp x).mp hx with hx | rfl
    · exact Or.inr (h.expanded_known x hx)
    · by_cases he : i.nodeId ∈ w.expanded
      · exact Or.inr (h.expanded_known _ he)
      · exact Or.inl (hnew he).symm
  case expanded_needed =>
    intro x hx
    rcases (hexp x).mp hx with hx | rfl
    · exact h.expanded_needed x hx
    · exact ⟨i, hi, rfl⟩
  case visited_expanded =>
    intro x hx
    rcases hvis x hx with hx | rfl
    · exact hsub (h.visited_expanded x hx)
    · exact hie
  case parent_open =>
    intro x hx
    rw [GraphBuilder.childrenOf_attach hparent] at hx
    split at hx
    next hxp => rw [hxp]; exact ho.mono hsub
    next => exact (h.parent_open x hx).mono hsub
  case child_ne_root =>
    intro x hx
    rw [GraphBuilder.childrenOf_attach hparent] at hx
    split at hx
    next =>
      rcases List.mem_append.mp hx with hx | hx
      · exact h.child_ne_root x hx
      · exact hidroot (List.mem_singleton.mp hx).symm
    next => exact h.child_ne_root x hx

theorem prune (h : Coherent r w) (ho : w.Open parent) (hi : r.Needed i) (hv : i.nodeId ∈ w.visited) :
    Coherent r (w.prune parent i) := by
  have he := h.visited_expanded _ hv
  refine h.attach ho hi (Or.inr ⟨rfl, rfl⟩) (fun x => ?_) (fun hne => absurd he hne) fun x hx => Or.inl hx
  constructor
  · exact Or.inl
  · rintro (hx | rfl)
    · exact hx
    · exact he

theorem enter (h : Coherent r w) (ho : w.Open parent) (hi : r.Needed i)
    (he : i.nodeId ∈ w.expanded) : Coherent r (w.enter parent i) := by
  refine h.attach ho hi (Or.inl ⟨rfl, rfl⟩) (fun x => ?_) (fun _ => rfl) fun x hx => ?_
  · constructor
    · exact Or.inl
    · rintro (hx | rfl)
      · exact hx
      · exact he
  · rw [or_comm]; exact List.mem_cons.mp hx

theorem expand (h : Coherent r w) (ho : w.Open parent) (hi : r.Needed i) :
    Coherent r (w.expand parent i) := by
  refine h.attach ho hi (Or.inl ⟨rfl, rfl⟩) (fun x => ?_) (fun _ => rfl) fun x hx => ?_
  · rw [or_comm]; exact List.mem_cons
  · rw [or_comm]; exact List.mem_cons.mp hx

/-- A new direct dependency starts with nothing visited. -/
theorem forget (h : Coherent r w) : Coherent r { w with visited := [] } where
  sound := h.sound
  kind := by
    intro n hn
    have hsub : w.expanded ⊆ ({ w with visited := [] } : Walk).expanded := List.Subset.refl _
    exact (h.kind n hn).mono hsub rfl rfl rfl
  package_info := h.package_info
  expanded_known := h.expanded_known
  expanded_needed := h.expanded_needed
  visited_expanded := fun _ hx => absurd hx List.not_mem_nil
  parent_open := h.parent_open
  child_ne_root := h.child_ne_root
  reached := h.reached

end Coherent

/-! ## The whole walk -/

/-- All items that some names lead to are needed. -/
def LeadToNeeded (r : Report) (names : List Text) : Prop :=
  ∀ name ∈ names, ∀ i, r.item? name = some i → r.Needed i

theorem LeadToNeeded.head (h : LeadToNeeded r (name :: names)) (hi : r.item? name = some i) :
    r.Needed i :=
  h name List.mem_cons_self i hi

theorem LeadToNeeded.tail (h : LeadToNeeded r (name :: names)) : LeadToNeeded r names :=
  fun n hn => h n (List.mem_cons_of_mem name hn)

theorem leadToNeeded_dependencyNames (hi : r.Needed i) : LeadToNeeded r i.dependencyNames :=
  fun _ hname _ hj => .required hi hname hj

theorem Descends.coherent (h : Descends r parent names w w') (hw : Coherent r w)
    (ho : w.Open parent) (hn : LeadToNeeded r names) : Coherent r w' := by
  induction h with
  | done => exact hw
  | unknown _ _ ih => exact ih hw ho hn.tail
  | prune hi hv _ ih => exact ih (hw.prune ho (hn.head hi) hv) ho hn.tail
  | enter hi _ he _ ih => exact ih (hw.enter ho (hn.head hi) he) ho hn.tail
  | expand hi _ _ below _ ihb ihr =>
    have hneed := hn.head hi
    have h₁ := ihb (hw.expand ho hneed) open_expand (leadToNeeded_dependencyNames hneed)
    exact ihr h₁ (ho.mono (List.Subset.trans (List.subset_cons_self _ _) below.expanded_subset)) hn.tail

/-- Back from below an item, the walk is coherent and the node above is still open. -/
theorem Descends.coherent_above
    (below : Descends r i.nodeId i.dependencyNames (w.expand parent i) w₁) (hw : Coherent r w)
    (ho : w.Open parent) (hi : r.Needed i) : Coherent r w₁ ∧ w₁.Open parent :=
  ⟨below.coherent (hw.expand ho hi) open_expand (leadToNeeded_dependencyNames hi),
    ho.mono (List.Subset.trans (List.subset_cons_self _ _) below.expanded_subset)⟩

theorem Rounds.coherent (h : Rounds r names w w') (hw : Coherent r w) (hn : LeadToNeeded r names) :
    Coherent r w' := by
  induction h with
  | done => exact hw
  | @next name names w w₁ w' round _ ih =>
    refine ih (round.coherent hw.forget (Or.inl rfl) fun n hn' => ?_) hn.tail
    rw [List.mem_singleton.mp hn']
    exact hn name List.mem_cons_self

end Walk
end ManifestGraph.Pip
