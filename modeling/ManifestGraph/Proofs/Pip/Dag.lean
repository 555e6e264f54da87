/-
  The graph of a report is a directed acyclic graph below its root, in which packages met again are
  pruned leaves (`prunedDag_toGraph`).
-/
import ManifestGraph.Proofs.Pip.Acyclic
import ManifestGraph.Proofs.Pip.Extras

namespace ManifestGraph

/-- An edge of a graph. -/
def DependencyGraph.Edge (g : DependencyGraph) (parent child : Text) : Prop :=
  ∃ n ∈ g.nodes, n.id = parent ∧ child ∈ n.children

/-- A graph without cycles below its root, in which packages met again are pruned leaves. -/
structure DependencyGraph.PrunedDag (g : DependencyGraph) : Prop where
  root_mem : g.root ∈ g.nodes.map Node.id
  acyclic : ∀ id, ¬Relation.TransGen g.Edge id id
  reached : ∀ n ∈ g.nodes, Relation.ReflTransGen g.Edge g.root n.id
  root_no_child : ∀ n ∈ g.nodes, g.root ∉ n.children
  children_distinct : ∀ n ∈ g.nodes, n.children.Nodup
  pruned_leaf : ∀ n ∈ g.nodes, n.IsPruned → n.children = [] ∧
    ∃ m ∈ g.nodes, m.info.bind NodeInfo.labels = none ∧ n.id = m.id ++ ":" ++ Pip.prunedLabel ∧
      n.package = m.package

namespace Pip

open GraphBuilder (rootId)

variable {r : Report} {w : Walk}

/-! ## Distinct children -/

/-- No two names that an item requires are looked up alike. -/
theorem nodup_known_dependencyNames (r : Report) (i : Item) :
    ((r.known i.dependencyNames).map normalName).Nodup := by
  refine ((List.filter_sublist).map _).nodup ?_
  rw [Item.dependencyNames, ((Text.perm_sort _).map normalName).nodup_iff]
  exact (nodup_distinctNames [] _).1

theorem Report.Leads.normalName_eq {name name' child : Text} (hplain : r.NamesPlain)
    (h : r.Leads name child) (h' : r.Leads name' child) : normalName name = normalName name' := by
  obtain ⟨i, hi, hchild⟩ := h
  obtain ⟨j, hj, hchild'⟩ := h'
  have hli := listed_of_last? hi
  have hlj := listed_of_last? hj
  have hij : i = j := by
    rcases hchild with rfl | rfl
    · rcases hchild' with heq | heq
      · exact hli.eq_of_nodeId_eq hplain hlj heq
      · exact absurd heq.symm (hlj.prunedId_ne_nodeId hplain hli)
    · rcases hchild' with heq | heq
      · exact absurd heq (hli.prunedId_ne_nodeId hplain hlj)
      · exact hli.eq_of_nodeId_eq hplain hlj (Item.prunedId_inj heq)
  rw [← key_of_last? hi, ← key_of_last? hj, hij]

/-- The direct dependencies are looked up by normal names. -/
theorem map_normalName_directNames (r : Report) : r.directNames.map normalName = r.directNames := by
  refine (List.map_congr_left fun name hname => ?_).trans (List.map_id _)
  obtain ⟨i, _, _, rfl⟩ := exists_of_mem_directNames hname
  exact normalName_normalName i.name

theorem nodup_directNames (hnames : (r.items.map Item.key).Nodup) : r.directNames.Nodup := by
  rw [Report.directNames, (Text.perm_sort _).nodup_iff]
  exact ((List.filter_sublist).map _).nodup hnames

/-! ## The graph -/

theorem Walk.edge_iff (hw : w.builder.Sound) {a c : Text} :
    w.builder.build.Edge a c ↔ c ∈ w.builder.childrenOf a := by
  constructor
  · rintro ⟨n, hn, rfl, hc⟩
    rwa [GraphBuilder.childrenOf_of_mem hw.nodes_distinct hn]
  · intro hc
    by_cases ha : a ∈ w.builder.ids
    · obtain ⟨n, hn, rfl⟩ := List.mem_map.mp ha
      rw [GraphBuilder.childrenOf_of_mem hw.nodes_distinct hn] at hc
      exact ⟨n, hn, rfl, hc⟩
    · rw [GraphBuilder.childrenOf_of_not_mem ha] at hc
      exact absurd hc List.not_mem_nil

/-- No way leads back to where it began. -/
theorem Walk.Finished.acyclic (hw : Finished r w) (hplain : r.NamesPlain) {manager : Text}
    (h : Rounds r r.directNames (Walk.start manager) w) (id : Text) :
    ¬Relation.TransGen w.builder.build.Edge id id := by
  intro hcycle
  have hwf := (hw.wellFounded hplain h).transGen
  refine hwf.irrefl.irrefl id
    (Relation.TransGen.mono (fun c a => (Walk.edge_iff hw.coherent.sound).mp) _ _ ?_)
  exact Relation.transGen_swap.mpr hcycle

theorem Walk.Finished.childrenOf_nodup (hw : Finished r w) (hplain : r.NamesPlain)
    (hnames : (r.items.map Item.key).Nodup) (id : Text) : (w.builder.childrenOf id).Nodup := by
  by_cases hid : w.builder.childrenOf id = []
  · rw [hid]; exact List.nodup_nil
  rcases hw.coherent.parent_open id hid with rfl | he
  · refine nodup_of_forall₂ (f := normalName) hw.children_root ?_ ?_
    · rw [map_normalName_directNames]
      exact nodup_directNames hnames
    · rintro name name' child ⟨i, hi, rfl⟩ ⟨j, hj, heq⟩
      have hij := (listed_of_item? hi).eq_of_nodeId_eq hplain (listed_of_item? hj) heq
      rw [← key_of_last? hi, ← key_of_last? hj, hij]
  · obtain ⟨i, hi, rfl⟩ := hw.coherent.expanded_needed id he
    exact nodup_of_forall₂ (hw.children_item i hi.listed he) (nodup_known_dependencyNames r i)
      fun _ _ _ h h' => h.normalName_eq hplain h'

/-- A pruned leaf stands beside the node of its item. -/
theorem Walk.Finished.exists_of_isPruned (hw : Finished r w) (hplain : r.NamesPlain) {n : Node}
    (hn : n ∈ w.builder.nodes) (hpruned : n.IsPruned) : n.children = [] ∧
      ∃ m ∈ w.builder.nodes, m.info = none ∧ n.id = m.id ++ ":" ++ prunedLabel ∧
        n.package = m.package := by
  have hc := hw.coherent
  cases hc.kind n hn with
  | root _ _ hinfo => exact absurd hpruned (not_isPruned_of_info hinfo)
  | item _ _ _ _ _ hinfo => exact absurd hpruned (not_isPruned_of_info hinfo)
  | pruned i hi he hid hpackage _ =>
    obtain ⟨m, hm, hmid⟩ := List.mem_map.mp (hc.expanded_known _ he)
    obtain ⟨hinfo, hmpackage⟩ := hc.info_of_nodeId hplain hi.listed hm hmid
    refine ⟨?_, m, hm, hinfo, ?_, ?_⟩
    · rw [← GraphBuilder.childrenOf_of_mem hc.sound.nodes_distinct hn, hid,
        hw.childrenOf_prunedId hplain hi.listed]
    · rw [hid, hmid]; rfl
    · rw [hpackage, hmpackage]

/-- The graph of a report has no cycle, whatever the packages require of each other. -/
theorem prunedDag_toGraph (r : Report) (manager : Text) (hplain : r.NamesPlain)
    (hnames : (r.items.map Item.key).Nodup) : (r.toGraph manager).PrunedDag := by
  obtain ⟨w, hrounds, hbuild⟩ := Walk.rounds_toGraph r manager
  have hw := hrounds.finished hplain
  have hc := hw.coherent
  have hedge : ∀ a c, w.builder.build.Edge a c ↔ c ∈ w.builder.childrenOf a :=
    fun _ _ => Walk.edge_iff hc.sound
  rw [hbuild]
  refine ⟨hc.rootId_mem, hw.acyclic hplain hrounds, ?_, ?_, ?_, ?_⟩
  · intro n hn
    exact Relation.ReflTransGen.mono (fun a c => (hedge a c).mpr) _ _
      (hc.reached n.id (List.mem_map_of_mem hn))
  · intro n hn hmem
    rw [← GraphBuilder.childrenOf_of_mem hc.sound.nodes_distinct hn] at hmem
    exact hc.child_ne_root n.id hmem
  · intro n hn
    rw [← GraphBuilder.childrenOf_of_mem hc.sound.nodes_distinct hn]
    exact hw.childrenOf_nodup hplain hnames n.id
  · intro n hn hpruned
    obtain ⟨hleaf, m, hm, hinfo, hid, hpackage⟩ := hw.exists_of_isPruned hplain hn hpruned
    exact ⟨hleaf, m, hm, by rw [hinfo]; rfl, hid, hpackage⟩

theorem prunedDag_toGraph_circle : circle.NamesPlain ∧ (circle.items.map Item.key).Nodup ∧
    (circle.toGraph "pip").PrunedDag := by
  have hplain : circle.NamesPlain := by unfold Report.NamesPlain; decide
  have hnames : (circle.items.map Item.key).Nodup := by decide
  exact ⟨hplain, hnames, prunedDag_toGraph circle "pip" hplain hnames⟩

end Pip
end ManifestGraph
