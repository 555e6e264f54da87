/-
  The graph of a report is the part of the report that the direct dependencies lead to
  (`describes_toGraph`): an unpruned node for each needed item, with one child for each known name that
  the item requires.
-/
import ManifestGraph.Proofs.Data.Related
import ManifestGraph.Proofs.Pip.Expansion
import ManifestGraph.Proofs.Text.Order

namespace ManifestGraph

/-- The node carries the label of pruned leaves. -/
def Node.IsPruned (n : Node) : Prop :=
  ∃ info labels, n.info = some info ∧ info.labels = some labels ∧ Pip.prunedLabel ∈ labels.map Prod.fst

/-- With distinct ids a package is found by its id. -/
theorem DependencyGraph.package?_of_mem {g : DependencyGraph} (hg : (g.packages.map Package.id).Nodup)
    {p : Package} (hp : p ∈ g.packages) : g.package? p.id = some p := by
  have hsome : (g.package? p.id).isSome = true := by
    rw [package?, List.find?_isSome]
    exact ⟨p, List.mem_reverse.mpr hp, by simp⟩
  obtain ⟨q, hq⟩ := Option.isSome_iff_exists.mp hsome
  have hid : q.id = p.id := by simpa using List.find?_some hq
  have hmem : q ∈ g.packages := List.mem_reverse.mp (List.mem_of_find?_eq_some hq)
  rw [hq, List.inj_on_of_nodup_map hg hmem hp hid]

namespace Pip

open GraphBuilder (rootId)

variable {r : Report} {i j : Item} {name child id : Text} {names : List Text} {w w' : Walk}

/-! ## The direct dependencies -/

theorem exists_of_mem_directNames (h : name ∈ r.directNames) :
    ∃ j ∈ r.items, j.requested = true ∧ j.key = name := by
  obtain ⟨j, hj, hname⟩ := List.mem_map.mp (Text.mem_sort.mp h)
  obtain ⟨hmem, hreq⟩ := List.mem_filter.mp hj
  exact ⟨j, hmem, hreq, hname⟩

theorem key_mem_directNames (hj : j ∈ r.items) (hreq : j.requested = true) :
    j.key ∈ r.directNames :=
  Text.mem_sort.mpr (List.mem_map_of_mem (List.mem_filter.mpr ⟨hj, hreq⟩))

theorem leadToNeeded_directNames (r : Report) : Walk.LeadToNeeded r r.directNames := by
  intro name hname i hi
  obtain ⟨j, hj, hreq, rfl⟩ := exists_of_mem_directNames hname
  exact .direct hj hreq (item?_key j ▸ hi)

theorem directNames_known (h : name ∈ r.directNames) : ∃ i, r.item? name = some i := by
  obtain ⟨j, hj, _, rfl⟩ := exists_of_mem_directNames h
  rw [item?_key]
  exact exists_last?_of_mem hj

/-! ## Everything needed is expanded -/

theorem mem_known (hname : name ∈ names) (hj : r.last? (normalName name) = some j) :
    name ∈ r.known names :=
  List.mem_filter.mpr ⟨hname, by rw [hj]; rfl⟩

namespace Walk

/-- What a child tells of the item that it leads to. -/
theorem Coherent.expanded_of_child (hw : Coherent r w) (hplain : r.NamesPlain) (hi : r.Listed i)
    (hmem : child ∈ w.builder.childrenOf id) (hchild : child = i.nodeId ∨ child = i.prunedId) :
    i.nodeId ∈ w.expanded := by
  have hchildren : (w.builder.childrenOf id) ≠ [] := List.ne_nil_of_mem hmem
  have hknown := hw.open_known (hw.parent_open id hchildren)
  obtain ⟨n, hn, rfl⟩ := List.mem_map.mp hknown
  rw [GraphBuilder.childrenOf_of_mem hw.sound.nodes_distinct hn] at hmem
  obtain ⟨m, hm, hid⟩ := List.mem_map.mp (hw.sound.child_known n hn child hmem)
  cases hw.kind m hm with
  | root hroot _ _ =>
    rw [hid] at hroot
    rcases hchild with rfl | rfl
    · exact absurd hroot i.nodeId_ne_rootId
    · exact absurd hroot i.prunedId_ne_rootId
  | item k hk he hkid _ _ =>
    rw [hid] at hkid
    rcases hchild with rfl | rfl
    · rwa [hkid]
    · exact absurd hkid (hi.prunedId_ne_nodeId hplain hk.listed)
  | pruned k hk he hkid _ _ =>
    rw [hid] at hkid
    rcases hchild with rfl | rfl
    · exact absurd hkid.symm (hk.listed.prunedId_ne_nodeId hplain hi)
    · rwa [Item.prunedId_inj hkid]

/-- What an expanded item requires is expanded. -/
theorem Coherent.expanded_of_leads (hw : Coherent r w) (hplain : r.NamesPlain)
    (hchildren : List.Forall₂ r.Leads (r.known names) (w.builder.childrenOf id)) (hname : name ∈ names)
    (hj : r.last? (normalName name) = some j) : j.nodeId ∈ w.expanded := by
  obtain ⟨child, hmem, k, hk, hchild⟩ := exists_of_mem_left hchildren (mem_known hname hj)
  rw [hj] at hk
  obtain rfl := Option.some.inj hk
  exact hw.expanded_of_child hplain (listed_of_last? hj) hmem hchild

/-- What a whole walk through the direct dependencies leaves. -/
structure Finished (r : Report) (w : Walk) : Prop where
  coherent : Coherent r w
  children_root : List.Forall₂ (fun name child => ∃ i, r.item? name = some i ∧ child = i.nodeId)
    r.directNames (w.builder.childrenOf rootId)
  children_item : ∀ i, r.Listed i → i.nodeId ∈ w.expanded →
    List.Forall₂ r.Leads (r.known i.dependencyNames) (w.builder.childrenOf i.nodeId)

theorem childrenOf_start (manager id : Text) : (Walk.start manager).builder.childrenOf id = [] :=
  GraphBuilder.childrenOf_add

theorem Rounds.finished {manager : Text} (h : Rounds r r.directNames (Walk.start manager) w)
    (hplain : r.NamesPlain) : Finished r w where
  coherent := h.coherent (.start r manager) (leadToNeeded_directNames r)
  children_root := by
    obtain ⟨added, hadd, hlead⟩ := h.childrenOf_root (.start r manager) (leadToNeeded_directNames r)
      fun _ => directNames_known
    rw [childrenOf_start, List.nil_append] at hadd
    rwa [hadd]
  children_item := fun _ hi he => h.childrenOf_expanded hplain (.start r manager)
    (leadToNeeded_directNames r) hi he List.not_mem_nil

/-- Every needed item has its node. -/
theorem Finished.expanded_of_needed (hw : Finished r w) (hplain : r.NamesPlain) (hi : r.Needed i) :
    i.nodeId ∈ w.expanded := by
  have hlisted := hi.listed
  induction hi with
  | @direct i j hj hreq hi =>
    obtain ⟨child, hmem, k, hk, hchild⟩ :=
      exists_of_mem_left hw.children_root (key_mem_directNames hj hreq)
    rw [item?_key, hi] at hk
    obtain rfl := Option.some.inj hk
    exact hw.coherent.expanded_of_child hplain hlisted hmem (Or.inl hchild)
  | @required i j name hi hname hj ih =>
    have hchildren := hw.children_item i hi.listed (ih hi.listed)
    exact hw.coherent.expanded_of_leads hplain hchildren hname hj

end Walk

/-! ## The graph -/

/-- A graph is the part of a report that its direct dependencies lead to. -/
structure Report.Describes (r : Report) (g : DependencyGraph) : Prop where
  ids_distinct : (g.nodes.map Node.id).Nodup
  needed_distinct : ∀ i j, r.Needed i → r.Needed j → i.nodeId = j.nodeId → i = j
  node_iff : ∀ id, (∃ n ∈ g.nodes, n.id = id ∧ id ≠ rootId ∧ ¬n.IsPruned) ↔
    ∃ i, r.Needed i ∧ id = i.nodeId
  package : ∀ i, r.Needed i → ∀ n ∈ g.nodes, n.id = i.nodeId →
    ∃ p, g.package? n.package = some p ∧ p.info.name = i.key ∧ p.info.version = some i.shownVersion
  children_root : ∃ root ∈ g.nodes, root.id = rootId ∧
    ∃ names, names.Perm ((r.items.filter Item.requested).map Item.key) ∧
      names.Pairwise (fun s t => Text.le s t = true) ∧
      List.Forall₂ (fun name child => ∃ i, r.last? name = some i ∧ child = i.nodeId)
        names root.children ∧
      ∀ n ∈ g.nodes, n.id ∈ root.children → ¬n.IsPruned
  children_item : ∀ i, r.Needed i → ∀ n ∈ g.nodes, n.id = i.nodeId →
    List.Forall₂ r.Leads (r.known i.dependencyNames) n.children

theorem isPruned_prunedInfo {n : Node} (h : n.info = some Walk.prunedInfo) : n.IsPruned :=
  ⟨_, _, h, rfl, List.mem_cons_self⟩

theorem not_isPruned_of_info {n : Node} (h : n.info = none) : ¬n.IsPruned := by
  rintro ⟨info, _, hinfo, _⟩
  rw [h] at hinfo
  cases hinfo

namespace Walk

variable {n : Node}

/-- The node of a needed item is not pruned. -/
theorem Coherent.info_of_nodeId (hw : Coherent r w) (hplain : r.NamesPlain) (hi : r.Listed i)
    (hn : n ∈ w.builder.nodes) (hid : n.id = i.nodeId) : n.info = none ∧ n.package = i.nodeId := by
  cases hw.kind n hn with
  | root hroot _ _ => exact absurd (hid.symm.trans hroot) i.nodeId_ne_rootId
  | item k _ _ hkid hpackage hinfo => exact ⟨hinfo, by rw [hpackage, ← hkid, hid]⟩
  | pruned k hk _ hkid _ _ =>
    exact absurd (hkid.symm.trans hid) (hk.listed.prunedId_ne_nodeId hplain hi)

/-- An item with the id of the root package is the root package. -/
theorem package_of_id_eq_rootPackage (hplain : r.NamesPlain) (hi : r.Listed i)
    (h : rootPackage.id = i.nodeId) : rootPackage = i.package := by
  have hroot : rootPackage.id = rootName ++ CodePoint.scalar '@' :: rootVersion := by decide
  rw [hroot, Item.nodeId_eq] at h
  obtain ⟨hname, hversion⟩ := eq_of_append_cons_eq (by decide) (at_not_mem_key hplain hi) h
  rw [rootPackage, Item.package, hname, hversion]

/-- The package of a needed item. -/
theorem Coherent.package?_nodeId (hw : Coherent r w) (hplain : r.NamesPlain) (hi : r.Needed i)
    (hn : n ∈ w.builder.nodes) (hpackage : n.package = i.nodeId) :
    ∃ p, w.builder.build.package? n.package = some p ∧ p.info = i.package := by
  have hvalid := hw.sound.valid_build
  obtain ⟨p, hp, hid⟩ := List.mem_map.mp (hvalid.package_known n hn)
  refine ⟨p, by rw [← hid, DependencyGraph.package?_of_mem hvalid.packages_distinct hp], ?_⟩
  have hpid : p.info.id = i.nodeId := by rw [← hw.sound.package_ids p hp, hid, hpackage]
  rcases hw.package_info p hp with hroot | ⟨k, hk, hinfo⟩
  · rw [hroot] at hpid ⊢
    exact package_of_id_eq_rootPackage hplain hi.listed hpid
  · rw [hinfo, Item.package_id] at hpid
    rw [hinfo, hk.listed.eq_of_nodeId_eq hplain hi.listed hpid]

/-- What a finished walk has built. -/
theorem Finished.describes (hw : Finished r w) (hplain : r.NamesPlain) :
    r.Describes w.builder.build where
  ids_distinct := hw.coherent.sound.nodes_distinct
  needed_distinct := fun _ _ hi hj => hi.listed.eq_of_nodeId_eq hplain hj.listed
  node_iff := by
    intro id
    constructor
    · rintro ⟨n, hn, rfl, hroot, hpruned⟩
      cases hw.coherent.kind n hn with
      | root hid _ _ => exact absurd hid hroot
      | item i hi _ hid _ _ => exact ⟨i, hi, hid⟩
      | pruned i _ _ _ _ hinfo => exact absurd (isPruned_prunedInfo hinfo) hpruned
    · rintro ⟨i, hi, rfl⟩
      have hknown := hw.coherent.expanded_known _ (hw.expanded_of_needed hplain hi)
      obtain ⟨n, hn, hid⟩ := List.mem_map.mp hknown
      have hinfo := (hw.coherent.info_of_nodeId hplain hi.listed hn hid).1
      exact ⟨n, hn, hid, i.nodeId_ne_rootId, not_isPruned_of_info hinfo⟩
  package := by
    intro i hi n hn hid
    have hpackage := (hw.coherent.info_of_nodeId hplain hi.listed hn hid).2
    obtain ⟨p, hp, hinfo⟩ := hw.coherent.package?_nodeId hplain hi hn hpackage
    exact ⟨p, hp, by rw [hinfo]; rfl, by rw [hinfo]; rfl⟩
  children_root := by
    obtain ⟨root, hmem, hid⟩ := List.mem_map.mp hw.coherent.rootId_mem
    have hchildren := hw.children_root
    rw [← hid, GraphBuilder.childrenOf_of_mem hw.coherent.sound.nodes_distinct hmem] at hchildren
    have hlast : List.Forall₂ (fun name child => ∃ i, r.last? name = some i ∧ child = i.nodeId)
        r.directNames root.children := by
      refine forall₂_of_mem_left (fun name child hname => ?_) hchildren
      obtain ⟨j, _, _, rfl⟩ := exists_of_mem_directNames hname
      rw [item?_key]
      exact id
    refine ⟨root, hmem, hid, r.directNames, Text.perm_sort _, Text.pairwise_sort _, hlast, ?_⟩
    intro n hn hchild
    obtain ⟨name, _, i, hi, heq⟩ := exists_of_mem_right hlast hchild
    exact not_isPruned_of_info (hw.coherent.info_of_nodeId hplain (listed_of_last? hi) hn heq).1
  children_item := by
    intro i hi n hn hid
    have h := hw.children_item i hi.listed (hw.expanded_of_needed hplain hi)
    rwa [← hid, GraphBuilder.childrenOf_of_mem hw.coherent.sound.nodes_distinct hn] at h

end Walk

/-- The graph of a report without an `@` in its names is exactly the part of the report that the direct
dependencies lead to, cyclic or not. -/
theorem describes_toGraph (r : Report) (manager : Text) (hplain : r.NamesPlain) :
    r.Describes (r.toGraph manager) := by
  obtain ⟨w, hrounds, hbuild⟩ := Walk.rounds_toGraph r manager
  rw [hbuild]
  exact (hrounds.finished hplain).describes hplain

/-- Two packages that require each other, one of them a direct dependency. -/
def circle : Report where
  items := [
    { name := "Flask_App", version := "1.0", requires := some ["jinja2 (>=3)"], requested := true },
    { name := "jinja2", requires := some ["flask-app"] }]

theorem describes_toGraph_circle :
    circle.NamesPlain ∧ circle.Describes (circle.toGraph "pip") := by
  have hplain : circle.NamesPlain := by unfold Report.NamesPlain; decide
  exact ⟨hplain, describes_toGraph circle "pip" hplain⟩

end Pip
end ManifestGraph
