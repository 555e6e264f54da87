/-
  How many ways the graph of a report leaves from one package to another. Pruning looks at one direct
  dependency at a time, but what was expanded below an earlier one is not looked at again. So there is one
  way to every package that is first met below the direct dependency itself, and to any other package
  there is one just if no two packages on ways to it share a child that were first met below different
  direct dependencies (`prunesWays_toGraph`).
-/
import ManifestGraph.Proofs.Graph.Ways
import ManifestGraph.Proofs.Pip.Dag
import ManifestGraph.Proofs.Pip.Order
import ManifestGraph.Proofs.Pip.Rounds

namespace ManifestGraph.Pip

open GraphBuilder (rootId)
open Relation (ReflTransGen)

variable {r : Report} {a b c d e e' p : Item} {manager name x y : Text} {before after : List Text}
  {w : Walk}

/-! ## Where a package is first met -/

/-- A package is first met below a direct dependency: it is below it, and not below an earlier one. -/
structure Report.FirstBelow (r : Report) (e i : Item) : Prop where
  mem : e ∈ r.items
  requested : e.requested = true
  below : r.Below e i
  least : ∀ d ∈ r.items, d.requested = true → r.Below d i → Text.le e.key d.key = true

/-- A package on the way from a direct dependency to one that is first met below it is itself first met
there. -/
theorem Report.FirstBelow.of_below (h : r.FirstBelow e p) (ha : r.Below e a) (hp : r.Below a p) :
    r.FirstBelow e a where
  mem := h.mem
  requested := h.requested
  below := ha
  least := fun d hd hrequested hbelow => h.least d hd hrequested (hbelow.trans hp)

/-- Of some sorted names that have a property there is a least one. -/
theorem exists_least {P : Text → Prop} {names : List Text}
    (hsorted : names.Pairwise fun s t => Text.le s t = true) (h : ∃ name ∈ names, P name) :
    ∃ name ∈ names, P name ∧ ∀ n ∈ names, P n → Text.le name n = true := by
  induction names with
  | nil => simp at h
  | cons name names ih =>
    obtain ⟨hle, hsorted⟩ := List.pairwise_cons.mp hsorted
    by_cases hname : P name
    · refine ⟨name, List.mem_cons_self, hname, fun n hn _ => ?_⟩
      rcases List.mem_cons.mp hn with rfl | hn
      · exact Text.le_refl n
      · exact hle n hn
    · have hrest : ∃ name ∈ names, P name := by simpa [hname] using h
      obtain ⟨m, hm, hPm, hleast⟩ := ih hsorted hrest
      refine ⟨m, List.mem_cons_of_mem _ hm, hPm, fun n hn hPn => ?_⟩
      rcases List.mem_cons.mp hn with rfl | hn
      · exact absurd hPn hname
      · exact hleast n hn hPn

section Distinct

variable (hnames : (r.items.map Item.key).Nodup)

include hnames

theorem item?_key_of_mem (he : e ∈ r.items) : r.item? e.key = some e := by
  rw [item?_key]
  exact (last?_eq_some_iff hnames).mpr ⟨he, rfl⟩

theorem listed_of_mem (he : e ∈ r.items) : r.Listed e := listed_of_item? (item?_key_of_mem hnames he)

theorem Report.FirstBelow.listed (h : r.FirstBelow e a) : r.Listed a :=
  h.below.listed (listed_of_mem hnames h.mem)

/-- A package is first met below at most one direct dependency. -/
theorem Report.FirstBelow.eq (h : r.FirstBelow e a) (h' : r.FirstBelow e' a) : e = e' := by
  have hkey : e.key = e'.key :=
    Text.le_antisymm (h.least e' h'.mem h'.requested h'.below) (h'.least e h.mem h.requested h.below)
  exact List.inj_on_of_nodup_map hnames h.mem h'.mem hkey

/-- What the name of a direct dependency is looked up to is that direct dependency. -/
theorem of_mem_directNames (hname : name ∈ r.directNames) (he : r.item? name = some e) :
    e ∈ r.items ∧ e.requested = true ∧ e.key = name := by
  obtain ⟨j, hj, hrequested, rfl⟩ := exists_of_mem_directNames hname
  obtain rfl : j = e := by simpa [item?_key_of_mem hnames hj] using he
  exact ⟨hj, hrequested, rfl⟩

/-- Whatever is below a direct dependency is first met below one. -/
theorem exists_firstBelow (hd : d ∈ r.items) (hrequested : d.requested = true) (h : r.Below d a) :
    ∃ e, r.FirstBelow e a := by
  obtain ⟨name, hname, ⟨e, he, hbelow⟩, hleast⟩ :=
    exists_least (P := fun name => ∃ e, r.item? name = some e ∧ r.Below e a)
      (Text.pairwise_sort _) ⟨_, key_mem_directNames hd hrequested, d, item?_key_of_mem hnames hd, h⟩
  obtain ⟨hmem, herequested, rfl⟩ := of_mem_directNames hnames hname he
  exact ⟨e, hmem, herequested, hbelow, fun k hk hkrequested hkbelow =>
    hleast k.key (key_mem_directNames hk hkrequested) ⟨k, item?_key_of_mem hnames hk, hkbelow⟩⟩

/-- What comes before a direct dependency is less. -/
theorem not_le_of_mem_before (hsplit : r.directNames = before ++ name :: after) {n : Text}
    (hn : n ∈ before) : ¬Text.le name n = true := by
  intro hle
  have hsorted : r.directNames.Pairwise fun s t => Text.le s t = true := Text.pairwise_sort _
  have hdistinct := nodup_directNames hnames
  rw [hsplit, List.pairwise_append] at hsorted
  rw [hsplit, List.nodup_append'] at hdistinct
  rw [Text.le_antisymm (hsorted.2.2 n hn name List.mem_cons_self) hle] at hn
  exact hdistinct.2.2 hn List.mem_cons_self

end Distinct

/-- A name that leads to the node of a package is looked up to it. -/
theorem Report.Leads.item?_eq (hplain : r.NamesPlain) (hc : r.Listed c) (h : r.Leads name c.nodeId) :
    r.item? name = some c := by
  obtain ⟨i, hi, heq | heq⟩ := h
  · rw [hc.eq_of_nodeId_eq hplain (listed_of_last? hi) heq]
    exact hi
  · exact absurd heq.symm ((listed_of_last? hi).prunedId_ne_nodeId hplain hc)

namespace Walk

/-! ## Children in one round -/

section Plain

variable (hplain : r.NamesPlain) (hnames : (r.items.map Item.key).Nodup)

include hplain hnames

/-- The round of a direct dependency expands what is first met below it. -/
theorem Rounds.exists_round (h : Rounds r r.directNames (Walk.start manager) w) (he : e ∈ r.items)
    (hrequested : e.requested = true) :
    ∃ w₁ w₂ after, Coherent r w₁ ∧ Descends r rootId [e.key] { w₁ with visited := [] } w₂ ∧
      LeadToNeeded r (e.key :: after) ∧ Rounds r after w₂ w ∧
      ∀ a, r.FirstBelow e a → a.nodeId ∈ w₂.expanded ∧ a.nodeId ∉ w₁.expanded := by
  obtain ⟨before, after, hsplit⟩ := List.append_of_mem (key_mem_directNames he hrequested)
  have hto : before ++ [e.key] ⊆ r.directNames := by simp [hsplit]
  have hbefore : before ⊆ r.directNames := by simp [hsplit]
  have hneeded : ∀ names ⊆ r.directNames, LeadToNeeded r names :=
    fun names hsub n hn => leadToNeeded_directNames r n (hsub hn)
  rw [hsplit, List.append_cons] at h
  obtain ⟨w₂, h₂, hafter⟩ := rounds_append.mp h
  obtain ⟨w₁, h₁, hround⟩ := rounds_append.mp h₂
  have hdescends : Descends r rootId [e.key] { w₁ with visited := [] } w₂ := by
    cases hround with
    | next round rest => cases rest; exact round
  refine ⟨w₁, w₂, after, h₁.coherent (.start r manager) (hneeded _ hbefore), hdescends,
    hneeded _ (by simp [hsplit]), hafter, fun a ha => ?_⟩
  have hlisted := ha.listed hnames
  constructor
  · exact (h₂.mem_expanded_iff hplain hto hlisted).mpr
      ⟨e.key, by simp, e, item?_key_of_mem hnames he, ha.below⟩
  · intro hmem
    obtain ⟨name, hname, d, hd, hbelow⟩ := (h₁.mem_expanded_iff hplain hbefore hlisted).mp hmem
    obtain ⟨hdmem, hdrequested, rfl⟩ := of_mem_directNames hnames (hbefore hname) hd
    exact not_le_of_mem_before hnames hsplit hname (ha.least d hdmem hdrequested hbelow)

/-- Two packages that are first met below one direct dependency share no unpruned child. -/
theorem Rounds.eq_of_child (h : Rounds r r.directNames (Walk.start manager) w)
    (ha : r.FirstBelow e a) (hb : r.FirstBelow e b) (hc : r.Listed c)
    (hac : c.nodeId ∈ w.builder.childrenOf a.nodeId)
    (hbc : c.nodeId ∈ w.builder.childrenOf b.nodeId) : a.nodeId = b.nodeId := by
  obtain ⟨w₁, w₂, after, hw₁, hround, hneeded, hafter, hnew⟩ :=
    h.exists_round hplain hnames ha.mem ha.requested
  have hw₂ := hround.coherent hw₁.forget (Or.inl rfl) hneeded.singleton
  have hapart : Apart r w₁.expanded w₂ :=
    hround.apart hplain hw₁.forget (Or.inl rfl) hneeded.singleton (apart_forget r w₁)
  have hparent : ∀ k, r.FirstBelow e k → c.nodeId ∈ w.builder.childrenOf k.nodeId →
      NewParent r w₁.expanded w₂ k.nodeId c := by
    intro k hk hck
    rw [hafter.childrenOf_of_mem hw₂ hneeded.tail (hnew k hk).1] at hck
    exact ⟨hc, hck, (hnew k hk).1, (hnew k hk).2⟩
  exact hapart.eq_of_child _ _ c (hparent a ha hac) (hparent b hb hbc)

end Plain

/-! ## What is reached from a package -/

/-- The root is not reached from a package. -/
theorem Coherent.ne_rootId_of_reach (hw : Coherent r w)
    (h : ReflTransGen w.builder.build.Edge a.nodeId x) : x ≠ rootId := by
  rcases h.cases_tail with rfl | ⟨y, _, hx⟩
  · exact a.nodeId_ne_rootId
  · rintro rfl
    exact hw.child_ne_root y ((edge_iff hw.sound).mp hx)

section Plain

variable (hplain : r.NamesPlain) (hw : Finished r w)

include hplain hw

/-- A package has the nodes of packages that it requires as children. -/
theorem Finished.requires_of_edge (ha : r.Listed a) (hc : r.Listed c)
    (h : w.builder.build.Edge a.nodeId c.nodeId) : r.Requires a c := by
  have hmem := (edge_iff hw.coherent.sound).mp h
  have hopen := hw.coherent.parent_open _ (List.ne_nil_of_mem hmem)
  have hchildren := hw.children_item a ha (hopen.resolve_left a.nodeId_ne_rootId)
  obtain ⟨name, hname, hleads⟩ := exists_of_mem_right hchildren hmem
  exact ⟨name, (List.mem_filter.mp hname).1, Report.Leads.item?_eq hplain hc hleads⟩

/-- A node with a child that is reached from a package is the node of one below it. -/
theorem Finished.exists_below (ha : r.Listed a) (h : ReflTransGen w.builder.build.Edge a.nodeId x)
    (hx : w.builder.build.Edge x y) : ∃ b, r.Listed b ∧ x = b.nodeId ∧ r.Below a b := by
  induction h generalizing y with
  | refl => exact ⟨a, ha, rfl, .refl⟩
  | @tail u z hu hz ih =>
    obtain ⟨b, hb, rfl, hbelow⟩ := ih hz
    have hopen := hw.coherent.parent_open z
      (List.ne_nil_of_mem ((edge_iff hw.coherent.sound).mp hx))
    have hroot : z ≠ rootId := hw.coherent.ne_rootId_of_reach (hu.tail hz)
    obtain ⟨c, hc, rfl⟩ := hw.coherent.expanded_needed z (hopen.resolve_left hroot)
    exact ⟨c, hc.listed, rfl, hbelow.tail (hw.requires_of_edge hplain hb hc.listed hz)⟩

theorem Finished.below_of_reach (ha : r.Listed a) (hc : r.Listed c)
    (h : ReflTransGen w.builder.build.Edge a.nodeId c.nodeId) : r.Below a c := by
  rcases h.cases_tail with heq | ⟨y, hy, hyc⟩
  · rw [hc.eq_of_nodeId_eq hplain ha heq]
    exact .refl
  · obtain ⟨b, hb, rfl, hbelow⟩ := hw.exists_below hplain ha hy hyc
    exact hbelow.tail (hw.requires_of_edge hplain hb hc hyc)

/-- The nodes of a package below another one are its own and its pruned leaf. -/
theorem Finished.isPruned_of_reach {n : Node} (hn : n ∈ w.builder.nodes)
    (h : ReflTransGen w.builder.build.Edge a.nodeId n.id) (hpackage : n.package = p.package.id) :
    n.id = p.nodeId ∨ n.id = p.prunedId ∧ n.IsPruned ∧ n.children = [] := by
  rw [Item.package_id] at hpackage
  cases hw.coherent.kind n hn with
  | root hid _ _ => exact absurd hid (hw.coherent.ne_rootId_of_reach h)
  | item i _ _ hid hnode _ => exact Or.inl (by rw [hid, ← hnode, hpackage])
  | pruned i _ _ hid hnode hinfo =>
    have hpruned : n.IsPruned := isPruned_prunedInfo hinfo
    refine Or.inr ⟨?_, hpruned, (hw.exists_of_isPruned hplain hn hpruned).1⟩
    rw [hid, Item.prunedId, ← hnode, hpackage, Item.prunedId]

/-! ## Ways that join -/

variable (hd : r.Listed d) (hp : r.Listed p)

include hd

/-- What joins on ways from one package to another is a package. -/
theorem Finished.exists_of_join (h : Join w.builder.build.Edge d.nodeId p.nodeId x y) :
    ∃ b, r.Listed b ∧ x = b.nodeId := by
  obtain ⟨z, hxz, _, _⟩ := h.child
  obtain ⟨b, hb, hx, _⟩ := hw.exists_below hplain hd h.left hxz
  exact ⟨b, hb, hx⟩

include hp

theorem Finished.below_of_join (ha : r.Listed a)
    (h : Join w.builder.build.Edge d.nodeId p.nodeId a.nodeId y) : r.Below d a ∧ r.Below a p := by
  obtain ⟨z, haz, _, hzp⟩ := h.child
  exact ⟨hw.below_of_reach hplain hd ha h.left, hw.below_of_reach hplain ha hp (.head haz hzp)⟩

/-- Packages that are first met below one direct dependency do not join. -/
theorem Finished.eq_of_join (h : Rounds r r.directNames (Walk.start manager) w)
    (hnames : (r.items.map Item.key).Nodup) (ha : r.FirstBelow e a) (hb : r.FirstBelow e b)
    (hjoin : Join w.builder.build.Edge d.nodeId p.nodeId a.nodeId b.nodeId) :
    a.nodeId = b.nodeId := by
  have hedge {u v : Text} := edge_iff (a := u) (c := v) hw.coherent.sound
  obtain ⟨z, haz, hbz, hzp⟩ := hjoin.child
  obtain ⟨c, hc, rfl⟩ : ∃ c, r.Listed c ∧ z = c.nodeId := by
    rcases hzp.cases_head with rfl | ⟨u, hzu, _⟩
    · exact ⟨p, hp, rfl⟩
    · obtain ⟨c, hc, hz, _⟩ := hw.exists_below hplain hd (hjoin.left.tail haz) hzu
      exact ⟨c, hc, hz⟩
  exact h.eq_of_child hplain hnames ha hb hc (hedge.mp haz) (hedge.mp hbz)

end Plain
end Walk

/-! ## The graph -/

/-- What pruning leaves of the ways from a direct dependency to a package. -/
structure Report.PrunesWays (r : Report) (g : DependencyGraph) (d p : Item) : Prop where
  /-- There is one way just if all packages that join on ways were first met below one direct
  dependency. -/
  oneWay_iff : OneWay g.Edge d.nodeId p.nodeId ↔ ∀ a b e e', r.FirstBelow e a → r.FirstBelow e' b →
    Join g.Edge d.nodeId p.nodeId a.nodeId b.nodeId → e = e'
  /-- There is one way if the package is first met below the direct dependency, or below an earlier one
  that leads to it. -/
  oneWay_of_first : ∀ e, r.FirstBelow e p → r.Below e d → OneWay g.Edge d.nodeId p.nodeId
  /-- Beside its own node the package has pruned leaves only. -/
  pruned_leaf : ∀ n ∈ g.nodes, ReflTransGen g.Edge d.nodeId n.id → n.package = p.package.id →
    n.id = p.nodeId ∨ n.id = p.prunedId ∧ n.IsPruned ∧ n.children = []

namespace Walk

variable (hw : Finished r w) (h : Rounds r r.directNames (Walk.start manager) w)
  (hplain : r.NamesPlain) (hnames : (r.items.map Item.key).Nodup) (hd : d ∈ r.items)
  (hrequested : d.requested = true) (hp : p ∈ r.items)

include hw h hplain hnames hd hrequested hp

theorem Finished.oneWay_iff : OneWay w.builder.build.Edge d.nodeId p.nodeId ↔
    ∀ a b e e', r.FirstBelow e a → r.FirstBelow e' b →
      Join w.builder.build.Edge d.nodeId p.nodeId a.nodeId b.nodeId → e = e' := by
  have hdl := listed_of_mem hnames hd
  have hpl := listed_of_mem hnames hp
  rw [ManifestGraph.oneWay_iff (hw.acyclic hplain h)]
  constructor
  · intro heq a b e e' ha hb hjoin
    obtain rfl := (ha.listed hnames).eq_of_nodeId_eq hplain (hb.listed hnames) (heq _ _ hjoin)
    exact ha.eq hnames hb
  · intro hfirst x y hjoin
    obtain ⟨a, ha, rfl⟩ := hw.exists_of_join hplain hdl hjoin
    obtain ⟨b, hb, rfl⟩ := hw.exists_of_join hplain hdl hjoin.symm
    have hda := (hw.below_of_join hplain hdl hpl ha hjoin).1
    have hdb := (hw.below_of_join hplain hdl hpl hb hjoin.symm).1
    obtain ⟨e, he⟩ := exists_firstBelow hnames hd hrequested hda
    obtain ⟨e', he'⟩ := exists_firstBelow hnames hd hrequested hdb
    obtain rfl := hfirst a b e e' he he' hjoin
    exact hw.eq_of_join hplain hdl hpl h hnames he he' hjoin

/-- All that joins on ways to a package is first met where the package is, if the ways begin there. -/
theorem Finished.oneWay_of_first (hep : r.FirstBelow e p) (hed : r.Below e d) :
    OneWay w.builder.build.Edge d.nodeId p.nodeId := by
  have hsame : ∀ a e' y, r.FirstBelow e' a →
      Join w.builder.build.Edge d.nodeId p.nodeId a.nodeId y → e = e' := by
    intro a e' y ha hjoin
    obtain ⟨hda, hap⟩ := hw.below_of_join hplain (listed_of_mem hnames hd) (listed_of_mem hnames hp)
      (ha.listed hnames) hjoin
    exact (hep.of_below (hed.trans hda) hap).eq hnames ha
  rw [hw.oneWay_iff h hplain hnames hd hrequested hp]
  intro a b e₁ e₂ ha hb hjoin
  rw [← hsame a e₁ _ ha hjoin, hsame b e₂ _ hb hjoin.symm]

end Walk

/-- Pruning leaves one way from a direct dependency to a package, unless packages that were first met
below different direct dependencies join on ways to it. -/
theorem prunesWays_toGraph (r : Report) (manager : Text) (hplain : r.NamesPlain)
    (hnames : (r.items.map Item.key).Nodup) (hd : d ∈ r.items) (hrequested : d.requested = true)
    (hp : p ∈ r.items) : r.PrunesWays (r.toGraph manager) d p := by
  obtain ⟨w, hrounds, hbuild⟩ := Walk.rounds_toGraph r manager
  have hw := hrounds.finished hplain
  rw [hbuild]
  exact {
    oneWay_iff := hw.oneWay_iff hrounds hplain hnames hd hrequested hp
    oneWay_of_first := fun _ => hw.oneWay_of_first hrounds hplain hnames hd hrequested hp
    pruned_leaf := fun _ => hw.isPruned_of_reach hplain }

theorem prunesWays_toGraph_overlap :
    overlap.NamesPlain ∧ (overlap.items.map Item.key).Nodup ∧ batchItem ∈ overlap.items ∧
      batchItem.requested = true ∧ dataItem ∈ overlap.items ∧
      overlap.PrunesWays (overlap.toGraph "pip") batchItem dataItem := by
  have hplain : overlap.NamesPlain := by unfold Report.NamesPlain; decide
  have hnames : (overlap.items.map Item.key).Nodup := by decide
  have hbatch : batchItem ∈ overlap.items := by decide
  have hdata : dataItem ∈ overlap.items := by decide
  exact ⟨hplain, hnames, hbatch, rfl, hdata,
    prunesWays_toGraph overlap "pip" hplain hnames hbatch rfl hdata⟩

/-! ## Two ways -/

theorem directNames_eq {names : List Text}
    (h : (r.items.filter Item.requested).map Item.key = names)
    (hsorted : names.Pairwise fun s t => Text.le s t = true) : r.directNames = names := by
  rw [Report.directNames, h, Text.sort_of_pairwise hsorted]

theorem dependencyNames_eq {i : Item} {names : List Text}
    (h : requiredNames (i.requires.getD []) (i.extras.getD []) = names)
    (hsorted : names.Pairwise fun s t => Text.le s t = true) : i.dependencyNames = names := by
  rw [Item.dependencyNames, h, Text.sort_of_pairwise hsorted]

namespace Walk

/-- The walk through `overlap` after the round of its first direct dependency. -/
def overlapFirst : Walk :=
  (((Walk.start "pip").expand rootId appItem).expand appItem.nodeId coreItem).expand coreItem.nodeId
    dataItem

/-- The walk through `overlap`. The second round comes to what the first one expanded and does not go
further down, so it has not met `data` there when it comes to it again. -/
def overlapSecond : Walk :=
  ((({ overlapFirst with visited := [] } : Walk).expand rootId batchItem).enter batchItem.nodeId
    coreItem).enter batchItem.nodeId dataItem

theorem rounds_overlap :
    Rounds overlap overlap.directNames (Walk.start "pip") overlapSecond := by
  have hdirect : overlap.directNames = (["app", "batch"] : List Text) :=
    directNames_eq (by decide +kernel) (by decide)
  have happ : appItem.dependencyNames = (["core"] : List Text) :=
    dependencyNames_eq (by decide +kernel) (by decide)
  have hbatch : batchItem.dependencyNames = (["core", "data"] : List Text) :=
    dependencyNames_eq (by decide +kernel) (by decide)
  have hcore : coreItem.dependencyNames = (["data"] : List Text) :=
    dependencyNames_eq (by decide +kernel) (by decide)
  have hdata : dataItem.dependencyNames = ([] : List Text) :=
    dependencyNames_eq (by decide +kernel) (by decide)
  have hiapp : overlap.item? "app" = some appItem := by decide +kernel
  have hibatch : overlap.item? "batch" = some batchItem := by decide +kernel
  have hicore : overlap.item? "core" = some coreItem := by decide +kernel
  have hidata : overlap.item? "data" = some dataItem := by decide +kernel
  have hfirst : Descends overlap rootId ["app"] (Walk.start "pip") overlapFirst := by
    refine .expand hiapp (by decide) (by decide) ?_ (.done _ _)
    rw [happ]
    refine .expand hicore (by decide +kernel) (by decide +kernel) ?_ (.done _ _)
    rw [hcore]
    refine .expand hidata (by decide +kernel) (by decide +kernel) ?_ (.done _ _)
    rw [hdata]
    exact .done _ _
  have hsecond : Descends overlap rootId ["batch"] { overlapFirst with visited := [] }
      overlapSecond := by
    refine .expand hibatch (by decide +kernel) (by decide +kernel) ?_ (.done _ _)
    rw [hbatch]
    refine .enter hicore (by decide +kernel) (by decide +kernel) ?_
    refine .enter hidata (by decide +kernel) (by decide +kernel) ?_
    exact .done _ _
  rw [hdirect]
  exact .next hfirst (.next hsecond (.done _))

end Walk

/-- The second direct dependency leads to a package in two ways, though its name and all others are
plain and distinct. -/
theorem two_ways_to_dataItem :
    overlap.NamesPlain ∧ (overlap.items.map Item.key).Nodup ∧ batchItem ∈ overlap.items ∧
      batchItem.requested = true ∧ dataItem ∈ overlap.items ∧
      ¬OneWay (overlap.toGraph "pip").Edge batchItem.nodeId dataItem.nodeId := by
  have hplain : overlap.NamesPlain := by unfold Report.NamesPlain; decide
  refine ⟨hplain, by decide, by decide, rfl, by decide, fun hone => ?_⟩
  rw [Walk.rounds_overlap.toGraph_eq] at hone
  have hbatch : Walk.overlapSecond.builder.build.Edge batchItem.nodeId dataItem.nodeId := by
    unfold DependencyGraph.Edge; decide +kernel
  have hcore : Walk.overlapSecond.builder.build.Edge batchItem.nodeId coreItem.nodeId := by
    unfold DependencyGraph.Edge; decide +kernel
  have hdata : Walk.overlapSecond.builder.build.Edge coreItem.nodeId dataItem.nodeId := by
    unfold DependencyGraph.Edge; decide +kernel
  have heq := hone _ _ (Way.here.step hbatch) ((Way.here.step hcore).step hdata)
  simp at heq

end ManifestGraph.Pip
