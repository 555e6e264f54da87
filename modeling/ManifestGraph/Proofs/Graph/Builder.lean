/-
  What a graph under construction always is. `Sound` holds of a builder that holds its root, every
  addition and every edge keeps it, and so does every sequence of calls, refused ones included
  (`sound_run`). A sound builder builds a valid document (`Sound.valid_build`).

  A refused call leaves the builder as it is, so it can as well be dropped (`run_accepted`).
-/
import ManifestGraph.Graph.Builder
import ManifestGraph.Proofs.Graph.Validity

namespace ManifestGraph.GraphBuilder

open DependencyGraph (firsts firsts_append_singleton mem_firsts nodup_firsts)

variable {b b' : GraphBuilder} {id parent child : Text} {package : PackageInfo}
  {info : Option NodeInfo}

/-- The ids of the nodes, in order. -/
def ids (b : GraphBuilder) : List Text := b.nodes.map Node.id

/-! ## What an addition and an edge change -/

theorem hasNode_iff : b.hasNode id = true ↔ id ∈ b.ids := by
  simp [hasNode, ids]

theorem add_of_mem (h : id ∈ b.ids) : b.add id package info = b := by
  rw [add, if_pos (hasNode_iff.mpr h)]

theorem nodes_add_of_not_mem (h : id ∉ b.ids) :
    (b.add id package info).nodes = b.nodes ++ [⟨id, package.id, info, []⟩] := by
  rw [add, if_neg (by rwa [hasNode_iff])]

/-- A package is new if its id is. -/
theorem packages_add_of_not_mem (h : id ∉ b.ids) :
    (b.add id package info).packages =
      if package.id ∈ b.packages.map Package.id then b.packages
      else b.packages ++ [⟨package.id, package⟩] := by
  rw [add, if_neg (by rwa [hasNode_iff])]
  simp

@[simp] theorem manager_add : (b.add id package info).manager = b.manager := by
  unfold add; split <;> rfl

@[simp] theorem rootPackage_add : (b.add id package info).rootPackage = b.rootPackage := by
  unfold add; split <;> rfl

@[simp] theorem ids_link : (b.link parent child).ids = b.ids := by
  simp only [ids, link, List.map_map]
  refine List.map_congr_left fun n _ => ?_
  dsimp only [Function.comp]
  split <;> rfl

@[simp] theorem packages_link : (b.link parent child).packages = b.packages := rfl

@[simp] theorem rootPackage_link : (b.link parent child).rootPackage = b.rootPackage := rfl

/-- Children apart, an edge keeps every node. -/
theorem map_nodes_link {β : Type} (f : Node → β)
    (hf : ∀ n children, f { n with children } = f n) :
    (b.link parent child).nodes.map f = b.nodes.map f := by
  simp only [link, List.map_map]
  refine List.map_congr_left fun n _ => ?_
  dsimp only [Function.comp]
  split
  · exact hf n _
  · rfl

theorem mem_ids_add {x : Text} : x ∈ (b.add id package info).ids ↔ x = id ∨ x ∈ b.ids := by
  by_cases h : id ∈ b.ids
  · rw [add_of_mem h]
    constructor
    · exact Or.inr
    · rintro (rfl | hx)
      · exact h
      · exact hx
  · simp [ids, nodes_add_of_not_mem h, or_comm]

/-! ## Children -/

/-- The children of the node with an id; none without such a node. -/
def childrenOf (b : GraphBuilder) (id : Text) : List Text := ((b.node? id).map Node.children).getD []

theorem node?_isSome_iff : (b.node? id).isSome = true ↔ id ∈ b.ids := by
  simp [node?, ids]

theorem childrenOf_of_not_mem (h : id ∉ b.ids) : b.childrenOf id = [] := by
  rw [childrenOf, Option.not_isSome_iff_eq_none.mp (mt node?_isSome_iff.mp h)]
  rfl

theorem node?_of_mem (hb : b.ids.Nodup) {n : Node} (hn : n ∈ b.nodes) : b.node? n.id = some n := by
  have hsome : (b.node? n.id).isSome = true := node?_isSome_iff.mpr (List.mem_map_of_mem hn)
  obtain ⟨m, hm⟩ := Option.isSome_iff_exists.mp hsome
  have hid : m.id = n.id := by simpa using List.find?_some hm
  rw [hm, List.inj_on_of_nodup_map hb (List.mem_of_find?_eq_some hm) hn hid]

theorem childrenOf_of_mem (hb : b.ids.Nodup) {n : Node} (hn : n ∈ b.nodes) :
    b.childrenOf n.id = n.children := by
  rw [childrenOf, node?_of_mem hb hn]
  rfl

@[simp] theorem childrenOf_add {x : Text} :
    (b.add id package info).childrenOf x = b.childrenOf x := by
  by_cases h : id ∈ b.ids
  · rw [add_of_mem h]
  · by_cases hx : x = id
    · subst hx
      rw [childrenOf_of_not_mem h, childrenOf, node?, nodes_add_of_not_mem h, List.find?_append]
      have hnone : b.nodes.find? (fun n => n.id = x) = none :=
        Option.not_isSome_iff_eq_none.mp (mt node?_isSome_iff.mp h)
      simp [hnone]
    · rw [childrenOf, node?, nodes_add_of_not_mem h, List.find?_append]
      have hnone : [(⟨id, package.id, info, []⟩ : Node)].find? (fun n => n.id = x) = none := by
        simp [Ne.symm hx]
      rw [hnone, Option.or_none]
      rfl

theorem childrenOf_link {x : Text} (h : parent ∈ b.ids) :
    (b.link parent child).childrenOf x =
      if x = parent then b.childrenOf x ++ [child] else b.childrenOf x := by
  have hid : ∀ n : Node, (if n.id = parent then { n with children := n.children ++ [child] }
      else n).id = n.id := by
    intro n; split <;> rfl
  have hfind : (b.link parent child).node? x = (b.node? x).map fun n =>
      if n.id = parent then { n with children := n.children ++ [child] } else n := by
    simp only [node?, link, List.find?_map, Function.comp_def, hid]
  cases hn : b.node? x with
  | none =>
    have hx : x ≠ parent := by
      rintro rfl
      rw [← node?_isSome_iff, hn] at h
      cases h
    rw [if_neg hx, childrenOf, childrenOf, hfind, hn]
    rfl
  | some n =>
    have hnx : n.id = x := by simpa using List.find?_some hn
    rw [childrenOf, childrenOf, hfind, hn, Option.map_some, Option.map_some, Option.getD_some,
      Option.map_some, Option.getD_some, hnx]
    split <;> rfl

/-! ## A node below another -/

/-- A node for a package, below a node that is there. -/
def attach (b : GraphBuilder) (parent id : Text) (package : PackageInfo)
    (info : Option NodeInfo := none) : GraphBuilder :=
  (b.add id package info).link parent id

theorem childrenOf_attach {x : Text} (h : parent ∈ b.ids) :
    (b.attach parent id package info).childrenOf x =
      if x = parent then b.childrenOf x ++ [id] else b.childrenOf x := by
  rw [attach, childrenOf_link (mem_ids_add.mpr (Or.inr h)), childrenOf_add]

theorem mem_ids_attach {x : Text} :
    x ∈ (b.attach parent id package info).ids ↔ x = id ∨ x ∈ b.ids := by
  rw [attach, ids_link, mem_ids_add]

@[simp] theorem rootPackage_attach :
    (b.attach parent id package info).rootPackage = b.rootPackage := by
  rw [attach, rootPackage_link, rootPackage_add]

/-- Children apart, a node is an old one or the new one. -/
theorem mem_nodes_attach {n : Node} (hn : n ∈ (b.attach parent id package info).nodes) :
    (∃ m ∈ b.nodes, n.id = m.id ∧ n.package = m.package ∧ n.info = m.info) ∨
      id ∉ b.ids ∧ n.id = id ∧ n.package = package.id ∧ n.info = info := by
  simp only [attach, link, List.mem_map] at hn
  obtain ⟨m, hm, rfl⟩ := hn
  have hkeep : ∀ m : Node, (if m.id = parent then { m with children := m.children ++ [id] }
      else m).id = m.id ∧ (if m.id = parent then { m with children := m.children ++ [id] }
      else m).package = m.package ∧ (if m.id = parent then { m with children := m.children ++ [id] }
      else m).info = m.info := by
    intro m; split <;> exact ⟨rfl, rfl, rfl⟩
  by_cases hid : id ∈ b.ids
  · rw [add_of_mem hid] at hm
    exact Or.inl ⟨m, hm, hkeep m⟩
  · rw [nodes_add_of_not_mem hid] at hm
    rcases List.mem_append.mp hm with hm | hm
    · exact Or.inl ⟨m, hm, hkeep m⟩
    · have hm := List.mem_singleton.mp hm
      subst hm
      exact Or.inr ⟨hid, hkeep _⟩

theorem mem_packages_attach {p : Package} (hp : p ∈ (b.attach parent id package info).packages) :
    p ∈ b.packages ∨ p.info = package := by
  rw [attach, packages_link] at hp
  by_cases hid : id ∈ b.ids
  · rw [add_of_mem hid] at hp
    exact Or.inl hp
  · rw [packages_add_of_not_mem hid] at hp
    split at hp
    · exact Or.inl hp
    · rcases List.mem_append.mp hp with hp | hp
      · exact Or.inl hp
      · rw [List.mem_singleton.mp hp]; exact Or.inr rfl

/-! ## The invariant -/

/-- A graph under construction: ids are unique, the packages are those of the nodes in order of first
use, the root comes first, and children are there. -/
structure Sound (b : GraphBuilder) : Prop where
  nodes_distinct : b.ids.Nodup
  packages_used : b.packages.map Package.id = firsts (b.nodes.map Node.package)
  package_ids : ∀ p ∈ b.packages, p.id = p.info.id
  root_first : b.nodes.head?.map (fun n => (n.id, n.package)) = some (rootId, b.rootPackage)
  child_known : ∀ n ∈ b.nodes, ∀ c ∈ n.children, c ∈ b.ids

theorem sound_start (manager : PackageManager) (root : PackageInfo) :
    Sound (start manager root) where
  nodes_distinct := by simp [start, add, hasNode, ids]
  packages_used := by simp [start, add, hasNode, firsts]
  package_ids := by simp [start, add, hasNode]
  root_first := by simp [start, add, hasNode]
  child_known := by simp [start, add, hasNode]

/-- The packages after an addition are those of the nodes in order of first use. -/
theorem Sound.packages_used_add (h : Sound b) (hid : id ∉ b.ids) :
    (b.add id package info).packages.map Package.id =
      firsts ((b.add id package info).nodes.map Node.package) := by
  rw [packages_add_of_not_mem hid, nodes_add_of_not_mem hid, List.map_append, List.map_singleton,
    firsts_append_singleton, ← h.packages_used]
  have hmem : package.id ∈ b.packages.map Package.id ↔ package.id ∈ b.nodes.map Node.package := by
    rw [h.packages_used, mem_firsts]
  by_cases hp : package.id ∈ b.packages.map Package.id
  · rw [if_pos hp, if_pos (hmem.mp hp)]
  · rw [if_neg hp, if_neg (mt hmem.mpr hp), List.map_append, List.map_singleton]

theorem Sound.add (h : Sound b) : Sound (b.add id package info) := by
  by_cases hid : id ∈ b.ids
  · rwa [add_of_mem hid]
  · refine ⟨?_, h.packages_used_add hid, ?_, ?_, ?_⟩
    · rw [ids, nodes_add_of_not_mem hid, List.map_append, List.map_singleton]
      exact List.nodup_append'.mpr
        ⟨h.nodes_distinct, List.nodup_singleton _, List.disjoint_singleton.mpr hid⟩
    · intro p hp
      rw [packages_add_of_not_mem hid] at hp
      split at hp
      · exact h.package_ids p hp
      · rcases List.mem_append.mp hp with hp | hp
        · exact h.package_ids p hp
        · rw [List.mem_singleton.mp hp]
    · -- the root stays first: there is a first node already
      have hroot := h.root_first
      rw [nodes_add_of_not_mem hid, rootPackage_add]
      cases hn : b.nodes with
      | nil => rw [hn] at hroot; simp at hroot
      | cons n ns => rw [hn] at hroot; exact hroot
    · intro n hn c hc
      rw [nodes_add_of_not_mem hid] at hn
      rcases List.mem_append.mp hn with hn | hn
      · exact mem_ids_add.mpr (Or.inr (h.child_known n hn c hc))
      · rw [List.mem_singleton.mp hn] at hc
        exact absurd hc (List.not_mem_nil)

theorem Sound.link (h : Sound b) (hchild : child ∈ b.ids) : Sound (b.link parent child) where
  nodes_distinct := by rw [ids_link]; exact h.nodes_distinct
  packages_used := by
    rw [packages_link, map_nodes_link Node.package fun _ _ => rfl]
    exact h.packages_used
  package_ids := h.package_ids
  root_first := by
    have hmap : (b.link parent child).nodes.map (fun n => (n.id, n.package)) =
        b.nodes.map fun n => (n.id, n.package) := map_nodes_link _ fun _ _ => rfl
    rw [← List.head?_map, hmap, List.head?_map]
    exact h.root_first
  child_known := by
    intro n hn c hc
    rw [ids_link]
    simp only [GraphBuilder.link, List.mem_map] at hn
    obtain ⟨m, hm, rfl⟩ := hn
    split at hc
    · rcases List.mem_append.mp hc with hc | hc
      · exact h.child_known m hm c hc
      · rwa [List.mem_singleton.mp hc]
    · exact h.child_known m hm c hc

theorem Sound.attach (h : Sound b) : Sound (b.attach parent id package info) :=
  h.add.link (mem_ids_add.mpr (Or.inl rfl))

theorem connect_eq_ok_iff :
    b.connect parent child = .ok b' ↔
      parent ∈ b.ids ∧ child ∈ b.ids ∧ b' = b.link parent child := by
  by_cases hp : parent ∈ b.ids
  · by_cases hc : child ∈ b.ids
    · simp [connect, hasNode_iff.mpr hp, hasNode_iff.mpr hc, hp, hc, eq_comm]
    · have : b.hasNode child = false := by rw [← Bool.not_eq_true, hasNode_iff]; exact hc
      simp [connect, hasNode_iff.mpr hp, this, hc]
  · have : b.hasNode parent = false := by rw [← Bool.not_eq_true, hasNode_iff]; exact hp
    simp [connect, this, hp]

theorem Sound.connect (h : Sound b) (hc : b.connect parent child = .ok b') : Sound b' := by
  obtain ⟨_, hchild, rfl⟩ := connect_eq_ok_iff.mp hc
  exact h.link hchild

/-! ## Sequences of calls -/

/-- A call to a builder. -/
inductive Call where
  | add (id : Text) (package : PackageInfo) (info : Option NodeInfo)
  | connect (parent child : Text)
  deriving DecidableEq

/-- What a call does; only an edge can be refused. -/
def Call.apply (b : GraphBuilder) : Call → Except Failure GraphBuilder
  | .add id package info => .ok (b.add id package info)
  | .connect parent child => b.connect parent child

/-- The builder after a call, which a refused one leaves as it is. -/
def after (b : GraphBuilder) (c : Call) : GraphBuilder :=
  match c.apply b with
  | .ok b' => b'
  | .error _ => b

/-- The builder after some calls. -/
def run (b : GraphBuilder) (calls : List Call) : GraphBuilder := calls.foldl after b

/-- The calls that are not refused when all are made in turn. -/
def accepted (b : GraphBuilder) : List Call → List Call
  | [] => []
  | c :: calls =>
    match c.apply b with
    | .ok b' => c :: accepted b' calls
    | .error _ => accepted b calls

theorem Sound.after (h : Sound b) (c : Call) : Sound (b.after c) := by
  unfold GraphBuilder.after
  split
  next b' hb' =>
    cases c with
    | add id package info => cases hb'; exact h.add
    | connect parent child => exact h.connect hb'
  next => exact h

theorem Sound.run (h : Sound b) (calls : List Call) : Sound (b.run calls) := by
  induction calls generalizing b with
  | nil => exact h
  | cons c calls ih => exact ih (h.after c)

@[simp] theorem rootPackage_after (c : Call) : (b.after c).rootPackage = b.rootPackage := by
  unfold after
  split
  next b' hb' =>
    cases c with
    | add id package info => cases hb'; exact rootPackage_add
    | connect parent child => obtain ⟨_, _, rfl⟩ := connect_eq_ok_iff.mp hb'; rfl
  next => rfl

/-- Refused calls may be dropped. -/
theorem run_accepted (calls : List Call) : b.run (b.accepted calls) = b.run calls := by
  induction calls generalizing b with
  | nil => rfl
  | cons c calls ih =>
    cases hc : c.apply b with
    | ok b' =>
      have hafter : b.after c = b' := by rw [GraphBuilder.after, hc]
      rw [accepted, hc]
      show (b.after c).run (b'.accepted calls) = (b.after c).run calls
      rw [hafter]
      exact ih
    | error e =>
      have hafter : b.after c = b := by rw [GraphBuilder.after, hc]
      rw [accepted, hc]
      show b.run (b.accepted calls) = (b.after c).run calls
      rw [hafter]
      exact ih

/-- What is left after the refused calls are dropped is accepted to the end. -/
theorem accepted_accepted (calls : List Call) :
    b.accepted (b.accepted calls) = b.accepted calls := by
  induction calls generalizing b with
  | nil => rfl
  | cons c calls ih =>
    cases hc : c.apply b with
    | ok b' => simp only [accepted, hc, ih]
    | error e => simp only [accepted, hc, ih]

/-! ## The document -/

/-- What a sound builder builds is valid. -/
theorem Sound.valid_build (h : Sound b) : b.build.Valid where
  packages_distinct := by
    rw [show b.build.packages = b.packages from rfl, h.packages_used]
    exact nodup_firsts _
  nodes_distinct := h.nodes_distinct
  one_root := by
    have hroot := h.root_first
    refine List.count_eq_one_of_mem h.nodes_distinct ?_
    cases hn : b.nodes with
    | nil => rw [hn] at hroot; simp at hroot
    | cons n ns =>
      rw [hn] at hroot
      simp only [List.head?_cons, Option.map_some, Option.some.injEq, Prod.mk.injEq] at hroot
      show rootId ∈ b.nodes.map Node.id
      rw [hn, List.map_cons, hroot.1]
      exact List.mem_cons_self
  package_known := by
    intro n hn
    rw [show b.build.packages = b.packages from rfl, h.packages_used, mem_firsts]
    exact List.mem_map_of_mem hn
  child_known := h.child_known

end ManifestGraph.GraphBuilder
