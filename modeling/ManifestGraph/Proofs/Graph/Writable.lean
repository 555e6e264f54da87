/-
  Graphs that a document can hold: no text in them has a lone half, and a node's labels have distinct
  keys (`DependencyGraph.Writable`). A graph that is built of such parts is one
  (`GraphBuilder.Writable.build`).
-/
import ManifestGraph.Proofs.Graph.Builder
import ManifestGraph.Proofs.Text.Halves

namespace ManifestGraph

/-- The package manager's texts hold no lone halves. -/
structure PackageManager.Writable (m : PackageManager) : Prop where
  name : m.name.isScalar = true
  version : ∀ t, m.version = some t → t.isScalar = true
  repositories : ∀ names, m.repositories = some names → ∀ t ∈ names, t.isScalar = true

/-- The texts of a package's identity hold no lone halves. -/
structure PackageInfo.Writable (p : PackageInfo) : Prop where
  name : p.name.isScalar = true
  version : ∀ t, p.version = some t → t.isScalar = true
  purl : ∀ t, p.purl = some t → t.isScalar = true

/-- The texts of a package hold no lone halves. -/
structure Package.Writable (p : Package) : Prop where
  id : p.id.isScalar = true
  info : p.info.Writable

/-- The texts of a provenance hold no lone halves. -/
structure Provenance.Writable (p : Provenance) : Prop where
  type : p.type.isScalar = true
  location : p.location.isScalar = true
  property : ∀ t, p.property = some t → t.isScalar = true

/-- Labels with distinct keys, and without lone halves. -/
structure LabelsWritable (labels : List (Text × Text)) : Prop where
  distinct : (labels.map Prod.fst).Nodup
  texts : ∀ l ∈ labels, l.1.isScalar = true ∧ l.2.isScalar = true

/-- What is known of a node can be written. -/
structure NodeInfo.Writable (i : NodeInfo) : Prop where
  provenance : ∀ p, i.provenance = some p → p.Writable
  labels : ∀ labels, i.labels = some labels → LabelsWritable labels

/-- A node that can be written. -/
structure Node.Writable (n : Node) : Prop where
  id : n.id.isScalar = true
  package : n.package.isScalar = true
  info : ∀ i, n.info = some i → i.Writable
  children : ∀ t ∈ n.children, t.isScalar = true

/-- A graph that can be written. -/
structure DependencyGraph.Writable (g : DependencyGraph) : Prop where
  schema : g.schema.isScalar = true
  manager : g.manager.Writable
  packages : ∀ p ∈ g.packages, p.Writable
  root : g.root.isScalar = true
  nodes : ∀ n ∈ g.nodes, n.Writable

/-- A manager without version and repositories. -/
theorem PackageManager.writable_named {name : Text} (h : name.isScalar = true) :
    PackageManager.Writable { name } :=
  ⟨h, fun _ ht => (nomatch ht), fun _ ht => (nomatch ht)⟩

/-- The id of a package with writable name and version has no lone halves. -/
theorem PackageInfo.Writable.isScalar_id {p : PackageInfo} (h : p.Writable) : p.id.isScalar = true := by
  rw [PackageInfo.id, Text.isScalar_append, Text.isScalar_append]
  refine ⟨⟨h.name, Text.isScalar_ofString "@"⟩, ?_⟩
  cases hversion : p.version with
  | none => rfl
  | some t => exact h.version t hversion

/-! ## Building -/

namespace GraphBuilder

variable {b : GraphBuilder} {id parent child : Text} {package : PackageInfo} {info : Option NodeInfo}

/-- A builder of a graph that can be written. -/
structure Writable (b : GraphBuilder) : Prop where
  manager : b.manager.Writable
  packages : ∀ p ∈ b.packages, p.Writable
  nodes : ∀ n ∈ b.nodes, n.Writable

/-- The parts of a call can be written. -/
def Call.Writable : Call → Prop
  | .add id package info => id.isScalar = true ∧ package.Writable ∧ ∀ i, info = some i → i.Writable
  | .connect _ child => child.isScalar = true

theorem Writable.add (h : b.Writable) (hid : id.isScalar = true) (hpackage : package.Writable)
    (hinfo : ∀ i, info = some i → i.Writable) : (b.add id package info).Writable := by
  by_cases hmem : id ∈ b.ids
  · rw [add_of_mem hmem]; exact h
  refine ⟨by rw [manager_add]; exact h.manager, ?_, ?_⟩
  · rw [packages_add_of_not_mem hmem]
    split
    next => exact h.packages
    next =>
      exact List.forall_mem_append.mpr
        ⟨h.packages, List.forall_mem_singleton.mpr ⟨hpackage.isScalar_id, hpackage⟩⟩
  · rw [nodes_add_of_not_mem hmem]
    exact List.forall_mem_append.mpr
      ⟨h.nodes, List.forall_mem_singleton.mpr
        ⟨hid, hpackage.isScalar_id, hinfo, List.forall_mem_nil _⟩⟩

theorem Writable.link (h : b.Writable) (hchild : child.isScalar = true) :
    (b.link parent child).Writable := by
  refine ⟨h.manager, h.packages, fun n hn => ?_⟩
  obtain ⟨m, hm, rfl⟩ := List.mem_map.mp hn
  have hm := h.nodes m hm
  split
  next =>
    exact ⟨hm.id, hm.package, hm.info,
      List.forall_mem_append.mpr ⟨hm.children, List.forall_mem_singleton.mpr hchild⟩⟩
  next => exact hm

theorem Writable.attach (h : b.Writable) (hid : id.isScalar = true) (hpackage : package.Writable)
    (hinfo : ∀ i, info = some i → i.Writable) : (b.attach parent id package info).Writable :=
  (h.add hid hpackage hinfo).link hid

theorem writable_start {manager : PackageManager} {root : PackageInfo} (hmanager : manager.Writable)
    (hroot : root.Writable) : (start manager root).Writable :=
  Writable.add ⟨hmanager, List.forall_mem_nil _, List.forall_mem_nil _⟩ (Text.isScalar_ofString _) hroot
    fun _ hi => (nomatch hi)

theorem Writable.after (h : b.Writable) {c : Call} (hc : c.Writable) : (b.after c).Writable := by
  unfold GraphBuilder.after
  split
  next b' hb' =>
    cases c with
    | add id package info => cases hb'; exact h.add hc.1 hc.2.1 hc.2.2
    | connect parent child =>
      obtain ⟨_, _, rfl⟩ := connect_eq_ok_iff.mp hb'
      exact h.link hc
  next => exact h

theorem Writable.run (h : b.Writable) {calls : List Call} (hcalls : ∀ c ∈ calls, c.Writable) :
    (b.run calls).Writable := by
  induction calls generalizing b with
  | nil => exact h
  | cons c calls ih =>
    rw [List.forall_mem_cons] at hcalls
    exact ih (h.after hcalls.1) hcalls.2

/-- What is built of writable parts can be written. -/
theorem Writable.build (h : b.Writable) : b.build.Writable :=
  ⟨Text.isScalar_ofString _, h.manager, h.packages, Text.isScalar_ofString _, h.nodes⟩

end GraphBuilder
end ManifestGraph
