/-
  What a directed graph knows after it was built. `Holds` tells of a graph which nodes were declared and
  which edges were added to it, and that it has no node and no edge twice: adding a node or an edge keeps
  it so (`Holds.addNode`, `Holds.addEdge`), and so does a whole document (`holds_digraph`). The edges of
  the graph are then the links of the document, each once (`Holds.mem_edges`, `Holds.nodup_edges`), and a
  link leads to an undeclared node if no node of the document has the id (`Holds.mem_undeclared`).
-/
import ManifestGraph.Graph.Digraph
import ManifestGraph.Proofs.Data.Settled

namespace ManifestGraph

variable {d : Digraph} {names : List Text} {pairs : List (Text × Text)}
  {id x package parent child child' : Text} {v : Vertex}

namespace Vertex

@[simp] theorem package_link : (v.link child).package = v.package := by
  unfold link
  split
  next => rfl
  next => rfl

theorem mem_children_link : child' ∈ (v.link child).children ↔ child' ∈ v.children ∨ child' = child := by
  unfold link
  split
  next h =>
    rw [iff_self_or]
    rintro rfl
    exact List.contains_iff_mem.mp h
  next => rw [List.mem_append, List.mem_singleton]

theorem nodup_children_link (h : v.children.Nodup) : (v.link child).children.Nodup := by
  unfold link
  split
  next => exact h
  next hnew =>
    have hdisjoint := List.disjoint_singleton.mpr (mt List.contains_iff_mem.mpr hnew)
    exact List.nodup_append'.mpr ⟨h, List.nodup_singleton _, hdisjoint⟩

end Vertex

namespace Digraph

/-- The ids of the nodes, declared or not. -/
def ids (d : Digraph) : List Text := d.vertices.map Prod.fst

/-! ## One update -/

@[simp] theorem vertex_put : (d.put id v).vertex x = if x = id then v else d.vertex x := by
  rw [vertex, put, lookup_putMember]
  split
  next => rfl
  next => rfl

@[simp] theorem mem_ids_put : x ∈ (d.put id v).ids ↔ x = id ∨ x ∈ d.ids := mem_keys_putMember

theorem nodup_ids_put (h : d.ids.Nodup) : (d.put id v).ids.Nodup := nodup_putMember h

@[simp] theorem vertex_mention : (d.mention id).vertex x = d.vertex x := by
  rw [mention, vertex_put]
  split
  next h => rw [h]
  next => rfl

@[simp] theorem mem_ids_mention : x ∈ (d.mention id).ids ↔ x = id ∨ x ∈ d.ids := mem_ids_put

theorem vertex_addEdge : (d.addEdge parent child).vertex x =
    if x = parent then (d.vertex parent).link child else d.vertex x := by
  simp only [addEdge, vertex_put, vertex_mention]

theorem mem_ids_addEdge :
    x ∈ (d.addEdge parent child).ids ↔ x = parent ∨ x = child ∨ x ∈ d.ids := by
  simp only [addEdge, mem_ids_put, mem_ids_mention]
  tauto

theorem nodup_ids_addEdge (h : d.ids.Nodup) : (d.addEdge parent child).ids.Nodup :=
  nodup_ids_put (nodup_ids_put (nodup_ids_put h))

/-! ## All updates -/

/-- The graph after these nodes were declared and these edges were added. -/
structure Holds (d : Digraph) (names : List Text) (pairs : List (Text × Text)) : Prop where
  ids_distinct : d.ids.Nodup
  children_distinct : ∀ id, (d.vertex id).children.Nodup
  declared : ∀ id, (d.vertex id).package.isSome ↔ id ∈ names
  linked : ∀ parent child, child ∈ (d.vertex parent).children ↔ (parent, child) ∈ pairs
  known : ∀ id, id ∈ d.ids ↔ id ∈ names ∨ ∃ link ∈ pairs, id = link.1 ∨ id = link.2

theorem holds_empty : Holds {} [] [] where
  ids_distinct := List.nodup_nil
  children_distinct := fun _ => List.nodup_nil
  declared := fun _ => iff_of_false Bool.false_ne_true List.not_mem_nil
  linked := fun _ _ => iff_of_false List.not_mem_nil List.not_mem_nil
  known := fun _ => by simp [ids]

theorem Holds.addNode (h : d.Holds names pairs) :
    (d.addNode id package).Holds (names ++ [id]) pairs where
  ids_distinct := nodup_ids_put h.ids_distinct
  children_distinct x := by
    rw [Digraph.addNode, vertex_put]
    split
    next => exact h.children_distinct id
    next => exact h.children_distinct x
  declared x := by
    rw [Digraph.addNode, vertex_put, List.mem_append, List.mem_singleton]
    split
    next hx => exact iff_of_true rfl (Or.inr hx)
    next hx => rw [h.declared x, or_iff_left hx]
  linked x child := by
    rw [Digraph.addNode, vertex_put, ← h.linked x child]
    split
    next hx => rw [hx]
    next => exact Iff.rfl
  known x := by
    rw [Digraph.addNode, mem_ids_put, h.known x, List.mem_append, List.mem_singleton]
    exact or_left_comm.trans or_assoc.symm

theorem Holds.addEdge (h : d.Holds names pairs) :
    (d.addEdge parent child).Holds names (pairs ++ [(parent, child)]) where
  ids_distinct := nodup_ids_addEdge h.ids_distinct
  children_distinct x := by
    rw [vertex_addEdge]
    split
    next => exact Vertex.nodup_children_link (h.children_distinct parent)
    next => exact h.children_distinct x
  declared x := by
    rw [vertex_addEdge, ← h.declared x]
    split
    next hx => rw [Vertex.package_link, hx]
    next => exact Iff.rfl
  linked x child' := by
    rw [vertex_addEdge, List.mem_append, List.mem_singleton, Prod.mk.injEq, ← h.linked x child']
    split
    next hx => rw [Vertex.mem_children_link, hx, and_iff_right rfl]
    next hx => rw [iff_self_or]; exact fun hsame => absurd hsame.1 hx
  known x := by
    simp only [mem_ids_addEdge, h.known x, List.mem_append, List.mem_singleton, or_and_right,
      exists_or, exists_eq_left]
    grind

theorem Holds.addEdges (h : d.Holds names pairs) (parent : Text) (children : List Text) :
    (children.foldl (fun d child => d.addEdge parent child) d).Holds names
      (pairs ++ children.map fun child => (parent, child)) := by
  induction children generalizing d pairs with
  | nil => rwa [List.map_nil, List.append_nil]
  | cons child children ih =>
    rw [List.foldl_cons, List.map_cons, List.append_cons]
    exact ih h.addEdge

theorem Holds.addNodes (h : d.Holds names pairs) (nodes : List Node) :
    (nodes.foldl (fun d n => d.addNode n.id n.package) d).Holds (names ++ nodes.map Node.id)
      pairs := by
  induction nodes generalizing d names with
  | nil => rwa [List.map_nil, List.append_nil]
  | cons n nodes ih =>
    rw [List.foldl_cons, List.map_cons, List.append_cons]
    exact ih h.addNode

theorem Holds.addLinks (h : d.Holds names pairs) (nodes : List Node) :
    (nodes.foldl (fun d n => n.children.foldl (fun d child => d.addEdge n.id child) d) d).Holds names
      (pairs ++ nodes.flatMap fun n => n.children.map fun child => (n.id, child)) := by
  induction nodes generalizing d pairs with
  | nil => rwa [List.flatMap_nil, List.append_nil]
  | cons n nodes ih =>
    rw [List.foldl_cons, List.flatMap_cons, ← List.append_assoc]
    exact ih (h.addEdges n.id n.children)

/-! ## Edges and undeclared nodes -/

theorem mem_vertices_iff (h : d.ids.Nodup) : (id, v) ∈ d.vertices ↔ id ∈ d.ids ∧ d.vertex id = v := by
  constructor
  · intro hv
    exact ⟨List.mem_map_of_mem hv, by rw [vertex, lookup_of_mem h hv]; rfl⟩
  · rintro ⟨hid, rfl⟩
    obtain ⟨⟨_, v⟩, hv, rfl⟩ := List.mem_map.mp hid
    rw [vertex, lookup_of_mem h hv]
    exact hv

/-- The edges are the links that were added. -/
theorem Holds.mem_edges (h : d.Holds names pairs) (link : Text × Text) :
    link ∈ d.edges ↔ link ∈ pairs := by
  obtain ⟨parent, child⟩ := link
  rw [← h.linked, edges, List.mem_flatMap]
  constructor
  · rintro ⟨⟨id, v⟩, hv, hlink⟩
    obtain ⟨child, hchild, heq⟩ := List.mem_map.mp hlink
    cases heq
    rw [((mem_vertices_iff h.ids_distinct).mp hv).2]
    exact hchild
  · intro hchild
    have hid : parent ∈ d.ids :=
      (h.known parent).mpr (Or.inr ⟨_, (h.linked parent child).mp hchild, Or.inl rfl⟩)
    exact ⟨(parent, d.vertex parent), (mem_vertices_iff h.ids_distinct).mpr ⟨hid, rfl⟩,
      List.mem_map_of_mem hchild⟩

/-- No edge is there twice, even if it was added twice. -/
theorem Holds.nodup_edges (h : d.Holds names pairs) : d.edges.Nodup := by
  refine List.nodup_flatMap.mpr ⟨?_, ?_⟩
  · rintro ⟨id, v⟩ hv
    rw [← ((mem_vertices_iff h.ids_distinct).mp hv).2]
    exact (h.children_distinct id).map fun _ _ heq => (Prod.mk.inj heq).2
  · refine (List.pairwise_map.mp h.ids_distinct).imp fun {a b} hne => ?_
    intro link ha hb
    obtain ⟨_, _, rfl⟩ := List.mem_map.mp ha
    obtain ⟨_, _, heq⟩ := List.mem_map.mp hb
    exact hne (Prod.mk.inj heq).1.symm

/-- Of the nodes of the graph those are undeclared that were not declared. -/
theorem Holds.mem_undeclared (h : d.Holds names pairs) :
    id ∈ d.undeclared ↔ id ∈ d.ids ∧ id ∉ names := by
  rw [← h.declared, Bool.not_eq_true, Option.isSome_eq_false_iff, undeclared, List.mem_map]
  constructor
  · rintro ⟨⟨id, v⟩, hv, rfl⟩
    rw [List.mem_filter, mem_vertices_iff h.ids_distinct] at hv
    obtain ⟨⟨hid, rfl⟩, hnone⟩ := hv
    exact ⟨hid, hnone⟩
  · rintro ⟨hid, hnone⟩
    exact ⟨(id, d.vertex id), List.mem_filter.mpr
      ⟨(mem_vertices_iff h.ids_distinct).mpr ⟨hid, rfl⟩, hnone⟩, rfl⟩

end Digraph

/-! ## Documents -/

namespace DependencyGraph

/-- The links of a document: every node's id with each of its children. -/
def links (g : DependencyGraph) : List (Text × Text) :=
  g.nodes.flatMap fun n => n.children.map fun child => (n.id, child)

theorem holds_digraph (g : DependencyGraph) : g.digraph.Holds (g.nodes.map Node.id) g.links :=
  (Digraph.holds_empty.addNodes g.nodes).addLinks g.nodes

end DependencyGraph
end ManifestGraph
