/-
  A directed graph that grows node by node and edge by edge. What is named once is there from then on, in
  the order in which it was first named: a node that is added again takes the new package and keeps its
  edges, an edge brings both its ends along, and an edge that is added again is still one edge.
-/
import ManifestGraph.Data
import ManifestGraph.Graph
namespace ManifestGraph

/-- What is known of a node: its package, unless only edges name it, and where its edges lead. -/
structure Vertex where
  package : Option Text := none
  children : List Text := []
  deriving DecidableEq, Inhabited

/-- The node with an edge to a child. -/
def Vertex.link (v : Vertex) (child : Text) : Vertex :=
  if v.children.contains child then v else { v with children := v.children ++ [child] }

/-- A directed graph, with its nodes by their ids. -/
structure Digraph where
  vertices : List (Text × Vertex) := []
  deriving DecidableEq, Inhabited

namespace Digraph

/-- What is known of the node with an id, which may be nothing yet. -/
def vertex (d : Digraph) (id : Text) : Vertex := (List.lookup id d.vertices).getD {}

/-- The graph in which this is known of the node. -/
def put (d : Digraph) (id : Text) (v : Vertex) : Digraph := ⟨putMember id v d.vertices⟩

/-- A node with its package. -/
def addNode (d : Digraph) (id package : Text) : Digraph :=
  d.put id { d.vertex id with package := some package }

/-- A node of which nothing is said but that it is there. -/
def mention (d : Digraph) (id : Text) : Digraph := d.put id (d.vertex id)

/-- An edge with its ends. -/
def addEdge (d : Digraph) (parent child : Text) : Digraph :=
  let d := (d.mention parent).mention child
  d.put parent ((d.vertex parent).link child)

/-- The edges, grouped by the node they start from. -/
def edges (d : Digraph) : List (Text × Text) :=
  d.vertices.flatMap fun (id, v) => v.children.map fun child => (id, child)

/-- The nodes that only edges name. -/
def undeclared (d : Digraph) : List Text :=
  (d.vertices.filter fun (_, v) => v.package.isNone).map Prod.fst

end Digraph

/-- The document as a directed graph: first all its nodes, then all their edges. -/
def DependencyGraph.digraph (g : DependencyGraph) : Digraph :=
  let declared := g.nodes.foldl (fun d n => d.addNode n.id n.package) ({} : Digraph)
  g.nodes.foldl (fun d n => n.children.foldl (fun d child => d.addEdge n.id child) d) declared

end ManifestGraph
