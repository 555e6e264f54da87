/-
  Building a graph node by node and edge by edge, from a root. A node id that is there already keeps
  its node; packages with one id are one package. An edge between unknown nodes is refused and changes
  nothing.
-/
import ManifestGraph.Failure
import ManifestGraph.Graph
namespace ManifestGraph

/-- A graph under construction. -/
structure GraphBuilder where
  manager : PackageManager
  /-- The id of the root package. -/
  rootPackage : Text
  packages : List Package
  nodes : List Node
  deriving DecidableEq, Inhabited

namespace GraphBuilder

/-- The id of the root node. -/
def rootId : Text := "root-node"

/-- The root package of a graph that is built without one. -/
def sentinelRoot : PackageInfo := { name := "_root", version := some "0.0.0" }

/-- The node with an id. -/
def node? (b : GraphBuilder) (id : Text) : Option Node := b.nodes.find? fun n => n.id = id

/-- The id belongs to a node. -/
def hasNode (b : GraphBuilder) (id : Text) : Bool := b.nodes.any fun n => n.id = id

/-- A node for a package, unless the id is taken. -/
def add (b : GraphBuilder) (id : Text) (package : PackageInfo) (info : Option NodeInfo := none) :
    GraphBuilder :=
  if b.hasNode id then b
  else
    let packages :=
      if b.packages.any fun p => p.id = package.id then b.packages
      else b.packages ++ [⟨package.id, package⟩]
    { b with packages, nodes := b.nodes ++ [⟨id, package.id, info, []⟩] }

/-- A builder that holds the root. -/
def start (manager : PackageManager) (root : PackageInfo := sentinelRoot) : GraphBuilder :=
  add ⟨manager, root.id, [], []⟩ rootId root

/-- A builder that holds the root; it needs a package manager. -/
def start? (manager : Option PackageManager) (root : Option PackageInfo) :
    Except Failure GraphBuilder :=
  match manager with
  | some manager => .ok (start manager (root.getD sentinelRoot))
  | none =>
    .error (.of (.foreign .value "cannot create builder without a package manager"))

/-- One more child for every node with the parent's id. -/
def link (b : GraphBuilder) (parent child : Text) : GraphBuilder :=
  { b with nodes := b.nodes.map fun n =>
      if n.id = parent then { n with children := n.children ++ [child] } else n }

/-- An edge between two nodes that are there. -/
def connect (b : GraphBuilder) (parent child : Text) : Except Failure GraphBuilder :=
  if !b.hasNode parent then .error (.of (.nodeNotFound ("could not find parent node " ++ parent)))
  else if !b.hasNode child then .error (.of (.nodeNotFound ("could not find child node " ++ child)))
  else .ok (b.link parent child)

/-- The graph built so far. -/
def build (b : GraphBuilder) : DependencyGraph :=
  ⟨DependencyGraph.currentSchema, b.manager, b.packages, rootId, b.nodes⟩

end GraphBuilder
end ManifestGraph
