/-
  What makes a graph document a graph: ids are unique, there is one root, and every reference leads
  somewhere. `Valid` says so; `violations` lists what is broken.
-/
import ManifestGraph.Failure
import ManifestGraph.Graph.Digraph
import ManifestGraph.Text.Quoted
namespace ManifestGraph.DependencyGraph

/-- The document is a graph. -/
structure Valid (g : DependencyGraph) : Prop where
  packages_distinct : (g.packages.map Package.id).Nodup
  nodes_distinct : (g.nodes.map Node.id).Nodup
  one_root : (g.nodes.map Node.id).count g.root = 1
  package_known : ∀ n ∈ g.nodes, n.package ∈ g.packages.map Package.id
  child_known : ∀ n ∈ g.nodes, ∀ c ∈ n.children, c ∈ g.nodes.map Node.id

/-- Each element once, in the place where it first occurs. -/
def firsts [DecidableEq α] : List α → List α
  | [] => []
  | x :: xs => x :: (firsts xs).filter (· ≠ x)

/-- The nodes of the directed graph, with the packages of those that are declared. -/
def nodeView (g : DependencyGraph) : List (Text × Option Text) :=
  g.digraph.vertices.map fun (id, v) => (id, v.package)

/-- The edges of the directed graph. -/
def edges (g : DependencyGraph) : List (Text × Text) := g.digraph.edges

/-- One way in which a document fails to be a graph. -/
inductive Violation where
  | packagesRepeated
  | nodesRepeated
  | rootCount (root : Text) (found : Nat)
  | packageUnknown (node package : Text)
  | childUnknown (parent child : Text)
  deriving DecidableEq

/-- The message about a violation. -/
def Violation.message : Violation → Text
  | .packagesRepeated => "package ids are not unique"
  | .nodesRepeated => "node ids are not unique"
  | .rootCount root found =>
    "expected exactly one root node " ++ root.quoted ++ ", found " ++ Text.ofNat found
  | .packageUnknown node package =>
    "node " ++ node.quoted ++ " references unknown package " ++ package.quoted
  | .childUnknown parent child =>
    "node " ++ parent.quoted ++ " depends on unknown node " ++ child.quoted

/-- The nodes whose package is not in the document. -/
def unpackaged (g : DependencyGraph) : List Node :=
  let packageIds := g.packages.map Package.id
  g.nodes.filter fun n => !packageIds.contains n.package

/-- The edges of the directed graph that lead to a node without a declaration. -/
def dangling (g : DependencyGraph) : List (Text × Text) :=
  let d := g.digraph
  let undeclared := d.undeclared
  d.edges.filter fun e => undeclared.contains e.2

/-- Everything that is broken in a document. -/
def violations (g : DependencyGraph) : List Violation :=
  let packageIds := g.packages.map Package.id
  let ids := g.nodes.map Node.id
  let roots := ids.count g.root
  (if (firsts packageIds).length = packageIds.length then [] else [.packagesRepeated])
  ++ (if (firsts ids).length = ids.length then [] else [.nodesRepeated])
  ++ (if roots = 1 then [] else [.rootCount g.root roots])
  ++ g.unpackaged.map (fun n => .packageUnknown n.id n.package)
  ++ g.dangling.map (fun e => .childUnknown e.1 e.2)

/-- Passes a graph on and refuses a document with violations. -/
def check (g : DependencyGraph) : Except Failure Unit :=
  match g.violations with
  | [] => .ok ()
  | vs => .error (.of (.graphInvalid (vs.map Violation.message)))

end ManifestGraph.DependencyGraph
