/-
  A graph that remembers its lookups: an index of the packages once one was looked up, and the root
  package once it was found. A graph fresh from a builder remembers both. Two such graphs are equal
  only if they also remember the same.
-/
import ManifestGraph.Data
import ManifestGraph.Graph.Builder
namespace ManifestGraph

/-- A graph with what its lookups have remembered. -/
structure LookupGraph where
  graph : DependencyGraph
  index : Option (List (Text × Package)) := none
  root : Option Package := none
  deriving DecidableEq

namespace LookupGraph

/-- The packages by their ids; of several with one id the last one. -/
def indexOf (packages : List Package) : List (Text × Package) :=
  packages.foldl (fun index p => putMember p.id p index) []

/-- The package with an id, and the graph that remembers the index. -/
def package? (g : LookupGraph) (id : Text) : Option Package × LookupGraph :=
  let index := g.index.getD (indexOf g.graph.packages)
  (List.lookup id index, { g with index := some index })

/-- The package of the root node, and the graph that remembers it. -/
def rootPackage? (g : LookupGraph) : Option Package × LookupGraph :=
  match g.root with
  | some p => (some p, g)
  | none =>
    match g.graph.rootNode? with
    | none => (none, g)
    | some n =>
      let (p, g) := g.package? n.package
      (p, { g with root := p })

/-- The graph of a builder, with its lookups remembered in advance. -/
def ofBuilder (b : GraphBuilder) : LookupGraph :=
  let index := indexOf b.packages
  { graph := b.build, index := some index, root := List.lookup b.rootPackage index }

end LookupGraph
end ManifestGraph
