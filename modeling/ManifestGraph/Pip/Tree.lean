/-
  The dependency graph of an installation report, walked depth first from the direct dependencies. A
  package met again below the same direct dependency becomes a leaf that is labelled as pruned; what a
  package requires is added once.

  The walk calls itself once for each level, so a run has room for so many levels only; `toGraph` is the
  graph where there is room enough, and `graphWithin` the one for some room, if it suffices.
-/
import ManifestGraph.Graph.Builder
import ManifestGraph.Pip.Report
namespace ManifestGraph.Pip

/-- The label of pruned leaves. -/
def prunedLabel : Text := "pruned"

/-- The name of the root package. -/
def rootName : Text := "root"

/-- The version of the root package. -/
def rootVersion : Text := "0.0.0"

/-- A walk under way: the graph so far, the nodes met below the present direct dependency, and the
nodes whose requirements were added. -/
structure Walk where
  builder : GraphBuilder
  visited : List Text := []
  expanded : List Text := []

namespace Walk

/-- A pruned leaf for an item below a node. -/
def prune (w : Walk) (parent : Text) (i : Item) : Walk :=
  let id := i.nodeId ++ ":" ++ prunedLabel
  let info : NodeInfo := { labels := some [(prunedLabel, "true")] }
  { w with builder := (w.builder.add id i.package info).link parent id }

/-- The node of an item below a node. -/
def enter (w : Walk) (parent : Text) (i : Item) : Walk :=
  { w with
    builder := (w.builder.add i.nodeId i.package).link parent i.nodeId
    visited := i.nodeId :: w.visited }

/-- The walk after the packages with some names, and all below them, were added below a node; it goes
down at most `depth` levels. -/
def descend (r : Report) : Nat → Text → List Text → Walk → Walk
  | 0, _, _, w => w
  | depth + 1, parent, names, w =>
    names.foldl (fun w name =>
      match r.item? name with
      | none => w
      | some i =>
        if w.visited.contains i.nodeId then w.prune parent i
        else
          let w := w.enter parent i
          if w.expanded.contains i.nodeId then w
          else
            descend r depth i.nodeId i.dependencyNames { w with expanded := i.nodeId :: w.expanded }) w

/-- The failure of a walk that is too deep. -/
def tooDeep : Failure := .of (.foreign .recursion "maximum recursion depth exceeded")

/-- The same walk, if there is room for so many levels; to look for unknown names takes none. -/
def descendWithin (r : Report) : Nat → Text → List Text → Walk → Except Failure Walk
  | 0, _, names, w => if names.any fun name => (r.item? name).isSome then .error tooDeep else .ok w
  | room + 1, parent, names, w =>
    names.foldlM (fun w name =>
      match r.item? name with
      | none => .ok w
      | some i =>
        if w.visited.contains i.nodeId then .ok (w.prune parent i)
        else
          let w := w.enter parent i
          if w.expanded.contains i.nodeId then .ok w
          else
            descendWithin r room i.nodeId i.dependencyNames { w with expanded := i.nodeId :: w.expanded })
      w

/-- The walk before the first direct dependency. -/
def start (manager : Text) : Walk :=
  { builder := GraphBuilder.start { name := manager } { name := rootName, version := some rootVersion } }

end Walk

/-- The dependency graph of a report. No branch is deeper than the report has items, because every
level but the first adds the requirements of one more. -/
def Report.toGraph (r : Report) (manager : Text := "pip") : DependencyGraph :=
  let done := r.directNames.foldl (fun w name =>
    Walk.descend r (r.items.length + 1) GraphBuilder.rootId [name] { w with visited := [] })
    (Walk.start manager)
  done.builder.build

/-- The dependency graph of a report, if the walk has room for so many levels. -/
def Report.graphWithin (r : Report) (room : Nat) (manager : Text := "pip") :
    Except Failure DependencyGraph := do
  let done ← r.directNames.foldlM (fun w name =>
    Walk.descendWithin r room GraphBuilder.rootId [name] { w with visited := [] }) (Walk.start manager)
  return done.builder.build

end ManifestGraph.Pip
