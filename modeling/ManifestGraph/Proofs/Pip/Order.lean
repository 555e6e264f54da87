/-
  The graph of a report does not depend on the order in which the report lists its packages
  (`toGraph_of_perm`). The walk sees a report only through its lookups, its direct dependencies and the
  number of its items (`toGraph_congr`); with distinct names none of the three tells the order.
-/
import ManifestGraph.Proofs.Pip.Names
import ManifestGraph.Proofs.Text.Order

namespace ManifestGraph.Pip

variable {r r' : Report}

/-! ## What the walk sees of a report -/

theorem Walk.descend_congr (hitem : ∀ name, r.item? name = r'.item? name) (depth : Nat)
    (parent : Text) (names : List Text) (w : Walk) :
    Walk.descend r depth parent names w = Walk.descend r' depth parent names w := by
  induction depth generalizing parent names w with
  | zero => rfl
  | succ depth ih =>
    simp only [Walk.descend, hitem]
    congr 1
    funext w name
    cases r'.item? name with
    | none => rfl
    | some i => simp only [ih]

/-- Reports that are seen alike have the same graph. -/
theorem toGraph_congr (hitem : ∀ name, r.item? name = r'.item? name)
    (hdirect : r.directNames = r'.directNames) (hlength : r.items.length = r'.items.length)
    (manager : Text) : r.toGraph manager = r'.toGraph manager := by
  have hround : (fun w name => Walk.descend r (r.items.length + 1) GraphBuilder.rootId [name]
        { w with visited := [] }) =
      fun (w : Walk) name => Walk.descend r' (r'.items.length + 1) GraphBuilder.rootId [name]
        { w with visited := [] } := by
    funext w name
    rw [hlength, Walk.descend_congr hitem]
  simp only [Report.toGraph, hdirect, hround]

/-! ## Reports in another order -/

theorem item?_of_perm (hperm : r.items.Perm r'.items) (hnames : (r.items.map Item.key).Nodup)
    (name : Text) : r.item? name = r'.item? name := by
  have hnames' : (r'.items.map Item.key).Nodup := (hperm.map Item.key).nodup_iff.mp hnames
  apply Option.ext
  intro i
  calc r.item? name = some i
      ↔ i ∈ r.items ∧ i.key = normalName name := last?_eq_some_iff hnames
    _ ↔ i ∈ r'.items ∧ i.key = normalName name := by rw [hperm.mem_iff]
    _ ↔ r'.item? name = some i := (last?_eq_some_iff hnames').symm

theorem directNames_of_perm (hperm : r.items.Perm r'.items) : r.directNames = r'.directNames :=
  Text.sort_eq_of_perm ((hperm.filter Item.requested).map Item.key)

/-- Reports that list the same packages in different orders have the same graph, and the same document
for it. -/
theorem toGraph_of_perm (hperm : r.items.Perm r'.items) (hnames : (r.items.map Item.key).Nodup)
    (manager : Text) : r.toGraph manager = r'.toGraph manager ∧
      (r.toGraph manager).encode = (r'.toGraph manager).encode := by
  have hgraph : r.toGraph manager = r'.toGraph manager :=
    toGraph_congr (item?_of_perm hperm hnames) (directNames_of_perm hperm) hperm.length_eq manager
  exact ⟨hgraph, congrArg DependencyGraph.encode hgraph⟩

/-- A direct dependency on a package. -/
def appItem : Item :=
  { name := "app", version := "1", requires := some ["core"], requested := true }

/-- A direct dependency on packages of which one requires the other. -/
def batchItem : Item :=
  { name := "batch", version := "1", requires := some ["core", "data"], requested := true }

/-- A package that requires another one. -/
def coreItem : Item := { name := "core", version := "1", requires := some ["data"] }

/-- A package that requires nothing. -/
def dataItem : Item := { name := "data", version := "1" }

/-- Two direct dependencies that share packages: what the first one leads to is there when the second
one gets to it. -/
def overlap : Report where
  items := [appItem, batchItem, coreItem, dataItem]

/-- The same report, told from its end. -/
def overlapReversed : Report where
  items := overlap.items.reverse

theorem toGraph_of_perm_overlap :
    overlap.items.Perm overlapReversed.items ∧ (overlap.items.map Item.key).Nodup ∧
      overlap.toGraph "pip" = overlapReversed.toGraph "pip" ∧
      (overlap.toGraph "pip").encode = (overlapReversed.toGraph "pip").encode := by
  have hperm : overlap.items.Perm overlapReversed.items := (List.reverse_perm _).symm
  have hnames : (overlap.items.map Item.key).Nodup := by decide
  exact ⟨hperm, hnames, toGraph_of_perm hperm hnames "pip"⟩

end ManifestGraph.Pip
