/-
  The installation report of pip, as far as a dependency graph needs it.
-/
import ManifestGraph.Graph.Document
import ManifestGraph.Pip.Requirement
namespace ManifestGraph.Pip

/-- A package that pip would install. -/
structure Item where
  name : Text
  version : Text := []
  requires : Option (List Text) := none
  /-- Listed in the requirements, so a direct dependency. -/
  requested : Bool := false
  extras : Option (List Text) := none
  deriving DecidableEq, Inhabited

namespace Item

/-- The name by which the item is looked up. -/
def key (i : Item) : Text := normalName i.name

/-- The version, or a question mark for an unknown one. -/
def shownVersion (i : Item) : Text := if i.version.isEmpty then "?" else i.version

/-- The id of the item's node. -/
def nodeId (i : Item) : Text := i.key ++ "@" ++ i.shownVersion

/-- The item as a package. -/
def package (i : Item) : PackageInfo := { name := i.key, version := some i.shownVersion }

/-- The names of the packages that the item requires, in ascending order. -/
def dependencyNames (i : Item) : List Text :=
  Text.sort (requiredNames (i.requires.getD []) (i.extras.getD []))

/-- An item from a record. -/
def fit : Data → Fit Item :=
  Data.fitModel fun ms =>
    (fun (m : Text × Text × Option (List Text)) requested extras =>
        ⟨m.1, m.2.1, m.2.2, requested, extras⟩)
      <$> ms.required ["metadata"] (Data.fitModel fun ms =>
            (fun name version requires => (name, version, requires))
              <$> ms.required ["name"] Data.fitText
              <*> ms.withDefault ["version"] [] Data.fitText
              <*> ms.withDefault ["requires_dist"] none (Data.fitOption (Data.fitList Data.fitText)))
      <*> ms.withDefault ["requested"] false Data.fitBool
      <*> ms.withDefault ["requested_extras"] none (Data.fitOption (Data.fitList Data.fitText))

end Item

/-- What pip would install. -/
structure Report where
  items : List Item := []
  deriving DecidableEq, Inhabited

namespace Report

/-- A report from a record. -/
def fit : Data → Fit Report :=
  Data.fitModel fun ms => Report.mk <$> ms.withDefault ["install"] [] (Data.fitList Item.fit)

/-- Reads a report. -/
def decode (bs : Bytes) : Except (List Misfit) Report := Json.readModel fit bs

/-- The item with a name; of several the last one. -/
def item? (r : Report) (name : Text) : Option Item :=
  r.items.reverse.find? fun i => i.key = normalName name

/-- The direct dependencies in ascending order. -/
def directNames (r : Report) : List Text := Text.sort ((r.items.filter Item.requested).map Item.key)

end Report
end ManifestGraph.Pip
