/-
  Nested tables under construction. A path leads through tables, and through an array of tables into
  its last one. Beside the tables stands a record of which of them may not be opened again.
-/
import ManifestGraph.Data.Fit
namespace ManifestGraph.Toml

/-- The names that lead from the root to a value. -/
abbrev KeyPath := List Text

mutual

/-- Changes the table at a path, making the tables on the way that are not there. Through arrays only
if `intoArrays` says so. -/
def inTable (intoArrays : Bool) (change : Members → Option Members) : KeyPath → Members → Option Members
  | [], ms => change ms
  | k :: ks, ms => do
    let inner ← match List.lookup k ms with
      | none => (inTable intoArrays change ks []).map Data.record
      | some d => inValue intoArrays change ks d
    some (putMember k inner ms)

/-- Changes the table at a path that starts in a value. -/
def inValue (intoArrays : Bool) (change : Members → Option Members) : KeyPath → Data → Option Data
  | ks, .record ms => (inTable intoArrays change ks ms).map Data.record
  | ks, .list ds =>
    match intoArrays, ds.getLast? with
    | true, some (.record ms) =>
      (inTable intoArrays change ks ms).map fun ms => .list (ds.dropLast ++ [.record ms])
    | _, _ => none
  | _, _ => none

end

/-- Adds a member, whose name must be new. -/
def addMember (name : Text) (value : Data) (ms : Members) : Option Members :=
  match List.lookup name ms with
  | some _ => none
  | none => some (ms ++ [(name, value)])

/-- Adds an empty table to an array of tables, which is made if it is not there. -/
def addTable (name : Text) (ms : Members) : Option Members :=
  match List.lookup name ms with
  | none => some (ms ++ [(name, .list [.record []])])
  | some (.list ds) => some (putMember name (.list (ds ++ [.record []])) ms)
  | some _ => none

/-- The last name of a path, and the path to its table. -/
def splitLast (path : KeyPath) : KeyPath × Text := (path.dropLast, path.getLastD [])

/-- Which tables may not be opened again: the closed ones with all that is in them, and those that
have their own statement. -/
structure Marks where
  closed : List KeyPath := []
  opened : List KeyPath := []
  /-- Tables opened by dotted keys; they count when the next header comes. -/
  dotted : List KeyPath := []

namespace Marks

/-- A value on the path, or at its end, is closed. -/
def isClosed (m : Marks) (path : KeyPath) : Bool := m.closed.any fun p => p.isPrefixOf path

/-- The table has its own statement. -/
def isOpened (m : Marks) (path : KeyPath) : Bool := m.opened.contains path

/-- Closes a value with all that is in it. -/
def close (m : Marks) (path : KeyPath) : Marks := { m with closed := path :: m.closed }

/-- Marks a table that has its own statement. -/
def openTable (m : Marks) (path : KeyPath) : Marks := { m with opened := path :: m.opened }

/-- Forgets everything about a table and all that is in it. -/
def forget (m : Marks) (path : KeyPath) : Marks :=
  { m with closed := m.closed.filter fun p => !path.isPrefixOf p
           opened := m.opened.filter fun p => !path.isPrefixOf p }

/-- The tables of dotted keys count from now on. -/
def settle (m : Marks) : Marks := { m with opened := m.dotted ++ m.opened, dotted := [] }

end Marks

/-- The tables of a document, as far as it was read, with the table that its keys belong to. -/
structure Tables where
  members : Members := []
  marks : Marks := {}
  current : KeyPath := []

namespace Tables

/-- Opens a table by its header. -/
def openTable (ts : Tables) (path : KeyPath) : Option Tables :=
  if ts.marks.isOpened path || ts.marks.isClosed path then none
  else (inTable true some path ts.members).map fun members =>
    { members, marks := ts.marks.openTable path, current := path }

/-- Opens one more table of an array by its header. -/
def openItem (ts : Tables) (path : KeyPath) : Option Tables :=
  if ts.marks.isClosed path then none
  else
    let (way, name) := splitLast path
    (inTable true (addTable name) way ts.members).map fun members =>
      { members, marks := (ts.marks.forget path).openTable path, current := path }

/-- The tables that a dotted key leads through. -/
def dottedTables (base key : KeyPath) : List KeyPath :=
  (List.range (key.length - 1)).map fun n => base ++ key.take (n + 1)

/-- A container that is written as one value may not be changed later. -/
def isContainer : Data → Bool
  | .list _ => true
  | .record _ => true
  | _ => false

/-- Sets a key of the current table. -/
def set (ts : Tables) (key : KeyPath) (value : Data) : Option Tables :=
  let through := dottedTables ts.current key
  let path := ts.current ++ key
  let (way, name) := splitLast path
  if through.any ts.marks.isOpened || (!way.isEmpty && ts.marks.isClosed way) then none
  else (inTable true (addMember name value) way ts.members).map fun members =>
    let marks := { ts.marks with dotted := through ++ ts.marks.dotted }
    { ts with members, marks := if isContainer value then marks.close path else marks }

end Tables

/-- Sets a key of a table that is written as one value. -/
def setInline (closed : Marks) (key : KeyPath) (value : Data) (ms : Members) :
    Option (Marks × Members) :=
  let (way, name) := splitLast key
  if closed.isClosed key then none
  else (inTable false (addMember name value) way ms).map fun ms =>
    (if Tables.isContainer value then closed.close key else closed, ms)

end ManifestGraph.Toml
