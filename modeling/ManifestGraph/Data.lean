/-
  Structured data as JSON and TOML documents hold it. Records keep the order of their members, and a
  key may occur more than once until the value is settled; dates and times occur in TOML documents only.
-/
import ManifestGraph.Binary64
import ManifestGraph.Text
namespace ManifestGraph

/-- A day of the calendar. -/
structure Date where
  year : Nat
  month : Nat
  day : Nat
  deriving DecidableEq, Inhabited

/-- A time of day. -/
structure TimeOfDay where
  hour : Nat
  minute : Nat
  second : Nat
  microsecond : Nat
  deriving DecidableEq, Inhabited

/-- A date, a time, or both, the last with or without a distance from universal time in minutes. -/
inductive Moment where
  | date (date : Date)
  | time (time : TimeOfDay)
  | both (date : Date) (time : TimeOfDay) (offset : Option Int)
  deriving DecidableEq, Inhabited

/-- A document's value. -/
inductive Data where
  | null
  | bool (value : Bool)
  | int (value : Int)
  | float (value : Binary64)
  | text (value : Text)
  | moment (value : Moment)
  | list (items : List Data)
  | record (members : List (Text × Data))
  deriving Inhabited

namespace Data

/-- The members of a record. -/
def members? : Data → Option (List (Text × Data))
  | .record ms => some ms
  | _ => none

/-- The items of a list. -/
def items? : Data → Option (List Data)
  | .list xs => some xs
  | _ => none

/-- The text of a text value. -/
def text? : Data → Option Text
  | .text t => some t
  | _ => none

/-- The member of a record under a key; of several the last. -/
def get? (key : Text) (d : Data) : Option Data :=
  d.members?.bind fun ms => List.lookup key ms.reverse

end Data

/-- A member put among others: in the place of the one with its key, else at the end. -/
def putMember (key : Text) (value : α) : List (Text × α) → List (Text × α)
  | [] => [(key, value)]
  | m :: ms => if m.1 = key then (key, value) :: ms else m :: putMember key value ms

/-- Of the members with one key the last value, in the place of the first. -/
def lastOfEach (ms : List (Text × α)) : List (Text × α) :=
  ms.foldl (fun kept m => putMember m.1 m.2 kept) []

namespace Data

mutual

/-- The value with every key only once in each of its records. -/
def settled : Data → Data
  | .list items => .list (settledItems items)
  | .record members => .record (lastOfEach (settledMembers members))
  | d => d

/-- The items of a list, each settled. -/
def settledItems : List Data → List Data
  | [] => []
  | d :: ds => settled d :: settledItems ds

/-- The members of a record with their values settled; a key may still occur more than once. -/
def settledMembers : List (Text × Data) → List (Text × Data)
  | [] => []
  | (key, d) :: ms => (key, settled d) :: settledMembers ms

/-- The texts in a value, in the order in which they are written. -/
def texts : Data → List Text
  | .text t => [t]
  | .list items => textsOfItems items
  | .record members => textsOfMembers members
  | _ => []

/-- The texts in the items of a list. -/
def textsOfItems : List Data → List Text
  | [] => []
  | d :: ds => texts d ++ textsOfItems ds

/-- The texts in the members of a record, their keys included. -/
def textsOfMembers : List (Text × Data) → List Text
  | [] => []
  | (key, d) :: ms => key :: (texts d ++ textsOfMembers ms)

end

end Data
end ManifestGraph
