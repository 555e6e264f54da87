/-
  Errors as linked objects: each may name its cause, have another one attached, and the error that
  was being handled when it arose. The links may form cycles; the walk along them visits no object
  twice.
-/
import ManifestGraph.Failure
namespace ManifestGraph.Failure

/-- An error object with its links to others, given by their numbers. -/
structure Link where
  fault : Fault
  cause : Option Nat := none
  attached : Option Nat := none
  context : Option Nat := none
  contextHidden : Bool := false

/-- A finite set of error objects. -/
abbrev Links := List Link

namespace Links

/-- The object that an object leads to: its cause, else the one attached to it, else its context unless that
is hidden. -/
def next (ls : Links) (n : Nat) : Option Nat :=
  match ls[n]? with
  | none => none
  | some l =>
    match l.cause, l.attached with
    | some m, _ => some m
    | none, some m => some m
    | none, none => if l.contextHidden then none else l.context

/-- The objects of the walk that starts at `n`, in order, if those of `seen` (latest first) were
visited; at most `fuel` of them. -/
def walkFrom (ls : Links) : Nat → List Nat → Option Nat → List Nat
  | 0, seen, _ => seen.reverse
  | _ + 1, seen, none => seen.reverse
  | fuel + 1, seen, some n =>
    if seen.contains n then seen.reverse else walkFrom ls fuel (n :: seen) (ls.next n)

/-- The objects of the walk from an object, in order. -/
def walk (ls : Links) (start : Nat) : List Nat := walkFrom ls (ls.length + 1) [] (some start)

/-- The failure that an object stands for. -/
def failure? (ls : Links) (start : Nat) : Option Failure :=
  let path := ls.walk start
  match path.filterMap fun n => (ls[n]?).map Link.fault with
  | [] => none
  | fault :: causes =>
    let back := (path.getLast?.bind ls.next).bind fun n => path.findIdx? (· == n)
    some { fault, causes, back }

end Links
end ManifestGraph.Failure
