/-
  Fitting a value into a model: a record with known members, each of a known type. All the places
  where the value does not fit are collected, in the order of the model's members. Of a key that occurs
  more than once the last value counts; only in a mapping the others have to fit as well.
-/
import ManifestGraph.Data
namespace ManifestGraph

/-- A step from a value into one of its parts. -/
inductive Step where
  | key (name : Text)
  | index (n : Nat)
  deriving DecidableEq

/-- What is wrong at a place of a value. -/
inductive Misfit.Kind where
  | missing
  | notText
  | notList
  | notTuple
  | notMapping
  | notModel
  | notBool
  | unreadableBool
  | unknownMember
  | unreadableJson
  | emptyList
  deriving DecidableEq

/-- A place where a value does not fit its model. -/
structure Misfit where
  place : List Step
  kind : Misfit.Kind
  deriving DecidableEq

namespace Misfit

/-- The word for what is wrong. -/
def Kind.word : Kind → Text
  | .missing => "missing"
  | .notText => "string_type"
  | .notList => "list_type"
  | .notTuple => "tuple_type"
  | .notMapping => "dict_type"
  | .notModel => "model_type"
  | .notBool => "bool_type"
  | .unreadableBool => "bool_parsing"
  | .unknownMember => "extra_forbidden"
  | .unreadableJson => "json_invalid"
  | .emptyList => "value_error"

/-- A step as it stands in a message. -/
def stepText : Step → Text
  | .key name => name
  | .index n => Text.ofNat n

/-- The place and the word, or the word alone for the value as a whole. -/
def message (m : Misfit) : Text :=
  if m.place.isEmpty then m.kind.word
  else Text.join "." (m.place.map stepText) ++ " " ++ m.kind.word

/-- The message about a value that does not fit. -/
def summary (ms : List Misfit) : Text := "<invalid: " ++ Text.join "; " (ms.map message) ++ ">"

/-- The same misfit seen from the value around. -/
def under (s : Step) (m : Misfit) : Misfit := { m with place := s :: m.place }

end Misfit

/-- A value that fits its model, or the places where it does not. -/
inductive Fit (α : Type) where
  | ok (value : α)
  | bad (misfits : List Misfit)

namespace Fit

/-- Applies a function to a fitting value. -/
def map (f : α → β) : Fit α → Fit β
  | .ok a => .ok (f a)
  | .bad ms => .bad ms

/-- Both parts fit; else the misfits of both, the first part's first. -/
def both (f : Fit (α → β)) (x : Unit → Fit α) : Fit β :=
  match f, x () with
  | .ok f, .ok a => .ok (f a)
  | .ok _, .bad ms => .bad ms
  | .bad ms, .ok _ => .bad ms
  | .bad ms, .bad ms' => .bad (ms ++ ms')

instance : Applicative Fit where
  pure := .ok
  map := Fit.map
  seq := both

/-- One misfit at the value itself. -/
def fail (kind : Misfit.Kind) : Fit α := .bad [⟨[], kind⟩]

/-- The fit of a part, seen from the value around it. -/
def under (s : Step) : Fit α → Fit α
  | .ok a => .ok a
  | .bad ms => .bad (ms.map (Misfit.under s))

/-- All items of a list fit; they are numbered from `n`. -/
def items (fit : Data → Fit α) (n : Nat) : List Data → Fit (List α)
  | [] => .ok []
  | d :: ds => (fun a as => a :: as) <$> (fit d).under (.index n) <*> items fit (n + 1) ds

/-- All values of a mapping fit. -/
def entries (fit : Data → Fit α) : List (Text × Data) → Fit (List (Text × α))
  | [] => .ok []
  | (name, d) :: ms => (fun a as => (name, a) :: as) <$> (fit d).under (.key name) <*> entries fit ms

/-- The value or the misfits. -/
def toExcept : Fit α → Except (List Misfit) α
  | .ok a => .ok a
  | .bad ms => .error ms

end Fit

/-- The members of a record. -/
abbrev Members := List (Text × Data)

namespace Data

/-- A text. -/
def fitText : Data → Fit Text
  | .text t => .ok t
  | _ => .fail .notText

/-- Words that mean true. -/
def trueWords : List Text := ["1", "on", "t", "true", "y", "yes"]

/-- Words that mean false. -/
def falseWords : List Text := ["0", "off", "f", "false", "n", "no"]

/-- A word for a truth value, in any case. -/
def fitBoolWord (t : Text) : Fit Bool :=
  if trueWords.contains t.asciiLower then .ok true
  else if falseWords.contains t.asciiLower then .ok false
  else .fail .unreadableBool

/-- A number for a truth value: one or zero. A number beyond 64 bits is not even a wrong one. -/
def fitBoolNumber (n : Int) : Fit Bool :=
  if n = 1 then .ok true
  else if n = 0 then .ok false
  else if -0x8000000000000000 ≤ n ∧ n < 0x8000000000000000 then .fail .unreadableBool
  else .fail .notBool

/-- A float for a truth value: a whole one counts as its number, but the least number of 64 bits is
beyond them. -/
def fitBoolFloat (x : Binary64) : Fit Bool :=
  match x.toInt? with
  | some n => if n = -0x8000000000000000 then .fail .notBool else fitBoolNumber n
  | none => .fail .notBool

/-- A truth value, or a word or number that means one. -/
def fitBool : Data → Fit Bool
  | .bool b => .ok b
  | .text t => fitBoolWord t
  | .int n => fitBoolNumber n
  | .float x => fitBoolFloat x
  | _ => .fail .notBool

/-- Null or something that fits. -/
def fitOption (fit : Data → Fit α) : Data → Fit (Option α)
  | .null => .ok none
  | d => (fit d).map some

/-- A list whose items fit. -/
def fitList (fit : Data → Fit α) : Data → Fit (List α)
  | .list ds => Fit.items fit 0 ds
  | _ => .fail .notList

/-- A list whose items fit, where a tuple is asked for. -/
def fitTuple (fit : Data → Fit α) : Data → Fit (List α)
  | .list ds => Fit.items fit 0 ds
  | _ => .fail .notTuple

/-- A mapping whose values fit, those too that a later value of their key replaces. -/
def fitMapping (fit : Data → Fit α) : Data → Fit (List (Text × α))
  | .record ms => (Fit.entries fit ms).map lastOfEach
  | _ => .fail .notMapping

/-- Any value. -/
def fitAny (d : Data) : Fit Data := .ok d.settled

/-- A record whose members fit. -/
def fitModel (fit : Members → Fit α) : Data → Fit α
  | .record ms => fit (lastOfEach ms)
  | _ => .fail .notModel

end Data

namespace Members

/-- The member under the first of some names that occurs. -/
def find? (ms : Members) : List Text → Option (Text × Data)
  | [] => none
  | name :: names =>
    match List.lookup name ms with
    | some d => some (name, d)
    | none => find? ms names

/-- A member that must be there; it is reported missing under its first name. -/
def required (ms : Members) (names : List Text) (fit : Data → Fit α) : Fit α :=
  match find? ms names with
  | some (name, d) => (fit d).under (.key name)
  | none => .bad [⟨[.key (names.headD [])], .missing⟩]

/-- A member that has a value of its own when it is absent. -/
def withDefault (ms : Members) (names : List Text) (absent : α) (fit : Data → Fit α) : Fit α :=
  match find? ms names with
  | some (name, d) => (fit d).under (.key name)
  | none => .ok absent

/-- The names that a model reads: of each member's names the first that occurs. -/
def used (ms : Members) (names : List (List Text)) : List Text :=
  names.filterMap fun alternatives => (find? ms alternatives).map (·.1)

/-- No member is left unread. -/
def noOthers (ms : Members) (names : List (List Text)) : Fit PUnit :=
  match ms.filter fun m => !(used ms names).contains m.1 with
  | [] => .ok ⟨⟩
  | others => .bad (others.map fun m => ⟨[.key m.1], .unknownMember⟩)

end Members
end ManifestGraph
