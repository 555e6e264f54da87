/-
  File name patterns: `*` stands for any text, `?` for any one character, `[…]` for one of a set and
  `[!…]` for one outside of it. A bracket that is not closed stands for itself, as does a closing one
  right at the start of a set.
-/
import ManifestGraph.Text
namespace ManifestGraph

/-- One part of a pattern. -/
inductive Glob.Part where
  | any
  | one
  | literal (c : CodePoint)
  | oneOf (negated : Bool) (ranges : List (CodePoint × CodePoint))

/-- A pattern. -/
abbrev Glob := List Glob.Part

namespace Glob

/-- The pieces of a set between the hyphens that make ranges. A hyphen makes one only after at least
`skip` code points. -/
def pieces : Nat → Text → List Text
  | _, [] => []
  | 0, c :: t =>
    if c = '-' then [] :: nextPiece t
    else match pieces 0 t with
      | piece :: rest => (c :: piece) :: rest
      | [] => [[c]]
  | skip + 1, c :: t =>
    match pieces skip t with
    | piece :: rest => (c :: piece) :: rest
    | [] => [[c]]
where
  /-- The pieces after a hyphen: the end of the range and one more code point belong to the next. -/
  nextPiece : Text → List Text
    | [] => [[]]
    | [c] => [[c]]
    | c :: d :: t =>
      match pieces 0 t with
      | piece :: rest => (c :: d :: piece) :: rest
      | [] => [[c, d]]

/-- A hyphen at the very end makes no range. -/
def closePieces : List Text → List Text
  | [piece, []] => [piece ++ "-"]
  | piece :: rest => piece :: closePieces rest
  | [] => []

/-- Two neighbouring pieces joined if the range between them is empty; its ends are dropped. -/
def joinEmpty (piece : Text) : List Text → List Text
  | [] => [piece]
  | next :: rest =>
    match piece.getLast?, next.head? with
    | some a, some b =>
      if b.toNat < a.toNat then (piece.dropLast ++ next.drop 1) :: rest else piece :: next :: rest
    | _, _ => piece :: next :: rest

/-- The ranges from the end of each piece to the start of the next. -/
def rangesBetween : List Text → List (CodePoint × CodePoint)
  | a :: b :: rest =>
    (match a.getLast?, b.head? with
      | some x, some y => [(x, y)]
      | _, _ => []) ++ rangesBetween (b :: rest)
  | _ => []

/-- The ranges of a set: its single code points and those between its pieces. -/
def members (ps : List Text) : List (CodePoint × CodePoint) :=
  ps.flatten.map (fun c => (c, c)) ++ rangesBetween ps

/-- The part that the inside of a set stands for. Where a mark of negation is left as the first piece
by empty ranges, the hyphen after it is a member of the set. -/
def ofSet (inside : Text) : Part :=
  let skip := if inside.head? = some (.scalar '!') then 2 else 1
  match (closePieces (pieces skip inside)).foldr joinEmpty [] with
  | [[.scalar '!']] => .one
  | [.scalar '!'] :: rest => .oneOf true (members ["-"] ++ members rest)
  | (.scalar '!' :: piece) :: rest => .oneOf true (members (piece :: rest))
  | ps => .oneOf false (members ps)

/-- How many code points before the closing bracket belong to a set in any case. -/
def setStart : Text → Nat
  | .scalar '!' :: .scalar ']' :: _ => 2
  | .scalar '!' :: _ => 1
  | .scalar ']' :: _ => 1
  | _ => 0

/-- The inside of a set whose opening bracket was read, and the rest of the pattern. -/
def set? (t : Text) : Option (Text × Text) :=
  let start := setStart t
  let inside := t.take start ++ (t.drop start).takeWhile (· ≠ .scalar ']')
  match (t.drop start).dropWhile (· ≠ .scalar ']') with
  | [] => none
  | _ :: rest => some (inside, rest)

/-- The parts of a pattern, of which `skip` code points belong to a set read before. -/
def parseFrom : Nat → Text → Glob
  | _, [] => []
  | skip + 1, _ :: t => parseFrom skip t
  | 0, c :: t =>
    if c = '*' then .any :: parseFrom 0 t
    else if c = '?' then .one :: parseFrom 0 t
    else if c = '[' then
      match set? t with
      | some (inside, _) => ofSet inside :: parseFrom (inside.length + 1) t
      | none => .literal c :: parseFrom 0 t
    else .literal c :: parseFrom 0 t

/-- The pattern that a text spells. -/
def parse (t : Text) : Glob := parseFrom 0 t

/-- A part that stands for one code point fits it. -/
def Part.fits (c : CodePoint) : Part → Bool
  | .any => true
  | .one => true
  | .literal d => c = d
  | .oneOf negated ranges =>
    (ranges.any fun r => r.1.toNat ≤ c.toNat && c.toNat ≤ r.2.toNat) != negated

/-- Whether a part followed by a pattern matches each suffix of a text, given that for the pattern. -/
def Part.row (p : Part) : Text → List Bool → List Bool
  | [], after =>
    match p, after with
    | .any, [b] => [b]
    | _, _ => [false]
  | c :: t, after =>
    let rest := p.row t after.tail
    match p with
    | .any => (after.headD false || rest.headD false) :: rest
    | _ => (p.fits c && after.tail.headD false) :: rest

/-- Whether a pattern matches each suffix of a text, the whole text first. -/
def rows (t : Text) : Glob → List Bool
  | [] => t.map (fun _ => false) ++ [true]
  | p :: ps => p.row t (rows t ps)

/-- The pattern matches the whole text. -/
def acceptsParts (ps : Glob) (t : Text) : Bool := (rows t ps).headD false

/-- The pattern that a text spells matches a name. -/
def accepts (pattern name : Text) : Bool := acceptsParts (parse pattern) name

end Glob
end ManifestGraph
