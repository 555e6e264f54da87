/-
  Paths in normal form: empty parts and single dots are dropped, double dots are kept. The empty path
  is written as a dot.
-/
import ManifestGraph.Text
namespace ManifestGraph

/-- A path: how many slashes it starts with (none, one or two) and its parts. -/
structure Path where
  slashes : Nat := 0
  parts : List Text := []
  deriving DecidableEq, Inhabited

namespace Path

/-- The slash between parts. -/
def slash : CodePoint := '/'

/-- The number of slashes that a text starts with; two make a root of their own, more count as one. -/
def leadingSlashes (t : Text) : Nat :=
  match (t.takeWhile (· = slash)).length with
  | 0 => 0
  | 2 => 2
  | _ => 1

/-- The path that a text names. -/
def ofText (t : Text) : Path :=
  { slashes := leadingSlashes t
    parts := (Text.splitOn slash t).filter fun p => !p.isEmpty && p ≠ ("." : Text) }

/-- The path as text. -/
def toText (p : Path) : Text :=
  if p.slashes = 0 ∧ p.parts.isEmpty then "."
  else List.replicate p.slashes slash ++ Text.join [slash] p.parts

/-- The path starts at the root. -/
def isAbsolute (p : Path) : Bool := p.slashes ≠ 0

/-- A path from another one. -/
def append (p q : Path) : Path := if q.isAbsolute then q else { p with parts := p.parts ++ q.parts }

instance : Append Path := ⟨append⟩

/-- The last part; empty if there is none. -/
def name (p : Path) : Text := p.parts.getLastD []

/-- The path without its last part. -/
def parent (p : Path) : Path := { p with parts := p.parts.dropLast }

/-- The end of the name from its last dot on; none if the dot is at either end. -/
def suffix (p : Path) : Text :=
  let tail := Text.afterLast '.' p.name
  if tail.isEmpty || p.name.length ≤ tail.length + 1 then [] else "." ++ tail

/-- The parent directory, as a part. -/
def up : Text := ".."

/-- The parts of an absolute path with double dots resolved by name; latest part first. -/
def resolveUp : List Text → List Text → List Text
  | here, [] => here
  | here, p :: ps => if p = up then resolveUp here.tail ps else resolveUp (p :: here) ps

/-- The parts from the root, by names alone, of a path that is seen from a directory. -/
def absoluteParts (directory : List Text) (p : Path) : List Text :=
  (resolveUp (if p.isAbsolute then [] else directory.reverse) p.parts).reverse

/-- The path seen from the root; double dots are kept. -/
def absolute (p : Path) (directory : List Text) : Path :=
  if p.isAbsolute then p else { slashes := 1, parts := directory ++ p.parts }

/-- The parts that two lists start with in common are dropped from both. -/
def dropCommon : List Text → List Text → List Text × List Text
  | a :: as, b :: bs => if a = b then dropCommon as bs else (a :: as, b :: bs)
  | as, bs => (as, bs)

/-- The way from `base` to `p`, both seen from a directory, by names alone. -/
def relativeTo (directory : List Text) (p base : Path) : Text :=
  let (rest, left) := dropCommon (p.absoluteParts directory) (base.absoluteParts directory)
  let way := left.map (fun _ => up) ++ rest
  if way.isEmpty then "." else Text.join [slash] way

end Path
end ManifestGraph
