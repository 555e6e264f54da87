/-
  Text as a list of code points.

  A JSON document may spell half of a surrogate pair (`"\ud800"`), which no `Char` holds, so a code
  point here is a character or such a half. Everything the program reads, compares and writes is a
  `Text`; a string literal stands for its characters.
-/
namespace ManifestGraph

/-- A Unicode code point: a character, or one half of a surrogate pair that stands alone. -/
inductive CodePoint where
  | scalar (c : Char)
  | surrogate (n : Fin 2048)
  deriving DecidableEq, Inhabited

namespace CodePoint

/-- The number of a code point, below `0x110000`. -/
def toNat : CodePoint → Nat
  | .scalar c => c.toNat
  | .surrogate n => 0xD800 + n.val

/-- The code point with a number, if there is one. -/
def ofNat? (n : Nat) : Option CodePoint :=
  if h : n.isValidChar then some (.scalar ⟨⟨⟨n, by
    rcases h with h | h <;> omega⟩⟩, h⟩)
  else if h : 0xD800 ≤ n ∧ n - 0xD800 < 2048 then some (.surrogate ⟨n - 0xD800, h.2⟩)
  else none

instance : Coe Char CodePoint := ⟨.scalar⟩

/-- The character, unless the code point is a lone surrogate. -/
def char? : CodePoint → Option Char
  | .scalar c => some c
  | .surrogate _ => none

/-- A decimal digit `0` to `9`. -/
def isDigit (c : CodePoint) : Bool := 0x30 ≤ c.toNat && c.toNat ≤ 0x39

/-- An ASCII letter. -/
def isLetter (c : CodePoint) : Bool :=
  (0x41 ≤ c.toNat && c.toNat ≤ 0x5A) || (0x61 ≤ c.toNat && c.toNat ≤ 0x7A)

/-- An ASCII letter in lower case, all else kept. -/
def asciiLower : CodePoint → CodePoint
  | .scalar c => .scalar c.toLower
  | .surrogate n => .surrogate n

/-- The value of a hexadecimal digit of either case. -/
def hexValue? (c : CodePoint) : Option Nat :=
  let n := c.toNat
  if 0x30 ≤ n && n ≤ 0x39 then some (n - 0x30)
  else if 0x61 ≤ n && n ≤ 0x66 then some (n - 0x57)
  else if 0x41 ≤ n && n ≤ 0x46 then some (n - 0x37)
  else none

end CodePoint

/-- A finite sequence of code points. -/
abbrev Text := List CodePoint

namespace Text

/-- The text of a string. -/
def ofString (s : String) : Text := s.toList.map CodePoint.scalar

instance : Coe String Text := ⟨ofString⟩

/-- The string of a text without lone surrogates. -/
def toString? (t : Text) : Option String :=
  (t.mapM CodePoint.char?).map String.ofList

/-- The decimal numeral of a number. -/
def ofNat (n : Nat) : Text := (Nat.toDigits 10 n).map CodePoint.scalar

/-- The decimal numeral of an integer. -/
def ofInt : Int → Text
  | .ofNat n => ofNat n
  | .negSucc n => CodePoint.scalar '-' :: ofNat (n + 1)

/-- The digit of a value below sixteen, in lower case. -/
def hexDigit (n : Nat) : CodePoint :=
  if n < 10 then .scalar (Char.ofNat (0x30 + n)) else .scalar (Char.ofNat (0x57 + n))

/-- The last `width` hexadecimal digits of a number, in lower case. -/
def hex : Nat → Nat → Text
  | 0, _ => []
  | width + 1, n => hex width (n / 16) ++ [hexDigit (n % 16)]

/-- The value of a run of decimal digits, read after `acc`. -/
def digitsValue (t : Text) : Nat := t.foldl (fun acc c => 10 * acc + (c.toNat - 0x30)) 0

/-- Order of texts by their code points, the first difference deciding. -/
def le : Text → Text → Bool
  | [], _ => true
  | _ :: _, [] => false
  | a :: as, b :: bs => a.toNat < b.toNat || (a.toNat == b.toNat && le as bs)

/-- Sorted in ascending order; equal texts keep their places. -/
def sort (ts : List Text) : List Text := ts.mergeSort le

/-- Pieces joined with a separator between them. -/
def join (sep : Text) (ts : List Text) : Text := sep.intercalate ts

/-- `sub` occurs somewhere in the text. -/
def isInfixOf (sub : Text) : Text → Bool
  | [] => sub.isEmpty
  | c :: t => sub.isPrefixOf (c :: t) || isInfixOf sub t

/-- The pieces between the occurrences of one code point. -/
def splitOn (sep : CodePoint) : Text → List Text
  | [] => [[]]
  | c :: t =>
    if c = sep then [] :: splitOn sep t
    else match splitOn sep t with
      | piece :: pieces => (c :: piece) :: pieces
      | [] => [[c]]

/-- The part after the last occurrence of a code point, or all of it. -/
def afterLast (sep : CodePoint) (t : Text) : Text := (t.reverse.takeWhile (· ≠ sep)).reverse

/-- Both ends stripped of the code points that satisfy `p`. -/
def trimBy (p : CodePoint → Bool) (t : Text) : Text :=
  ((t.dropWhile p).reverse.dropWhile p).reverse

/-- Cut off from the end while `p` holds. -/
def trimEndBy (p : CodePoint → Bool) (t : Text) : Text := (t.reverse.dropWhile p).reverse

/-- Every occurrence of one code point replaced by another. -/
def replace (a b : CodePoint) (t : Text) : Text := t.map fun c => if c = a then b else c

/-- No lone surrogates occur. -/
def isScalar (t : Text) : Bool := t.all fun c => c.char?.isSome

/-- ASCII letters in lower case, all else kept. -/
def asciiLower (t : Text) : Text := t.map CodePoint.asciiLower

end Text
end ManifestGraph
