/-
  Blank code points (white space in the sense of the Unicode property, with the four ASCII
  separators), and decimal digits of every script.
-/
import ManifestGraph.Text
namespace ManifestGraph

namespace CodePoint

/-- White space: the Unicode property and the separators `0x1C` to `0x1F`. -/
def isBlank (c : CodePoint) : Bool :=
  let n := c.toNat
  (0x09 ≤ n && n ≤ 0x0D) || (0x1C ≤ n && n ≤ 0x20) || n = 0x85 || n = 0xA0 || n = 0x1680
    || (0x2000 ≤ n && n ≤ 0x200A) || n = 0x2028 || n = 0x2029 || n = 0x202F || n = 0x205F
    || n = 0x3000

/-- White space around a numeral: all of it but the four ASCII separators. -/
def isNumeralBlank (c : CodePoint) : Bool := c.isBlank && !(0x1C ≤ c.toNat && c.toNat ≤ 0x1F)

/-- The digit zero of every script; the other nine digits follow it. -/
def digitZeros : List Nat := [
    0x30, 0x660, 0x6F0, 0x7C0, 0x966, 0x9E6, 0xA66, 0xAE6, 0xB66, 0xBE6, 0xC66, 0xCE6, 0xD66, 0xDE6,
    0xE50, 0xED0, 0xF20, 0x1040, 0x1090, 0x17E0, 0x1810, 0x1946, 0x19D0, 0x1A80, 0x1A90, 0x1B50,
    0x1BB0, 0x1C40, 0x1C50, 0xA620, 0xA8D0, 0xA900, 0xA9D0, 0xA9F0, 0xAA50, 0xABF0, 0xFF10, 0x104A0,
    0x10D30, 0x11066, 0x110F0, 0x11136, 0x111D0, 0x112F0, 0x11450, 0x114D0, 0x11650, 0x116C0,
    0x11730, 0x118E0, 0x11950, 0x11C50, 0x11D50, 0x11DA0, 0x16A60, 0x16AC0, 0x16B50, 0x1D7CE,
    0x1D7D8, 0x1D7E2, 0x1D7EC, 0x1D7F6, 0x1E140, 0x1E2F0, 0x1E950, 0x1FBF0]

/-- The value of a decimal digit of any script. -/
def digitValue? (c : CodePoint) : Option Nat :=
  let n := c.toNat
  (digitZeros.find? fun first => first ≤ n && n < first + 10).map (n - ·)

end CodePoint

namespace Text

/-- Both ends stripped of white space. -/
def trim (t : Text) : Text := t.trimBy CodePoint.isBlank

/-- The longest numeral that is converted to or from an integer, in digits. -/
def maxNumeralDigits : Nat := 4300

/-- Digits of any script, with single underscores allowed between them; `spaced` says that a digit
stands right before. -/
def readDigits (spaced : Bool) : Text → Option (List Nat)
  | [] => if spaced then some [] else none
  | c :: t =>
    match c.digitValue? with
    | some d => (readDigits true t).map (d :: ·)
    | none => if c = '_' && spaced then
        (match t with
          | [] => none
          | _ :: _ => readDigits false t)
      else none

/-- An integer as people write it: white space around it, a sign, single underscores between the
digits, and no more than `maxNumeralDigits` digits. -/
def toInt? (t : Text) : Option Int :=
  let value (digits : Text) : Option Nat := do
    let ds ← readDigits false digits
    if ds.length ≤ maxNumeralDigits then some (ds.foldl (fun acc d => 10 * acc + d) 0) else none
  match t.trimBy CodePoint.isNumeralBlank with
  | .scalar '-' :: digits => (value digits).map fun n => -(n : Int)
  | .scalar '+' :: digits => (value digits).map fun n => (n : Int)
  | digits => (value digits).map fun n => (n : Int)

end Text
end ManifestGraph
