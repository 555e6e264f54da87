/-
  The shortest decimal numeral that reads back as a given floating-point number: the fewest digits
  for which a neighbour of the value on that decimal grid reads back, and the nearer one if both do; of
  two that are equally near, the even one.
-/
import ManifestGraph.Binary64
import ManifestGraph.Text
namespace ManifestGraph.Binary64

/-- How many decimal digits a number has. -/
def decimalLength (n : Nat) : Nat := (Nat.toDigits 10 n).length

/-- A decimal numeral `digits · 10 ^ exponent`. -/
structure Numeral where
  digits : Nat
  exponent : Int
  deriving DecidableEq

/-- The place of the decimal point of `n / d`: the value lies in `[10 ^ (p - 1), 10 ^ p)`. -/
def pointPlace (n d : Nat) : Int :=
  let p : Int := (decimalLength n : Int) - decimalLength d
  let (a, b) := scaled 10 n d p
  if b ≤ a then p + 1 else p

/-- The neighbour of `n / d` on the grid of `10 ^ exponent` that reads back as `x`. -/
def onGrid (x : Binary64) (n d : Nat) (exponent : Int) : Option Numeral :=
  let (a, b) := scaled 10 n d exponent
  let low := a / b
  let readsBack (digits : Nat) : Bool := ofDecimal false digits exponent = x
  let nearer := b < 2 * (a % b) || (b = 2 * (a % b) && low % 2 = 1)
  if readsBack low then
    if readsBack (low + 1) && nearer then some ⟨low + 1, exponent⟩ else some ⟨low, exponent⟩
  else if readsBack (low + 1) then some ⟨low + 1, exponent⟩
  else none

/-- Trailing zeros moved from the digits into the exponent, at most `fuel` of them. -/
def Numeral.normal : Nat → Numeral → Numeral
  | 0, x => x
  | fuel + 1, x =>
    if x.digits ≠ 0 ∧ x.digits % 10 = 0 then normal fuel ⟨x.digits / 10, x.exponent + 1⟩ else x

/-- The exact value of `mantissa · 2 ^ exponent` as a decimal numeral. -/
def exactNumeral (mantissa : Nat) (exponent : Int) : Numeral :=
  if exponent < 0 then ⟨mantissa * Nat.pow 5 (-exponent).toNat, exponent⟩
  else ⟨mantissa * Nat.pow 2 exponent.toNat, 0⟩

/-- The shortest numeral that reads back as `mantissa · 2 ^ exponent`. -/
def shortest (mantissa : Nat) (exponent : Int) : Numeral :=
  let (n, d) := magnitude mantissa exponent
  let x : Binary64 := .finite false mantissa exponent
  let p := pointPlace n d
  ((List.range 17).findSome? fun (count : Nat) => onGrid x n d (p - (count + 1 : Nat))).getD
    (exactNumeral mantissa exponent)

/-- How numerals are written: positionally while the decimal point stands right of `lowPlace` and not
right of `highPlace`, else with an exponent of at least `exponentWidth` digits. -/
structure Layout where
  lowPlace : Int
  highPlace : Int
  exponentWidth : Nat
  nan : Text
  infinity : Text

/-- The layout of numbers in documents and messages, but for the words of the special values. -/
def Layout.plain (nan infinity : Text) : Layout := ⟨-4, 16, 2, nan, infinity⟩

/-- A run of zeros. -/
def zeros (count : Nat) : Text := List.replicate count '0'

/-- The text of a finite number without its sign. -/
def Layout.magnitude (l : Layout) (mantissa : Nat) (exponent : Int) : Text :=
  if mantissa = 0 then "0.0"
  else
    let x := (shortest mantissa exponent).normal 400
    let ds := Text.ofNat x.digits
    let place : Int := ds.length + x.exponent
    if l.lowPlace < place ∧ place ≤ l.highPlace then
      if place ≤ 0 then "0." ++ zeros (-place).toNat ++ ds
      else if ds.length ≤ place then ds ++ zeros (place.toNat - ds.length) ++ ".0"
      else ds.take place.toNat ++ "." ++ ds.drop place.toNat
    else
      let fraction : Text := if ds.length = 1 then [] else "." ++ ds.drop 1
      let power := Text.ofNat (place - 1).natAbs
      let sign : Text := if place - 1 < 0 then "-" else "+"
      ds.take 1 ++ fraction ++ "e" ++ sign ++ zeros (l.exponentWidth - power.length) ++ power

/-- The text of a number. -/
def Layout.render (l : Layout) : Binary64 → Text
  | .nan => l.nan
  | .infinite negative => sign negative ++ l.infinity
  | .finite negative m e => sign negative ++ l.magnitude m e
where
  /-- The sign that stands before a number. -/
  sign (negative : Bool) : Text := if negative then ['-'] else []

end ManifestGraph.Binary64
