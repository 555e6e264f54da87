/-
  Binary floating-point numbers of 64 bits as exact values, with the rounding of a quotient and of a
  decimal numeral to the nearest one (an exact tie goes to the even mantissa).
-/
namespace ManifestGraph

/-- A 64-bit floating-point number; a finite one is `± mantissa · 2 ^ exponent`. -/
inductive Binary64 where
  | nan
  | infinite (negative : Bool)
  | finite (negative : Bool) (mantissa : Nat) (exponent : Int)
  deriving DecidableEq, Inhabited

namespace Binary64

/-- The least exponent of a mantissa. -/
def minExponent : Int := -1074

/-- The greatest exponent of a mantissa. -/
def maxExponent : Int := 971

/-- Zero of either sign. -/
def zero (negative : Bool) : Binary64 := .finite negative 0 minExponent

/-- `n / d` rounded to the nearest integer, a tie to the even one. -/
def roundDiv (n d : Nat) : Nat :=
  let q := n / d
  let r := n % d
  if 2 * r < d || (2 * r == d && q % 2 == 0) then q else q + 1

/-- `n / d · base ^ (-e)` as a fraction. -/
def scaled (base n d : Nat) (e : Int) : Nat × Nat :=
  if e < 0 then (n * Nat.pow base (-e).toNat, d) else (n, d * Nat.pow base e.toNat)

/-- The least mantissa of 53 bits: `2 ^ 52`. -/
def leastFull : Nat := 0x10000000000000

/-- The exponent that gives the mantissa of `n / d` its 53 bits, but not below the least one. -/
def exponentFor (n d : Nat) : Int :=
  let e : Int := (Nat.log2 n : Int) - Nat.log2 d - 52
  let (a, b) := scaled 2 n d e
  max (if a < b * leastFull then e - 1 else e) minExponent

/-- The number with a mantissa of at most `2 ^ 53`, or an infinity. -/
def ofParts (negative : Bool) (mantissa : Nat) (exponent : Int) : Binary64 :=
  let (m, e) := if mantissa = 2 * leastFull then (leastFull, exponent + 1) else (mantissa, exponent)
  if maxExponent < e then .infinite negative else .finite negative m e

/-- The number nearest to `± n / d`. -/
def ofRatio (negative : Bool) (n d : Nat) : Binary64 :=
  if n = 0 then zero negative
  else
    let e := exponentFor n d
    let (a, b) := scaled 2 n d e
    ofParts negative (roundDiv a b) e

/-- The exponent of a power of ten that is not above a number, by `10 ^ 3 ≤ 2 ^ 10`. -/
def lowerPlace (n : Nat) : Nat := Nat.log2 n * 3 / 10

/-- The exponent of a power of ten that is above a number, by `2 ^ 3 ≤ 10`. -/
def upperPlace (n : Nat) : Nat := Nat.log2 n / 3 + 1

/-- The number nearest to `± digits · 10 ^ exponent`. Values far out of range are settled by their
magnitude alone. -/
def ofDecimal (negative : Bool) (digits : Nat) (exponent : Int) : Binary64 :=
  if digits = 0 then zero negative
  else if (310 : Int) < lowerPlace digits + exponent then .infinite negative
  else if upperPlace digits + exponent < (-400 : Int) then zero negative
  else
    let (a, b) := scaled 10 digits 1 (-exponent)
    ofRatio negative a b

/-- A finite number without its sign, as a fraction. -/
def magnitude (mantissa : Nat) (exponent : Int) : Nat × Nat := scaled 2 mantissa 1 (-exponent)

/-- The integer that remains when the fraction of a finite number is dropped. -/
def truncate (negative : Bool) (mantissa : Nat) (exponent : Int) : Int :=
  let (a, b) := magnitude mantissa exponent
  if negative then -((a / b : Nat) : Int) else ((a / b : Nat) : Int)

/-- The integer that a number is equal to. -/
def toInt? : Binary64 → Option Int
  | .finite negative m e =>
    let (a, b) := magnitude m e
    if a % b = 0 then some (truncate negative m e) else none
  | _ => none

/-- Equal to zero. -/
def isZero : Binary64 → Bool
  | .finite _ m _ => m = 0
  | _ => false

end Binary64
end ManifestGraph
