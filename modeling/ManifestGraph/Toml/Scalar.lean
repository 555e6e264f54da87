/-
  Numbers, dates and times of TOML. Every reader takes the longest value at the start of a text and
  gives the rest with it.
-/
import ManifestGraph.Data
namespace ManifestGraph.Toml

/-- Why a document is refused. -/
inductive Fault where
  | encoding
  | malformed
  | longNumeral
  | tooDeep
  | impossibleDate (why : Text)
  deriving DecidableEq

/-- The rest of a text after a code point. -/
def after? (c : CodePoint) : Text → Option Text
  | [] => none
  | d :: t => if d = c then some t else none

/-! ## Numbers -/

/-- The digits at the start, each after one underscore or none, without the underscores. -/
def moreDigits (isDigit : CodePoint → Bool) : Text → Text × Text
  | [] => ([], [])
  | [c] => if isDigit c then ([c], []) else ([], [c])
  | c :: d :: t =>
    if isDigit c then
      let (ds, rest) := moreDigits isDigit (d :: t)
      (c :: ds, rest)
    else if c = '_' && isDigit d then
      let (ds, rest) := moreDigits isDigit t
      (d :: ds, rest)
    else ([], c :: d :: t)

/-- Digits with single underscores between them, at least one. -/
def digits? (isDigit : CodePoint → Bool) : Text → Option (Text × Text)
  | [] => none
  | c :: t =>
    if isDigit c then
      let (ds, rest) := moreDigits isDigit t
      some (c :: ds, rest)
    else none

/-- The value of digits in a base. -/
def valueIn (base : Nat) (ds : Text) : Nat :=
  ds.foldl (fun acc c => base * acc + (c.hexValue?).getD 0) 0

/-- A digit of a base. -/
def isDigitIn (base : Nat) (c : CodePoint) : Bool := (c.hexValue?).any (· < base)

/-- An integer in the base that a letter after a zero names. -/
def based? : Text → Option (Int × Text)
  | .scalar '0' :: letter :: t =>
    let base? : Option Nat :=
      if letter = 'x' then some 16
      else if letter = 'o' then some 8
      else if letter = 'b' then some 2
      else none
    base?.bind fun base =>
      (digits? (isDigitIn base) t).map fun (ds, rest) => ((valueIn base ds : Int), rest)
  | _ => none

/-- The digits before a decimal point: a zero alone, or digits that start with another one. -/
def whole? : Text → Option (Text × Text)
  | .scalar '0' :: t => some (['0'], t)
  | t => digits? CodePoint.isDigit t

/-- The digits after a decimal point. -/
def fraction? (t : Text) : Option (Text × Text) :=
  (after? '.' t).bind (digits? CodePoint.isDigit)

/-- A sign, and whether it is negative. -/
def sign : Text → Bool × Text
  | .scalar '-' :: t => (true, t)
  | .scalar '+' :: t => (false, t)
  | t => (false, t)

/-- An integer with its sign. -/
def signed (negative : Bool) (n : Nat) : Int := if negative then -(n : Int) else n

/-- The exponent of ten after a number. -/
def exponent? : Text → Option (Int × Text)
  | [] => none
  | e :: t =>
    if e = 'e' || e = 'E' then
      let (negative, t) := sign t
      (digits? CodePoint.isDigit t).map fun (ds, rest) => (signed negative (valueIn 10 ds), rest)
    else none

/-- The longest integer in base ten, in digits. -/
def maxDigits : Nat := 4300

/-- A number in base ten, if there is one. -/
def decimal? (t : Text) : Option (Except Fault (Data × Text)) := do
  let (negative, t) := sign t
  let (whole, t) ← whole? t
  match fraction? t, exponent? ((fraction? t).elim t (·.2)) with
  | none, none =>
    if maxDigits < whole.length then some (.error .longNumeral)
    else some (.ok (.int (signed negative (valueIn 10 whole)), t))
  | fraction, exponent =>
    let after := fraction.elim [] (·.1)
    let rest := exponent.elim (fraction.elim t (·.2)) (·.2)
    let power := exponent.elim 0 (·.1) - after.length
    some (.ok (.float (.ofDecimal negative (valueIn 10 (whole ++ after)) power), rest))

/-- An infinity, or what is not a number. -/
def special? (t : Text) : Option (Data × Text) :=
  let (negative, rest) := sign t
  match rest with
  | .scalar 'i' :: .scalar 'n' :: .scalar 'f' :: rest => some (.float (.infinite negative), rest)
  | .scalar 'n' :: .scalar 'a' :: .scalar 'n' :: rest => some (.float .nan, rest)
  | _ => none

/-! ## Dates and times -/

/-- A number of two digits within bounds. -/
def two? (least greatest : Nat) : Text → Option (Nat × Text)
  | a :: b :: t =>
    let n := valueIn 10 [a, b]
    if a.isDigit && b.isDigit && least ≤ n && n ≤ greatest then some (n, t) else none
  | _ => none

/-- The microseconds that the digits after a second mean: the first six count. -/
def microseconds (ds : Text) : Nat :=
  valueIn 10 ((ds ++ List.replicate 6 (CodePoint.scalar '0')).take 6)

/-- The digits of a fraction of a second. -/
def secondFraction (t : Text) : Nat × Text :=
  match after? '.' t with
  | some rest =>
    match rest.takeWhile CodePoint.isDigit with
    | [] => (0, t)
    | ds => (microseconds ds, rest.dropWhile CodePoint.isDigit)
  | none => (0, t)

/-- A time of day. -/
def time? (t : Text) : Option (TimeOfDay × Text) := do
  let (hour, t) ← two? 0 23 t
  let (minute, t) ← two? 0 59 (← after? ':' t)
  let (second, t) ← two? 0 59 (← after? ':' t)
  let (microsecond, t) := secondFraction t
  some ({ hour, minute, second, microsecond }, t)

/-- A distance from universal time, in minutes. -/
def offset? (t : Text) : Option (Int × Text) :=
  match t with
  | .scalar 'Z' :: rest => some (0, rest)
  | .scalar 'z' :: rest => some (0, rest)
  | .scalar '+' :: rest => distance? false rest
  | .scalar '-' :: rest => distance? true rest
  | _ => none
where
  /-- Hours and minutes. -/
  distance? (negative : Bool) (t : Text) : Option (Int × Text) := do
    let (hours, t) ← two? 0 23 t
    let (minutes, t) ← two? 0 59 (← after? ':' t)
    some (signed negative (60 * hours + minutes), t)

/-- A date, which may not be in the calendar. -/
def date? (t : Text) : Option (Date × Text) := do
  let (century, t) ← two? 0 99 t
  let (year, t) ← two? 0 99 t
  let (month, t) ← two? 1 12 (← after? '-' t)
  let (day, t) ← two? 1 31 (← after? '-' t)
  some ({ year := 100 * century + year, month, day }, t)

/-- How many days a month has. -/
def daysIn (year month : Nat) : Nat :=
  if month = 2 then (if year % 4 = 0 ∧ (year % 100 ≠ 0 ∨ year % 400 = 0) then 29 else 28)
  else if month = 4 ∨ month = 6 ∨ month = 9 ∨ month = 11 then 30
  else 31

/-- The calendar has the date; it starts with the year one. -/
def checkDate (d : Date) : Except Fault Unit :=
  if d.year = 0 then .error (.impossibleDate "year 0 is out of range")
  else if daysIn d.year d.month < d.day then
    .error (.impossibleDate "day is out of range for month")
  else .ok ()

/-- The time after a date, with a separator between them. -/
def timeAfter? : Text → Option (TimeOfDay × Text)
  | [] => none
  | c :: t => if c = 'T' || c = 't' || c = ' ' then time? t else none

/-- A moment, if there is one. -/
def moment? (t : Text) : Option (Except Fault (Data × Text)) :=
  match date? t with
  | some (date, rest) =>
    let (moment, rest) : Moment × Text := match timeAfter? rest with
      | none => (.date date, rest)
      | some (time, rest) =>
        match offset? rest with
        | none => (.both date time none, rest)
        | some (offset, rest) => (.both date time (some offset), rest)
    some ((checkDate date).map fun _ => (.moment moment, rest))
  | none => (time? t).map fun (time, rest) => .ok (.moment (.time time), rest)

/-- A truth value. -/
def truth? : Text → Option (Data × Text)
  | .scalar 't' :: .scalar 'r' :: .scalar 'u' :: .scalar 'e' :: t => some (.bool true, t)
  | .scalar 'f' :: .scalar 'a' :: .scalar 'l' :: .scalar 's' :: .scalar 'e' :: t =>
    some (.bool false, t)
  | _ => none

/-- A value that is neither a string nor a container. -/
def scalar (t : Text) : Except Fault (Data × Text) :=
  if let some found := truth? t then .ok found
  else if let some found := moment? t then found
  else if let some (n, rest) := based? t then .ok (.int n, rest)
  else if let some found := decimal? t then found
  else if let some found := special? t then .ok found
  else .error .malformed

end ManifestGraph.Toml
