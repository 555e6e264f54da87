/-
  The tokens of JSON text. A bare word or number runs to the next delimiter; inside a string, an
  escaped high surrogate half and an escaped low half right after it make one character.

  The lexer is a machine that takes one code point at a time and hands out the tokens it completes.
-/
import ManifestGraph.Data
namespace ManifestGraph.Json

/-- What a reader of JSON accepts beyond the common grammar. -/
structure Dialect where
  /-- Lone surrogate halves may stand in strings. -/
  halves : Bool
  /-- A number with a fraction or an exponent may have any number of whole digits. -/
  longFloats : Bool
  /-- A key that occurs again in a record is kept with its value; else the values are settled. -/
  repeats : Bool
  /-- How deep containers may nest. -/
  maxDepth : Nat
  /-- An empty container counts like any other; else only one with something in it counts. -/
  countsEmpty : Bool

/-- Why JSON text is refused. -/
inductive Fault where
  | encoding
  | malformed
  | longNumeral
  | listTooDeep
  | recordTooDeep
  deriving DecidableEq

/-- A token; an atom is a string, a number or a literal. -/
inductive Token where
  | listOpen
  | listClose
  | recordOpen
  | recordClose
  | comma
  | colon
  | atom (value : Data)

/-- White space between tokens. -/
def isSpace (c : CodePoint) : Bool := c = ' ' || c = '\t' || c = '\n' || c = '\r'

/-- A code point that belongs to a bare word or number. -/
def isBare (c : CodePoint) : Bool :=
  c.isDigit || c.isLetter || c = '+' || c = '-' || c = '.'

/-- The token of a punctuation mark. -/
def punctuation? : CodePoint → Option Token
  | .scalar '[' => some .listOpen
  | .scalar ']' => some .listClose
  | .scalar '{' => some .recordOpen
  | .scalar '}' => some .recordClose
  | .scalar ',' => some .comma
  | .scalar ':' => some .colon
  | _ => none

/-- The most digits of an integer, or before the point of any number. -/
def maxDigits : Nat := 4300

/-- The digits after a decimal point, and the rest; without a point there are none. -/
def fraction? : Text → Option (Text × Text)
  | .scalar '.' :: t =>
    let digits := t.takeWhile CodePoint.isDigit
    if digits.isEmpty then none else some (digits, t.dropWhile CodePoint.isDigit)
  | t => some ([], t)

/-- The sign and digits of an exponent that ends the text; none inside if the text is empty. -/
def exponent? : Text → Option (Option Int)
  | [] => some none
  | e :: t =>
    if e = 'e' || e = 'E' then
      let (negative, digits) : Bool × Text := match t with
        | .scalar '-' :: r => (true, r)
        | .scalar '+' :: r => (false, r)
        | r => (false, r)
      if digits.isEmpty || !digits.all CodePoint.isDigit then none
      else
        let n : Int := Text.digitsValue digits
        some (some (if negative then -n else n))
    else none

/-- The number that a bare word spells without its sign. -/
def unsigned? (d : Dialect) (negative : Bool) (t : Text) : Except Fault Data :=
  let whole := t.takeWhile CodePoint.isDigit
  if whole.isEmpty || (whole.head? = some (.scalar '0') && whole.length ≠ 1) then .error .malformed
  else
    match fraction? (t.dropWhile CodePoint.isDigit) with
    | none => .error .malformed
    | some (fraction, rest) =>
      match exponent? rest with
      | none => .error .malformed
      | some exponent =>
        let isWhole := fraction.isEmpty && exponent.isNone
        if maxDigits < whole.length && (isWhole || !d.longFloats) then .error .longNumeral
        else if isWhole then
          let n : Int := Text.digitsValue whole
          .ok (.int (if negative then -n else n))
        else
          .ok (.float (.ofDecimal negative (Text.digitsValue (whole ++ fraction))
            (exponent.getD 0 - fraction.length)))

/-- The value of a bare word. -/
def bareValue (d : Dialect) (t : Text) : Except Fault Data :=
  if t = ("true" : Text) then .ok (.bool true)
  else if t = ("false" : Text) then .ok (.bool false)
  else if t = ("null" : Text) then .ok .null
  else if t = ("NaN" : Text) then .ok (.float .nan)
  else if t = ("Infinity" : Text) then .ok (.float (.infinite false))
  else if t = ("-Infinity" : Text) then .ok (.float (.infinite true))
  else match t with
    | .scalar '-' :: r => unsigned? d true r
    | r => unsigned? d false r

/-- Where the lexer stands: between tokens, in a bare word, or in a string. What was read of the token
is kept in reverse; `high` says that it ends with a high half that was escaped. -/
inductive Lexer where
  | between
  | bare (seen : Text)
  | quoted (seen : Text) (high : Bool)
  | escape (seen : Text) (high : Bool)
  | hex (seen : Text) (high : Bool) (left value : Nat)

/-- A unit that was escaped by its number, put behind what was read of a string. -/
def pushUnit (seen : Text) (high : Bool) (unit : Nat) : Lexer :=
  let alone : Lexer :=
    .quoted ((CodePoint.ofNat? unit).toList ++ seen) (0xD800 ≤ unit && unit < 0xDC00)
  match high, seen with
  | true, c :: before =>
    if 0xDC00 ≤ unit && unit < 0xE000 then
      let n := 0x10000 + (c.toNat - 0xD800) * 1024 + (unit - 0xDC00)
      .quoted ((CodePoint.ofNat? n).toList ++ before) false
    else alone
  | _, _ => alone

/-- The code point of an escape of one letter. -/
def escaped? : CodePoint → Option CodePoint
  | .scalar '"' => some '"'
  | .scalar '\\' => some '\\'
  | .scalar '/' => some '/'
  | .scalar 'b' => some '\x08'
  | .scalar 'f' => some '\x0c'
  | .scalar 'n' => some '\n'
  | .scalar 'r' => some '\r'
  | .scalar 't' => some '\t'
  | _ => none

/-- A code point met between tokens. -/
def start (c : CodePoint) : Except Fault (Lexer × List Token) :=
  if isSpace c then .ok (.between, [])
  else if c = '"' then .ok (.quoted [] false, [])
  else if isBare c then .ok (.bare [c], [])
  else match punctuation? c with
    | some token => .ok (.between, [token])
    | none => .error .malformed

/-- One step of the lexer, with the tokens that it completes. -/
def Lexer.step (d : Dialect) : Lexer → CodePoint → Except Fault (Lexer × List Token)
  | .between, c => start c
  | .bare seen, c =>
    if isBare c then .ok (.bare (c :: seen), [])
    else do
      let v ← bareValue d seen.reverse
      let (next, tokens) ← start c
      .ok (next, .atom v :: tokens)
  | .quoted seen high, c =>
    if c = '"' then
      if d.halves || Text.isScalar seen then .ok (.between, [.atom (.text seen.reverse)])
      else .error .malformed
    else if c = '\\' then .ok (.escape seen high, [])
    else if c.toNat < 0x20 then .error .malformed
    else .ok (.quoted (c :: seen) false, [])
  | .escape seen high, c =>
    if c = 'u' then .ok (.hex seen high 4 0, [])
    else match escaped? c with
      | some e => .ok (.quoted (e :: seen) false, [])
      | none => .error .malformed
  | .hex seen high left value, c =>
    match c.hexValue? with
    | none => .error .malformed
    | some digit =>
      let value := value * 16 + digit
      if left ≤ 1 then .ok (pushUnit seen high value, []) else .ok (.hex seen high (left - 1) value, [])

/-- The last token, when the text ends. -/
def Lexer.finish (d : Dialect) : Lexer → Except Fault (List Token)
  | .between => .ok []
  | .bare seen => (bareValue d seen.reverse).map fun v => [.atom v]
  | _ => .error .malformed

end ManifestGraph.Json
