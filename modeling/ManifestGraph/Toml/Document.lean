/-
  TOML documents: statements one after the other, each a key with its value or the header of a table.
-/
import ManifestGraph.Bytes.Utf8
import ManifestGraph.Failure
import ManifestGraph.Toml.Quoted
import ManifestGraph.Toml.Scalar
import ManifestGraph.Toml.Table
namespace ManifestGraph.Toml

/-- A value, or the fault of a malformed document. -/
def orMalformed : Option α → Except Fault α
  | some a => .ok a
  | none => .error .malformed

/-- The text without the spaces at its start. -/
def dropSpaces (t : Text) : Text := t.dropWhile isSpace

/-- The text after a comment, if it starts with one; its line feed is kept. -/
def dropComment? : Text → Option Text
  | [] => some []
  | c :: t =>
    if c = '#' then
      if (t.takeWhile (· ≠ .scalar '\n')).all fun c => !isControl c then
        some (t.dropWhile (· ≠ .scalar '\n'))
      else none
    else some (c :: t)

/-- The text after spaces, line feeds and comments; `fuel` bounds how many of them there are. -/
def dropBlanks? : Nat → Text → Option Text
  | 0, _ => none
  | fuel + 1, t =>
    match t.dropWhile isSpaceOrBreak with
    | [] => some []
    | c :: rest =>
      if c = '#' then (dropComment? (c :: rest)).bind (dropBlanks? fuel) else some (c :: rest)

/-- A key with dots between its parts, and the rest after the spaces that follow it. -/
def key? : Nat → Text → Option (KeyPath × Text)
  | 0, _ => none
  | fuel + 1, t => do
    let (part, t) ← keyPart? t
    match after? '.' (dropSpaces t) with
    | none => some ([part], dropSpaces t)
    | some t =>
      let (parts, t) ← key? fuel (dropSpaces t)
      some (part :: parts, t)

/-- What is left of the nesting that a value may have, when an array or a table that is written as one
value takes some of it. -/
def roomAfter (cost room : Nat) : Except Fault Nat :=
  if room < cost then .error .tooDeep else .ok (room - cost)

/-- The nesting that an array takes. -/
def arrayCost : Nat := 2

/-- The nesting that a table takes which is written as one value. -/
def inlineCost : Nat := 3

/-- The nesting that a value may have. -/
def wholeRoom : Nat := 987

mutual

/-- A value, and the rest. Every two steps read a code point at least, which is why `fuel` suffices that
is twice the length of the text. -/
def value : Nat → Nat → Text → Except Fault (Data × Text)
  | 0, _, _ => .error .malformed
  | fuel + 1, room, t =>
    match t with
    | .scalar '[' :: t => do
      let room ← roomAfter arrayCost room
      let t ← orMalformed (dropBlanks? fuel t)
      match after? ']' t with
      | some t => .ok (.list [], t)
      | none => items fuel room [] t
    | .scalar '{' :: t => do
      let room ← roomAfter inlineCost room
      match after? '}' (dropSpaces t) with
      | some t => .ok (.record [], t)
      | none => inlineTable fuel room {} [] (dropSpaces t)
    | .scalar '"' :: _ | .scalar '\'' :: _ => do
      let (content, rest) ← orMalformed (string? t)
      .ok (.text content, rest)
    | t => scalar t

/-- The items of an array from the next one on; those before it come in reverse. -/
def items : Nat → Nat → List Data → Text → Except Fault (Data × Text)
  | 0, _, _, _ => .error .malformed
  | fuel + 1, room, before, t => do
    let (item, t) ← value fuel room t
    let t ← orMalformed (dropBlanks? fuel t)
    match after? ']' t with
    | some t => .ok (.list (item :: before).reverse, t)
    | none =>
      let t ← orMalformed (after? ',' t)
      let t ← orMalformed (dropBlanks? fuel t)
      match after? ']' t with
      | some t => .ok (.list (item :: before).reverse, t)
      | none => items fuel room (item :: before) t

/-- The members of a table that is written as one value, from the next one on. -/
def inlineTable : Nat → Nat → Marks → Members → Text → Except Fault (Data × Text)
  | 0, _, _, _, _ => .error .malformed
  | fuel + 1, room, marks, ms, t => do
    let (key, d, t) ← member fuel room t
    let (marks, ms) ← orMalformed (setInline marks key d ms)
    match after? '}' (dropSpaces t) with
    | some t => .ok (.record ms, t)
    | none =>
      let t ← orMalformed (after? ',' (dropSpaces t))
      inlineTable fuel room marks ms (dropSpaces t)

/-- A key and its value. -/
def member : Nat → Nat → Text → Except Fault (KeyPath × Data × Text)
  | 0, _, _ => .error .malformed
  | fuel + 1, room, t => do
    let (key, t) ← orMalformed (key? fuel t)
    let t ← orMalformed (after? '=' t)
    let (d, t) ← value fuel room (dropSpaces t)
    .ok (key, d, t)

end

/-- The header of a table or of an item of an array of tables, after its first bracket. -/
def header (fuel : Nat) (ts : Tables) (t : Text) : Option (Tables × Text) := do
  let ts := { ts with marks := ts.marks.settle }
  match after? '[' t with
  | none =>
    let (path, t) ← key? fuel (dropSpaces t)
    let ts ← ts.openTable path
    some (ts, ← after? ']' t)
  | some t =>
    let (path, t) ← key? fuel (dropSpaces t)
    let ts ← ts.openItem path
    some (ts, ← (after? ']' t).bind (after? ']'))

/-- One statement, if there is one before the end of the line. -/
def statement (fuel : Nat) (ts : Tables) : Text → Except Fault (Tables × Text)
  | [] => .ok (ts, [])
  | c :: t =>
    if c = '\n' || c = '#' then .ok (ts, c :: t)
    else if c = '[' then orMalformed (header fuel ts t)
    else if isBareKey c || c = '"' || c = '\'' then do
      let (key, d, t) ← member fuel wholeRoom (c :: t)
      let ts ← orMalformed (ts.set key d)
      .ok (ts, t)
    else .error .malformed

/-- The statements of a document, a line or more each. -/
def statements : Nat → Tables → Text → Except Fault Tables
  | 0, _, _ => .error .malformed
  | fuel + 1, ts, t => do
    let (ts, t) ← statement fuel ts (dropSpaces t)
    match ← orMalformed (dropComment? (dropSpaces t)) with
    | [] => .ok ts
    | c :: t => if c = '\n' then statements fuel ts t else .error .malformed

/-- The text with line feeds in place of its CR LF line ends. -/
def withUnixBreaks : Text → Text
  | .scalar '\r' :: .scalar '\n' :: t => '\n' :: withUnixBreaks t
  | c :: t => c :: withUnixBreaks t
  | [] => []

/-- The root table of a document. -/
def readText (t : Text) : Except Fault Members :=
  let t := withUnixBreaks t
  (statements (2 * t.length + 4) {} t).map Tables.members

/-- The root table of a document, which is UTF-8. -/
def read (bs : Bytes) : Except Fault Members :=
  match Utf8.decode bs with
  | .ok t => readText t
  | .error _ => .error .encoding

/-- The failure that a fault stands for. -/
def Fault.failure : Fault → Failure
  | .encoding => .of (.undecodableDocument .toml)
  | .malformed => .of (.malformedDocument .toml)
  | .longNumeral => .of (.longNumeral .toml)
  | .tooDeep => .of (.foreign .recursion "maximum recursion depth exceeded")
  | .impossibleDate why => .caused (.malformedDocument .toml) (.of (.foreign .value why))

end ManifestGraph.Toml
