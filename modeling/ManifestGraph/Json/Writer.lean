/-
  Values as JSON text: members in their order, strings with the short escapes, control characters and,
  if asked for, all that is not printable ASCII as `\u` escapes.
-/
import ManifestGraph.Binary64.Shortest
import ManifestGraph.Bytes.Utf8
import ManifestGraph.Data.Shown
namespace ManifestGraph.Json

/-- How JSON is laid out: the text after an item, after a key, and whether all is ASCII. -/
structure Style where
  comma : Text
  colon : Text
  ascii : Bool

/-- A space after commas and colons, ASCII only. -/
def Style.spaced : Style := ⟨", ", ": ", true⟩

/-- No spaces, ASCII only. -/
def Style.compactAscii : Style := ⟨",", ":", true⟩

/-- No spaces, every character as it is. -/
def Style.compact : Style := ⟨",", ":", false⟩

/-- A space after commas and colons, every character as it is. -/
def Style.spacedPlain : Style := ⟨", ", ": ", false⟩

/-- Numbers in JSON. -/
def numberLayout : Binary64.Layout := .plain "NaN" "Infinity"

/-- A unit of sixteen bits as an escape. -/
def escapeUnit (n : Nat) : Text := "\\u" ++ Text.hex 4 n

/-- One code point inside a string. -/
def writePoint (ascii : Bool) (c : CodePoint) : Text :=
  if c = '"' then "\\\""
  else if c = '\\' then "\\\\"
  else if c = '\n' then "\\n"
  else if c = '\r' then "\\r"
  else if c = '\t' then "\\t"
  else if c = '\x08' then "\\b"
  else if c = '\x0c' then "\\f"
  else
    let n := c.toNat
    if n < 0x20 then escapeUnit n
    else if !ascii || n < 0x7F then [c]
    else if n < 0x10000 then escapeUnit n
    else
      escapeUnit (0xD800 + (n - 0x10000) / 1024) ++ escapeUnit (0xDC00 + (n - 0x10000) % 1024)

/-- A string. -/
def writeText (ascii : Bool) (t : Text) : Text := "\"" ++ t.flatMap (writePoint ascii) ++ "\""

mutual

/-- A value as JSON text; a date is written as the string that shows it. -/
def write (s : Style) : Data → Text
  | .null => "null"
  | .bool true => "true"
  | .bool false => "false"
  | .int n => Text.ofInt n
  | .float x => numberLayout.render x
  | .text t => writeText s.ascii t
  | .moment m => writeText s.ascii m.shown
  | .list [] => "[]"
  | .list (d :: ds) => CodePoint.scalar '[' :: (write s d ++ writeItems s ds)
  | .record [] => "\x7b\x7d"
  | .record ((key, d) :: ms) =>
    CodePoint.scalar '{' :: (writeText s.ascii key ++ (s.colon ++ (write s d ++ writeMembers s ms)))

/-- The items after the first one, and the closing bracket. -/
def writeItems (s : Style) : List Data → Text
  | [] => "]"
  | d :: ds => s.comma ++ (write s d ++ writeItems s ds)

/-- The members after the first one, and the closing brace. -/
def writeMembers (s : Style) : List (Text × Data) → Text
  | [] => "\x7d"
  | (key, d) :: ms =>
    s.comma ++ (writeText s.ascii key ++ (s.colon ++ (write s d ++ writeMembers s ms)))

end

/-- A value as a JSON document in UTF-8. -/
def writeBytes (s : Style) (d : Data) : Bytes := Utf8.encode (write s d)

end ManifestGraph.Json
