/-
  A text shown in quotes inside a message: in single quotes, or in double quotes if it holds a
  single quote and no double one. What cannot be shown as it is stands escaped.
-/
import ManifestGraph.Text.Printable
namespace ManifestGraph.Text

/-- One code point between quotes of the kind `quote`. -/
def escapeIn (quote : CodePoint) (c : CodePoint) : Text :=
  if c = quote || c = '\\' then ['\\', c]
  else if c = '\n' then "\\n"
  else if c = '\r' then "\\r"
  else if c = '\t' then "\\t"
  else if c.isPrintable then [c]
  else if c.toNat < 0x100 then "\\x" ++ hex 2 c.toNat
  else if c.toNat < 0x10000 then "\\u" ++ hex 4 c.toNat
  else "\\U" ++ hex 8 c.toNat

/-- The quotation mark that a text is shown in. -/
def quoteMark (t : Text) : CodePoint :=
  if t.contains (.scalar '\'') && !t.contains (.scalar '"') then '"' else '\''

/-- A text in quotes. -/
def quoted (t : Text) : Text :=
  [t.quoteMark] ++ t.flatMap (escapeIn t.quoteMark) ++ [t.quoteMark]

/-- A list of texts, each in quotes, in square brackets. -/
def quotedList (ts : List Text) : Text := "[" ++ join ", " (ts.map quoted) ++ "]"

end ManifestGraph.Text
