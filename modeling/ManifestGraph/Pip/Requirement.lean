/-
  Declared requirements of a package, such as `urllib3 (<3) ; extra == 'test'`: the name at the start,
  and the extra that the requirement hangs on, if it names one.
-/
import ManifestGraph.Text.Blank
import ManifestGraph.Text.Lower
namespace ManifestGraph.Pip

/-- The form in which package names are compared: lower case, with hyphens for underscores. -/
def normalName (name : Text) : Text := name.lower.replace '_' '-'

namespace Requirement

/-- A code point that may stand in a package name. -/
def isNamePoint (c : CodePoint) : Bool :=
  c.isLetter || c.isDigit || c = '.' || c = '_' || c = '-'

/-- The package name at the start of a requirement. -/
def name (r : Text) : Text := r.takeWhile isNamePoint

/-- A quotation mark of either kind. -/
def isQuote (c : CodePoint) : Bool := c = '\'' || c = '"'

/-- The text without the blanks at its start. -/
def skipBlanks (t : Text) : Text := t.dropWhile CodePoint.isBlank

/-- The extra of a condition `extra == '…'` that starts here. -/
def extraHere? (t : Text) : Option Text :=
  let word : Text := "extra"
  if word.isPrefixOf t then
    match skipBlanks (t.drop word.length) with
    | .scalar '=' :: .scalar '=' :: rest =>
      match skipBlanks rest with
      | q :: rest =>
        let found := rest.takeWhile fun c => !isQuote c
        if isQuote q && !found.isEmpty && found.length < rest.length then some found else none
      | [] => none
    | _ => none
  else none

/-- The extra of the first condition on one; empty if there is none. -/
def extra : Text → Text
  | [] => []
  | c :: t =>
    match extraHere? (c :: t) with
    | some found => found
    | none => extra t

end Requirement

/-- The requirements that apply: those without an extra, and those whose extra is asked for, ignoring
case. -/
def applicable (requirements requested : List Text) : List Text :=
  requirements.filter fun r =>
    let extra := Requirement.extra r
    extra.isEmpty || (requested.map Text.lower).contains extra.lower

/-- Of names that compare equal the first one, in order; empty names are dropped. -/
def distinctNames : List Text → List Text → List Text
  | _, [] => []
  | seen, name :: names =>
    if name.isEmpty || seen.contains (normalName name) then distinctNames seen names
    else name :: distinctNames (normalName name :: seen) names

/-- The names of the packages that are required. -/
def requiredNames (requirements requested : List Text) : List Text :=
  distinctNames [] ((applicable requirements requested).map Requirement.name)

end ManifestGraph.Pip
