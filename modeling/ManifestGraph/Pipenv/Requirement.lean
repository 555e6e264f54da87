/-
  The entries of a Pipfile as requirements for pip. An entry whose extras hold an integer that is too
  long to be shown has none.
-/
import ManifestGraph.Failure
import ManifestGraph.Pipenv.Marker
namespace ManifestGraph.Pipenv

/-- A text member of an entry. -/
def textOf? (entry : Data) (key : Text) : Option Text := (entry.get? key).bind Data.text?

/-- A requirement on a git repository, at the first of its revisions that is given. -/
def gitRequirement (name repository : Text) (entry : Data) : Text :=
  let base := name ++ " @ git+" ++ repository
  match (["ref", "tag", "branch"] : List Text).findSome? (textOf? entry) with
  | some revision => base ++ "@" ++ revision
  | none => base

/-- The extras of an entry in brackets; nothing if there are none. -/
def bracketedExtras (entry : Data) : Except Failure Text :=
  match entry.get? "extras" with
  | some (.list (e :: es)) =>
    if (e :: es).all Data.isShowable then .ok ("[" ++ Text.join "," ((e :: es).map Data.shown) ++ "]")
    else .error (.of (.foreign .value Data.tooLongToShow))
  | _ => .ok []

/-- A requirement by name, with extras and version. -/
def namedRequirement (name : Text) (entry : Data) : Except Failure Text := do
  let base := name ++ (← bracketedExtras entry)
  match textOf? entry "version" with
  | some version => .ok (if version = ("*" : Text) then base else base ++ version)
  | none => .ok base

/-- The requirement that an entry stands for; empty if it does not apply to this platform. -/
def requirement (name : Text) : Data → Except Failure Text
  | .text version => .ok (if version = ("*" : Text) then name else name ++ version)
  | .record ms =>
    let entry : Data := .record ms
    if ((textOf? entry "markers").map fun marker => !markerMatches marker).getD false then .ok []
    else match textOf? entry "git", textOf? entry "path", textOf? entry "url" with
      | some repository, _, _ => .ok (gitRequirement name repository entry)
      | none, some path, _ =>
        match entry.get? "editable" with
        | some (.bool true) => .ok ("-e " ++ path)
        | _ => .ok path
      | none, none, some url => .ok url
      | none, none, none => namedRequirement name entry
  | _ => .ok name

end ManifestGraph.Pipenv
