/-
  Conditions on the platform in a Pipfile. Only comparisons of `sys_platform` with three platforms are
  decided here, by their text; any other condition counts as met.
-/
import ManifestGraph.Text
namespace ManifestGraph.Pipenv

/-- The platforms that conditions are compared with, in order of precedence. -/
def platforms : List Text := ["win32", "darwin", "linux"]

/-- The platform that this program runs on. -/
def ownPlatform : Text := "linux"

/-- The platform that a condition is decided on: the own one unless another is given. -/
def decidingPlatform (platform : Text) : Text := if platform.isEmpty then ownPlatform else platform

/-- The condition names a platform in quotes. -/
def names (marker platform : Text) : Bool :=
  let single : Text := "'" ++ platform ++ "'"
  let double : Text := "\"" ++ platform ++ "\""
  single.isInfixOf marker || double.isInfixOf marker

/-- The condition is met on a platform, as far as its text says. -/
def markerMatches (marker : Text) (platform : Text := []) : Bool :=
  let subject : Text := "sys_platform"
  let differs : Text := "!="
  if !subject.isInfixOf marker then true
  else match platforms.find? (names marker) with
    | none => true
    | some candidate => (decidingPlatform platform == candidate) != differs.isInfixOf marker

end ManifestGraph.Pipenv
