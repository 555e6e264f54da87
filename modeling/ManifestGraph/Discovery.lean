/-
  Finding manifests and lock files: one file that is named, or all files of a tree whose name fits,
  except those that are excluded or lie in an excluded directory.
-/
import ManifestGraph.Exclusion
import ManifestGraph.FileTree.Fault
namespace ManifestGraph

/-- A file that was found, by its path and by its way from the directory that was searched. -/
structure FoundFile where
  path : Path
  relative : Text
  deriving DecidableEq, Inhabited

namespace Discovery

mutual

/-- The files of some entries that fit, by their ways from the root of the search; `way` leads to the
entries and ends with a slash, unless it is empty. -/
def filesIn (includes excludes : List Text) (way : Text) : List (Text × FileTree) → List Text
  | [] => []
  | (name, t) :: es =>
    (if Exclusion.covers excludes name (way ++ name) then []
      else filesAt includes excludes (way ++ name) name t) ++ filesIn includes excludes way es

/-- The files of one entry that fit. -/
def filesAt (includes excludes : List Text) (way name : Text) : FileTree → List Text
  | .file _ => if includes.any fun p => Glob.accepts p name then [way] else []
  | .directory es => filesIn includes excludes (way ++ "/") es

end

/-- The files of a tree that fit, in ascending order of their ways. -/
def search (includes excludes : List Text) : FileTree → List Text
  | .file _ => []
  | .directory es => Text.sort (filesIn includes excludes [] es)

/-- The directory of a search. -/
def root? (fs : FileSystem) (root : Path) : Except Failure FileTree := do
  match ← fs.look root with
  | some (.directory es) => .ok (.directory es)
  | _ => .error (.of (.foreign .value (root.toText ++ " is not a directory")))

/-- The one file that is asked for, if it is there and not excluded. -/
def target? (fs : FileSystem) (root target : Path) (excludes : List Text) :
    Except Failure (Option FoundFile) := do
  let path := root ++ target
  let relative := path.relativeTo fs.here root
  match ← fs.look path with
  | some (.file _) =>
    .ok (if Exclusion.covers excludes path.name relative then none else some ⟨path, relative⟩)
  | _ => .ok none

/-- The files below a directory: the target alone if one is named, else all that fit. -/
def find (fs : FileSystem) (root : Path) (includes excludes : List Text) (target : Text := []) :
    Except Failure (List FoundFile) := do
  let tree ← root? fs root
  if target.isEmpty then
    .ok ((search includes excludes tree).map fun way => ⟨root ++ Path.ofText way, way⟩)
  else (target? fs root (Path.ofText target) excludes).map Option.toList

end Discovery
end ManifestGraph
