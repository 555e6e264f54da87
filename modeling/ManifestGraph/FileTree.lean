/-
  Directories and files, and what a path leads to from a working directory.
-/
import ManifestGraph.Bytes.Utf8
import ManifestGraph.Data
import ManifestGraph.Path
namespace ManifestGraph

/-- A file, or a directory with its entries. -/
inductive FileTree where
  | file (content : Bytes)
  | directory (entries : List (Text × FileTree))
  deriving Inhabited

namespace FileTree

/-- The entry of a directory under a name. -/
def entry? (name : Text) : FileTree → Option FileTree
  | .file _ => none
  | .directory es => List.lookup name es

/-- What a list of names leads to. -/
def at? : List Text → FileTree → Option FileTree
  | [], t => some t
  | name :: names, t => (t.entry? name).bind (at? names)

/-- A tree put at a place; directories on the way are made, and a file on the way is replaced. -/
def put (new : FileTree) : List Text → FileTree → FileTree
  | [], _ => new
  | name :: names, t =>
    let es := match t with
      | .directory es => es
      | .file _ => []
    let inner := (List.lookup name es).getD (.directory [])
    .directory (putMember name (put new names inner) es)

/-- Is a directory. -/
def isDirectory : FileTree → Bool
  | .directory _ => true
  | .file _ => false

end FileTree

/-- All files, with the directory in which a program works. -/
structure FileSystem where
  tree : FileTree := .directory []
  /-- The names from the root to the working directory. -/
  here : List Text := []
  deriving Inhabited

/-- Why a path leads to no file. -/
inductive FileFault where
  | notFound
  | notDirectory
  | isDirectory
  /-- The path, or a name that is looked up, is too long. -/
  | tooLong
  /-- There is a null character in the path. -/
  | nullCharacter
  deriving DecidableEq

namespace FileSystem

/-- The most bytes of a name. -/
def maxName : Nat := 255

/-- The most bytes of a path. -/
def maxPath : Nat := 4095

/-- The place that some parts lead to from a place, latest name first. Every part must be looked up in
a directory. -/
def follow (tree : FileTree) : List Text → List Text → Except FileFault (List Text)
  | place, [] => .ok place
  | place, part :: parts =>
    match tree.at? place.reverse with
    | some (.directory es) =>
      if part = Path.up then follow tree place.tail parts
      else if maxName < (Utf8.encode part).length then .error .tooLong
      else if (List.lookup part es).isSome then follow tree (part :: place) parts
      else .error .notFound
    | some (.file _) => .error .notDirectory
    | none => .error .notFound

/-- The fault of a path as a text, before anything is looked up. -/
def checkPath (p : Path) : Except FileFault Unit :=
  let text := p.toText
  if text.contains (.scalar '\x00') then .error .nullCharacter
  else if maxPath < (Utf8.encode text).length then .error .tooLong
  else .ok ()

/-- The names from the root to what a path leads to. -/
def locate (fs : FileSystem) (p : Path) : Except FileFault (List Text) := do
  checkPath p
  let place ← follow fs.tree (if p.isAbsolute then [] else fs.here.reverse) p.parts
  .ok place.reverse

/-- What a path leads to, if anything; a path that is too long is a fault. -/
def find? (fs : FileSystem) (p : Path) : Except FileFault (Option FileTree) :=
  match fs.locate p with
  | .ok names => .ok (fs.tree.at? names)
  | .error .tooLong => .error .tooLong
  | .error _ => .ok none

/-- The content of the file that a path leads to. -/
def read (fs : FileSystem) (p : Path) : Except FileFault Bytes := do
  let names ← fs.locate p
  match fs.tree.at? names with
  | some (.file content) => .ok content
  | some (.directory _) => .error .isDirectory
  | none => .error .notFound

/-- A file written where a path leads; its directory must be there. -/
def write (fs : FileSystem) (p : Path) (content : Bytes) : Except FileFault FileSystem := do
  checkPath p
  if p.parts.isEmpty || p.name = Path.up then
    let _ ← fs.locate p
    .error .isDirectory
  else
    let names ← fs.locate p.parent
    match fs.tree.at? names with
    | some (.directory es) =>
      if maxName < (Utf8.encode p.name).length then .error .tooLong
      else match List.lookup p.name es with
      | some (.directory _) => .error .isDirectory
      | _ => .ok { fs with tree := FileTree.put (.file content) (names ++ [p.name]) fs.tree }
    | some (.file _) => .error .notDirectory
    | none => .error .notFound

end FileSystem
end ManifestGraph
