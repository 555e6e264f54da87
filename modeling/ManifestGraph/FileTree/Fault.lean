/-
  The faults of the file system as faults of a run: each with its number, its wording and the path that
  was asked for.
-/
import ManifestGraph.Failure
import ManifestGraph.FileTree
namespace ManifestGraph

/-- The fault of a path that leads to no file. -/
def FileFault.reason (p : Path) : FileFault → Reason
  | .notFound => .foreign .fileNotFound ("[Errno 2] No such file or directory: " ++ p.toText.quoted)
  | .notDirectory => .foreign .notDirectory ("[Errno 20] Not a directory: " ++ p.toText.quoted)
  | .isDirectory => .foreign .isDirectory ("[Errno 21] Is a directory: " ++ p.toText.quoted)
  | .tooLong => .foreign .system ("[Errno 36] File name too long: " ++ p.toText.quoted)
  | .nullCharacter => .foreign .value "embedded null byte"

namespace FileSystem

/-- What a path leads to, if anything; only a path that is too long cannot be looked for. -/
def look (fs : FileSystem) (p : Path) : Except Failure (Option FileTree) :=
  match fs.find? p with
  | .ok found => .ok found
  | .error fault => .error (.of (fault.reason p))

end FileSystem
end ManifestGraph
