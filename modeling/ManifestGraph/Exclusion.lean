/-
  Files and directories that a search passes over, given by patterns, and the comma separated value in
  which they are handed on.
-/
import ManifestGraph.Glob
import ManifestGraph.Text.Blank
namespace ManifestGraph.Exclusion

/-- Hidden folders, build output, and what the tools of several languages leave in a project. -/
def common : List Text := [
  ".*", "dist", "build", "node_modules", "__pycache__", "*.egg-info", "*.dist-info", "venv", "env",
  "vendor", "Pods", "Carthage"]

/-- Hidden folders, build output, and what Python tools leave in a project. -/
def python : List Text := [".*", "__pycache__", "*.egg-info", "dist", "build", "venv"]

/-- A file or directory is passed over: a pattern matches its name or its path. -/
def covers (patterns : List Text) (name path : Text) : Bool :=
  patterns.any fun p => Glob.accepts p name || Glob.accepts p path

/-- The entries of a comma separated value, without the space around them and the blank ones. -/
def entries (value : Text) : List Text :=
  (((Text.splitOn ',' value).map Text.trim).filter fun entry => !entry.isEmpty)

/-- The entries of a value, none if there are none. -/
def entries? (value : Text) : Option (List Text) :=
  match entries value with
  | [] => none
  | found => some found

/-- A value with more entries after its own. -/
def append (value : Text) (more : List Text) : Text :=
  if more.isEmpty then value
  else if value.isEmpty then Text.join "," more
  else value ++ "," ++ Text.join "," more

end ManifestGraph.Exclusion
