/-
  How the fallback resolver is called: which form of graph is asked for, and the arguments.
-/
import ManifestGraph.Resolution.Options
namespace ManifestGraph.Fallback

/-- Flags that are handed on to the resolver as they are. -/
structure Flags where
  detectionDepth : Text := []
  debug : Bool := false
  pruneRepeated : Bool := false
  extra : List Text := []
  deriving DecidableEq, Inhabited

/-- The form in which graphs are asked for. -/
inductive GraphForm where
  | blocks
  | lines
  | linesWithErrors
  deriving DecidableEq, Inhabited

namespace GraphForm

/-- The form that a resolution asks for. -/
def ofOptions (o : ResolutionOptions) : GraphForm :=
  if o.effectiveGraph then .lines
  else if o.effectiveGraphWithErrors then .linesWithErrors
  else .blocks

/-- The argument that asks for a form. -/
def argument : GraphForm → Text
  | .blocks => "--print-graph"
  | .lines => "--print-effective-graph"
  | .linesWithErrors => "--print-effective-graph-with-errors"

end GraphForm

/-- An argument that is there only under a condition. -/
def argumentIf (condition : Bool) (argument : Text) : List Text :=
  if condition then [argument] else []

/-- An argument with a value, unless the value is empty. -/
def argumentWith (name value : Text) : List Text := argumentIf (!value.isEmpty) (name ++ value)

/-- What is resolved: a file, or else a directory. -/
def place (directory : Text) (o : ResolutionOptions) : List Text :=
  if o.targetFile.isEmpty then argumentIf (!directory.isEmpty) directory
  else ["--file=" ++ o.targetFile]

/-- The arguments of the resolver. -/
def arguments (graphArgument directory : Text) (o : ResolutionOptions) (flags : Flags := {}) :
    List Text :=
  (["test", "--json", graphArgument] : List Text)
  ++ argumentIf o.allProjects "--all-projects"
  ++ argumentIf o.failFast "--fail-fast"
  ++ argumentWith "--exclude=" o.exclude
  ++ argumentWith "--detection-depth=" flags.detectionDepth
  ++ place directory o
  ++ argumentIf flags.debug "--debug"
  ++ argumentIf o.dev "--dev"
  ++ argumentIf flags.pruneRepeated "--prune-repeated-subdependencies"
  ++ flags.extra

end ManifestGraph.Fallback
