/-
  What a resolution is asked for, and what it hands to the sources.
-/
import ManifestGraph.Exclusion
import ManifestGraph.Finding
namespace ManifestGraph

/-- What a resolution is asked for; the excluded names are separated by commas. -/
structure ResolutionOptions where
  allProjects : Bool := false
  dev : Bool := false
  exclude : Text := []
  targetFile : Text := []
  failFast : Bool := false
  /-- The graphs of all workspace packages go into one output. -/
  workspacePackages : Bool := false
  effectiveGraph : Bool := false
  effectiveGraphWithErrors : Bool := false
  deriving DecidableEq, Inhabited

/-- What the sources are asked for. -/
def ResolutionOptions.forSources (o : ResolutionOptions) : SourceOptions :=
  { allProjects := o.allProjects, targetFile := o.targetFile, dev := o.dev,
    exclude := Exclusion.entries? o.exclude }

end ManifestGraph
