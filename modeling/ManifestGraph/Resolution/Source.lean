/-
  A source of findings, such as the resolver of one package manager.
-/
import ManifestGraph.Machine
namespace ManifestGraph

/-- A source; the failure of one manifest is a finding, and the failure of the source ends the run. -/
structure Source where
  name : Text
  /-- The findings below a directory. -/
  find : Text → SourceOptions → Run (List Finding)

end ManifestGraph
