/-
  CycloneDX documents, as far as they describe a uv project: the root component, and the components
  that are members of the workspace.
-/
import ManifestGraph.Finding
import ManifestGraph.Json.Model
namespace ManifestGraph

/-- A component, with its properties by name. -/
structure Sbom.Component where
  name : Text := []
  version : Text := []
  properties : List (Text × Text) := []
  deriving DecidableEq, Inhabited

/-- A CycloneDX document. -/
structure Sbom where
  root : Option Sbom.Component := none
  components : List Sbom.Component := []
  deriving DecidableEq, Inhabited

namespace Sbom

/-- The property that marks a member of a workspace and holds its path. -/
def workspaceProperty : Text := "uv:workspace:path"

/-- A component from a record. -/
def Component.fit : Data → Fit Component :=
  Data.fitModel fun ms =>
    Component.mk <$> ms.withDefault ["name"] [] Data.fitText
      <*> ms.withDefault ["version"] [] Data.fitText
      <*> ms.withDefault ["properties"] [] (Data.fitList (Data.fitModel fun ms =>
            Prod.mk <$> ms.withDefault ["name"] [] Data.fitText
              <*> ms.withDefault ["value"] [] Data.fitText))

/-- A document from a record. -/
def fit : Data → Fit Sbom :=
  Data.fitModel fun ms =>
    Sbom.mk
      <$> ms.withDefault ["metadata"] none (Data.fitModel fun ms =>
            ms.withDefault ["component"] none (Data.fitOption Component.fit))
      <*> ms.withDefault ["components"] [] (Data.fitList Component.fit)

/-- Reads a document, which must have a root component with a name. -/
def decode (bs : Bytes) : Except Failure Sbom :=
  match Json.readModel fit bs with
  | .error misfits =>
    .error (.caused (.inFamily .unprocessable ("Failed to parse SBOM JSON: " ++ Misfit.summary misfits))
      (.of (.misfit misfits)))
  | .ok sbom =>
    match sbom.root with
    | none =>
      .error (.of (.inFamily .unprocessable ("SBOM missing root component at metadata.component - "
        ++ "uv project may be missing a root package")))
    | some root =>
      if root.name.isEmpty then
        .error (.of (.inFamily .unprocessable "SBOM root component missing name - invalid SBOM structure"))
      else .ok sbom

/-- The identity of the project that a document describes. -/
def metadata (sbom : Sbom) : Except Failure Metadata :=
  match sbom.root with
  | some root => .ok { manager := "pip", name := root.name, version := root.version }
  | none => .error (.of (.foreign .value "SBOM missing root component at metadata.component"))

/-- The components that are members of the workspace. -/
def workspacePackages (sbom : Sbom) : List WorkspacePackage :=
  sbom.components.filterMap fun c =>
    (List.lookup workspaceProperty c.properties).map fun path => ⟨c.name, c.version, path⟩

end Sbom

/-- The member of a workspace that is the root of a graph. -/
def DependencyGraph.workspacePackage? (g : DependencyGraph) (packages : List WorkspacePackage) :
    Option WorkspacePackage :=
  g.rootPackage?.bind fun root => packages.find? fun p => p.name = root.info.name

end ManifestGraph
