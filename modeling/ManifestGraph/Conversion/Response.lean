/-
  The answer of the conversion service: the projects found in an SBOM, each with facts, and warnings.
  A fact of the type `depGraph` must hold a graph; the data of any other fact is taken as it is.
-/
import ManifestGraph.Graph.Document
namespace ManifestGraph.Conversion

/-- Something that the service found out about a project. -/
inductive Fact where
  | graph (g : DependencyGraph)
  | other (type : Text) (data : Data)

/-- Which project a scan describes. -/
structure Identity where
  type : Text := []
  targetFile : Option Text := none
  arguments : Option (List (Text × Text)) := none
  deriving DecidableEq, Inhabited

/-- One project found in an SBOM. -/
structure Scan where
  name : Text := []
  policy : Option Text := none
  facts : List Fact := []
  remoteUrl : Text := []
  identity : Identity := {}
  targetReference : Option Text := none

/-- A warning of the service about a component. -/
structure Warning where
  type : Text := []
  component : Text := []
  message : Text := []
  deriving DecidableEq, Inhabited

/-- The whole answer. -/
structure Response where
  scans : List Scan := []
  warnings : List Warning := []

/-- The type of the facts that hold a graph. -/
def graphType : Text := "depGraph"

namespace Fact

/-- A value is a fact of the type that holds a graph. -/
def isGraph (d : Data) : Bool :=
  match d.get? "type" with
  | some (.text t) => t = graphType
  | _ => false

/-- The graph of a fact, if it holds one. -/
def graph? : Fact → Option DependencyGraph
  | .graph g => some g
  | .other .. => none

/-- A fact from a record; its kind is a step of the places in it. -/
def fit (d : Data) : Fit Fact :=
  if isGraph d then
    (Data.fitModel (fun ms => Fact.graph <$> ms.required ["data"] DependencyGraph.fit) d).under
      (.key graphType)
  else
    (Data.fitModel (fun ms =>
      Fact.other <$> ms.withDefault ["type"] [] Data.fitText
        <*> ms.withDefault ["data"] .null Data.fitAny) d).under (.key "other")

end Fact

/-- An identity from a record. -/
def Identity.fit : Data → Fit Identity :=
  Data.fitModel fun ms =>
    Identity.mk <$> ms.withDefault ["type"] [] Data.fitText
      <*> ms.withDefault ["targetFile", "target_file"] none (Data.fitOption Data.fitText)
      <*> ms.withDefault ["args"] none (Data.fitOption (Data.fitMapping Data.fitText))

/-- A scan from a record. -/
def Scan.fit : Data → Fit Scan :=
  Data.fitModel fun ms =>
    Scan.mk <$> ms.withDefault ["name"] [] Data.fitText
      <*> ms.withDefault ["policy"] none (Data.fitOption Data.fitText)
      <*> ms.withDefault ["facts"] [] (Data.fitList Fact.fit)
      <*> ms.withDefault ["target"] [] (Data.fitModel fun ms =>
            ms.withDefault ["remoteUrl", "remote_url"] [] Data.fitText)
      <*> ms.withDefault ["identity"] {} Identity.fit
      <*> ms.withDefault ["targetReference", "target_reference"] none (Data.fitOption Data.fitText)

/-- A warning from a record. -/
def Warning.fit : Data → Fit Warning :=
  Data.fitModel fun ms =>
    Warning.mk <$> ms.withDefault ["type"] [] Data.fitText
      <*> ms.withDefault ["bom_ref"] [] Data.fitText
      <*> ms.withDefault ["msg"] [] Data.fitText

namespace Response

/-- An answer from a record. -/
def fit : Data → Fit Response :=
  Data.fitModel fun ms =>
    Response.mk <$> ms.withDefault ["scanResults", "scan_results"] [] (Data.fitList Scan.fit)
      <*> ms.withDefault ["warnings"] [] (Data.fitList Warning.fit)

/-- Reads an answer. -/
def decode (bs : Bytes) : Except (List Misfit) Response := Json.readModel fit bs

end Response

/-- The graphs of a scan, in order. -/
def Scan.graphs (s : Scan) : List DependencyGraph := s.facts.filterMap Fact.graph?

end ManifestGraph.Conversion
