/-
  Reading and writing graph documents. The writer leaves out what is absent and keeps the order of the
  members, and fails for a text that has no UTF-8; the reader also takes the long names of members and
  refuses unknown ones at the top.
-/
import ManifestGraph.Failure
import ManifestGraph.Graph
import ManifestGraph.Json.Model
import ManifestGraph.Json.Writer
namespace ManifestGraph

/-- One member. -/
def member (name : Text) (d : Data) : Members := [(name, d)]

/-- A member that is there only if it has a value. -/
def optionalMember (name : Text) : Option Data → Members
  | none => []
  | some d => [(name, d)]

namespace PackageManager

/-- The manager as a record. -/
def toData (m : PackageManager) : Data :=
  .record (member "name" (.text m.name) ++ optionalMember "version" (m.version.map .text)
    ++ optionalMember "repositories"
        (m.repositories.map fun names => .list (names.map fun name => .record [("alias", .text name)])))

/-- A manager from a record. -/
def fit : Data → Fit PackageManager :=
  Data.fitModel fun ms =>
    PackageManager.mk <$> ms.required ["name"] Data.fitText
      <*> ms.withDefault ["version"] none (Data.fitOption Data.fitText)
      <*> ms.withDefault ["repositories"] none (Data.fitOption (Data.fitTuple
            (Data.fitModel fun ms => ms.required ["alias"] Data.fitText)))

end PackageManager

namespace PackageInfo

/-- The package's identity as a record. -/
def toData (p : PackageInfo) : Data :=
  .record (member "name" (.text p.name) ++ optionalMember "version" (p.version.map .text)
    ++ optionalMember "purl" (p.purl.map .text))

/-- A package's identity from a record. -/
def fit : Data → Fit PackageInfo :=
  Data.fitModel fun ms =>
    PackageInfo.mk <$> ms.required ["name"] Data.fitText
      <*> ms.withDefault ["version"] none (Data.fitOption Data.fitText)
      <*> ms.withDefault ["purl", "package_url"] none (Data.fitOption Data.fitText)

end PackageInfo

namespace Package

/-- The package as a record. -/
def toData (p : Package) : Data := .record [("id", .text p.id), ("info", p.info.toData)]

/-- A package from a record. -/
def fit : Data → Fit Package :=
  Data.fitModel fun ms =>
    Package.mk <$> ms.required ["id"] Data.fitText <*> ms.required ["info"] PackageInfo.fit

end Package

namespace Provenance

/-- The provenance as a record. -/
def toData (p : Provenance) : Data :=
  .record (member "type" (.text p.type) ++ member "location" (.text p.location)
    ++ optionalMember "property" (p.property.map fun name => .record [("name", .text name)]))

/-- A provenance from a record. -/
def fit : Data → Fit Provenance :=
  Data.fitModel fun ms =>
    Provenance.mk <$> ms.required ["type"] Data.fitText <*> ms.required ["location"] Data.fitText
      <*> ms.withDefault ["property"] none (Data.fitOption
            (Data.fitModel fun ms => ms.required ["name"] Data.fitText))

end Provenance

namespace NodeInfo

/-- The node's extra information as a record. -/
def toData (i : NodeInfo) : Data :=
  .record (optionalMember "versionProvenance" (i.provenance.map Provenance.toData)
    ++ optionalMember "labels"
        (i.labels.map fun labels => .record (labels.map fun l => (l.1, .text l.2))))

/-- A node's extra information from a record. -/
def fit : Data → Fit NodeInfo :=
  Data.fitModel fun ms =>
    NodeInfo.mk
      <$> ms.withDefault ["versionProvenance", "version_provenance"] none
            (Data.fitOption Provenance.fit)
      <*> ms.withDefault ["labels"] none (Data.fitOption (Data.fitMapping Data.fitText))

end NodeInfo

namespace Node

/-- The node as a record. -/
def toData (n : Node) : Data :=
  .record (member "nodeId" (.text n.id) ++ member "pkgId" (.text n.package)
    ++ optionalMember "info" (n.info.map NodeInfo.toData)
    ++ member "deps" (.list (n.children.map fun id => .record [("nodeId", .text id)])))

/-- A node from a record. -/
def fit : Data → Fit Node :=
  Data.fitModel fun ms =>
    Node.mk <$> ms.required ["nodeId", "node_id"] Data.fitText
      <*> ms.required ["pkgId", "pkg_id"] Data.fitText
      <*> ms.withDefault ["info"] none (Data.fitOption NodeInfo.fit)
      <*> ms.withDefault ["deps"] [] (Data.fitTuple
            (Data.fitModel fun ms => ms.required ["nodeId", "node_id"] Data.fitText))

end Node

namespace DependencyGraph

/-- The graph as a record. -/
def toData (g : DependencyGraph) : Data :=
  .record [
    ("schemaVersion", .text g.schema),
    ("pkgManager", g.manager.toData),
    ("pkgs", .list (g.packages.map Package.toData)),
    ("graph", .record [
      ("rootNodeId", .text g.root),
      ("nodes", .list (g.nodes.map Node.toData))])]

/-- The names that a graph document may have at the top. -/
def memberNames : List (List Text) :=
  [["schemaVersion", "schema_version"], ["pkgManager", "pkg_manager"], ["pkgs"], ["graph"]]

/-- The root id and the nodes from a record. -/
def fitNodes : Data → Fit (Text × List Node) :=
  Data.fitModel fun ms =>
    Prod.mk <$> ms.required ["rootNodeId", "root_node_id"] Data.fitText
      <*> ms.withDefault ["nodes"] [] (Data.fitTuple Node.fit)

/-- A graph from a record. -/
def fit : Data → Fit DependencyGraph :=
  Data.fitModel fun ms =>
    (fun schema manager packages (nodes : Text × List Node) _ =>
        ⟨schema, manager, packages, nodes.1, nodes.2⟩)
      <$> ms.required ["schemaVersion", "schema_version"] Data.fitText
      <*> ms.required ["pkgManager", "pkg_manager"] PackageManager.fit
      <*> ms.withDefault ["pkgs"] [] (Data.fitTuple Package.fit)
      <*> ms.required ["graph"] fitNodes
      <*> ms.noOthers memberNames

/-- The graph document in UTF-8, without spaces. -/
def encode (g : DependencyGraph) : Bytes := Json.writeBytes Json.Style.compact g.toData

/-- The failure to write a graph: it tells of the first of its texts that has no UTF-8. -/
def unwritten (g : DependencyGraph) : Failure :=
  let why := (g.toData.texts.findSome? (Utf8.unwritable? 0)).elim [] Utf8.Unwritable.message
  .of (.foreign .value ("Error serializing to JSON: UnicodeEncodeError: " ++ why))

/-- The graph document, unless it holds the half of a surrogate pair, which has no UTF-8. -/
def write (g : DependencyGraph) : Except Failure Bytes :=
  if (Json.write Json.Style.compact g.toData).isScalar then .ok g.encode else .error g.unwritten

end DependencyGraph

/-- Reads a graph document. -/
def DependencyGraph.decode (bs : Bytes) : Except Failure DependencyGraph :=
  match Json.readModel DependencyGraph.fit bs with
  | .ok g => .ok g
  | .error misfits =>
    .error (.caused (.graphUndecodable ("could not decode DepGraph: " ++ Misfit.summary misfits))
      (.of (.misfit misfits)))

end ManifestGraph
