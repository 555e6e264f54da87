/-
  The dependency graph document: a package manager, the packages, and a graph of nodes that refer to
  packages and to the nodes they depend on.
-/
import ManifestGraph.Text
namespace ManifestGraph

/-- The package manager that a graph comes from; its repositories are given by their names. -/
structure PackageManager where
  name : Text
  version : Option Text := none
  repositories : Option (List Text) := none
  deriving DecidableEq, Inhabited

/-- Name, version and package URL of a package. -/
structure PackageInfo where
  name : Text
  version : Option Text := none
  purl : Option Text := none
  deriving DecidableEq, Inhabited

/-- The id of a package: its name, `@` and its version, which may be empty. -/
def PackageInfo.id (info : PackageInfo) : Text := info.name ++ "@" ++ info.version.getD []

/-- A package under the id by which nodes refer to it. -/
structure Package where
  id : Text
  info : PackageInfo
  deriving DecidableEq, Inhabited

/-- Where the version of a package is declared. -/
structure Provenance where
  type : Text
  location : Text
  property : Option Text := none
  deriving DecidableEq, Inhabited

/-- What is known of a node beside its package. -/
structure NodeInfo where
  provenance : Option Provenance := none
  labels : Option (List (Text × Text)) := none
  deriving DecidableEq, Inhabited

/-- A node, with the id of its package and the ids of the nodes it depends on. -/
structure Node where
  id : Text
  package : Text
  info : Option NodeInfo := none
  children : List Text := []
  deriving DecidableEq, Inhabited

/-- A dependency graph document. -/
structure DependencyGraph where
  schema : Text
  manager : PackageManager
  packages : List Package
  root : Text
  nodes : List Node
  deriving DecidableEq, Inhabited

namespace DependencyGraph

/-- The version of the document format that new graphs have. -/
def currentSchema : Text := "1.3.0"

/-- The package with an id; of several the last one. -/
def package? (g : DependencyGraph) (id : Text) : Option Package :=
  g.packages.reverse.find? fun p => p.id = id

/-- The first node with the root id. -/
def rootNode? (g : DependencyGraph) : Option Node := g.nodes.find? fun n => n.id = g.root

/-- The package of the root node. -/
def rootPackage? (g : DependencyGraph) : Option Package :=
  g.rootNode?.bind fun n => g.package? n.package

end DependencyGraph
end ManifestGraph
