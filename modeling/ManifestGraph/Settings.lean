/-
  The settings of a run. Every setting has a name, from which its option on the command line and its
  variable in the environment are formed.
-/
import ManifestGraph.Conversion.Service
import ManifestGraph.Fallback.Arguments
import ManifestGraph.Pip.Client
namespace ManifestGraph

/-- The settings of a run. -/
structure Settings where
  /-- The directory to resolve. -/
  target : Text := "."
  /-- The organization that SBOM documents are converted for. -/
  org : Text := []
  apiUrl : Text := "https://api.snyk.io"
  remoteRepoUrl : Text := []
  /-- Resolve by SBOM documents first, and by the fallback what they do not cover. -/
  useSbomResolution : Bool := false
  allProjects : Bool := false
  failFast : Bool := false
  dev : Bool := false
  /-- File and directory names to skip, separated by commas. -/
  exclude : Text := []
  /-- The only manifest or lock file to resolve. -/
  file : Text := []
  detectionDepth : Text := []
  pruneRepeatedSubdependencies : Bool := false
  printEffectiveGraph : Bool := false
  printEffectiveGraphWithErrors : Bool := false
  workspacePackages : Bool := false
  /-- The command of the fallback. -/
  legacyCli : Text := "snyk"
  uvBinary : Text := "uv"
  pipBinary : Text := "pip"
  pipIndexUrl : Text := []
  pipNoBuildIsolation : Bool := false
  /-- Overwrite an output file that is there. -/
  force : Bool := false
  logLevel : Text := "info"
  /-- Where the output goes instead of the standard output. -/
  outputFile : Option Path := none
  version : Bool := false
  deriving DecidableEq, Inhabited

/-- What a setting holds. -/
inductive Setting.Kind where
  | text
  | flag
  deriving DecidableEq

/-- The name of a setting, and what it holds. -/
structure Setting where
  name : Text
  kind : Setting.Kind
  deriving DecidableEq

namespace Settings

/-- All settings, in order. -/
def all : List Setting := [
  ⟨"target", .text⟩, ⟨"org", .text⟩, ⟨"api_url", .text⟩, ⟨"remote_repo_url", .text⟩,
  ⟨"use_sbom_resolution", .flag⟩, ⟨"all_projects", .flag⟩, ⟨"fail_fast", .flag⟩, ⟨"dev", .flag⟩,
  ⟨"exclude", .text⟩, ⟨"file", .text⟩, ⟨"detection_depth", .text⟩,
  ⟨"prune_repeated_subdependencies", .flag⟩, ⟨"print_effective_graph", .flag⟩,
  ⟨"print_effective_graph_with_errors", .flag⟩, ⟨"workspace_packages", .flag⟩,
  ⟨"legacy_cli", .text⟩, ⟨"uv_binary", .text⟩, ⟨"pip_binary", .text⟩, ⟨"pip_index_url", .text⟩,
  ⟨"pip_no_build_isolation", .flag⟩, ⟨"force", .flag⟩, ⟨"log_level", .text⟩,
  ⟨"output_file", .text⟩, ⟨"version", .flag⟩]

/-- A path from a text. -/
def fitPath (d : Data) : Fit Path := (Data.fitText d).map Path.ofText

/-- Settings from the values that are given. -/
def fit (ms : Members) : Fit Settings :=
  Settings.mk <$> text "target" "."
    <*> text "org" []
    <*> text "api_url" "https://api.snyk.io"
    <*> text "remote_repo_url" []
    <*> flag "use_sbom_resolution"
    <*> flag "all_projects"
    <*> flag "fail_fast"
    <*> flag "dev"
    <*> text "exclude" []
    <*> text "file" []
    <*> text "detection_depth" []
    <*> flag "prune_repeated_subdependencies"
    <*> flag "print_effective_graph"
    <*> flag "print_effective_graph_with_errors"
    <*> flag "workspace_packages"
    <*> text "legacy_cli" "snyk"
    <*> text "uv_binary" "uv"
    <*> text "pip_binary" "pip"
    <*> text "pip_index_url" []
    <*> flag "pip_no_build_isolation"
    <*> flag "force"
    <*> text "log_level" "info"
    <*> ms.withDefault ["output_file"] none (Data.fitOption fitPath)
    <*> flag "version"
where
  /-- A setting that is a text. -/
  text (name absent : Text) : Fit Text := ms.withDefault [name] absent Data.fitText
  /-- A setting that is off unless it is given. -/
  flag (name : Text) : Fit Bool := ms.withDefault [name] false Data.fitBool

/-- The settings as values by name, in order. -/
def toMembers (s : Settings) : Members := [
  ("target", .text s.target), ("org", .text s.org), ("api_url", .text s.apiUrl),
  ("remote_repo_url", .text s.remoteRepoUrl), ("use_sbom_resolution", .bool s.useSbomResolution),
  ("all_projects", .bool s.allProjects), ("fail_fast", .bool s.failFast), ("dev", .bool s.dev),
  ("exclude", .text s.exclude), ("file", .text s.file), ("detection_depth", .text s.detectionDepth),
  ("prune_repeated_subdependencies", .bool s.pruneRepeatedSubdependencies),
  ("print_effective_graph", .bool s.printEffectiveGraph),
  ("print_effective_graph_with_errors", .bool s.printEffectiveGraphWithErrors),
  ("workspace_packages", .bool s.workspacePackages), ("legacy_cli", .text s.legacyCli),
  ("uv_binary", .text s.uvBinary), ("pip_binary", .text s.pipBinary),
  ("pip_index_url", .text s.pipIndexUrl), ("pip_no_build_isolation", .bool s.pipNoBuildIsolation),
  ("force", .bool s.force), ("log_level", .text s.logLevel),
  ("output_file", match s.outputFile with
    | some path => .text path.toText
    | none => .null),
  ("version", .bool s.version)]

/-- What the resolution is asked for. -/
def resolutionOptions (s : Settings) : ResolutionOptions :=
  { allProjects := s.allProjects, dev := s.dev, exclude := s.exclude, targetFile := s.file,
    failFast := s.failFast, workspacePackages := s.workspacePackages,
    effectiveGraph := s.printEffectiveGraph,
    effectiveGraphWithErrors := s.printEffectiveGraphWithErrors }

/-- What the fallback is handed on. -/
def fallbackFlags (s : Settings) : Fallback.Flags :=
  { detectionDepth := s.detectionDepth
    debug := s.logLevel.lower = "debug"
    pruneRepeated := s.pruneRepeatedSubdependencies }

/-- How pip is called. -/
def pipClient (s : Settings) : Pip.Client :=
  { binary := s.pipBinary, indexUrl := s.pipIndexUrl, noBuildIsolation := s.pipNoBuildIsolation }

/-- The conversion service. -/
def service (s : Settings) : Conversion.Service := { api := s.apiUrl, organization := s.org }

end Settings
end ManifestGraph
