/-
  What can go wrong, as causes: one constructor per kind of fault, and the wording of each in one
  place. Faults of other programs, of the file system and of foreign documents stand beside the
  faults of the resolution itself.
-/
import ManifestGraph.Bytes.Utf8
import ManifestGraph.Data.Fit
import ManifestGraph.Data.Shown
namespace ManifestGraph

/-- The families of structured errors that a user is shown. -/
inductive CatalogFamily where
  | plain
  | general
  | unprocessable
  | ecosystem
  | syntaxIssues
  | packageNotFound
  | interpreterUnsupported
  | conflictingRequirements
  | installation
  | manifestNotFound
  deriving DecidableEq, Inhabited

namespace CatalogFamily

/-- The title of the errors of a family; a plain one brings its own. -/
def title : CatalogFamily → Text
  | .plain => []
  | .general => "Unspecified Error"
  | .unprocessable => "Unprocessable file"
  | .ecosystem => "Package manager error"
  | .syntaxIssues => "Syntax issues"
  | .packageNotFound => "Package not found"
  | .interpreterUnsupported => "Unsupported Python version"
  | .conflictingRequirements => "Conflicting requirements"
  | .installation => "Installation failure"
  | .manifestNotFound => "Manifest not found"

/-- The status of the errors of a family. -/
def status : CatalogFamily → Int
  | .plain => 0
  | .general => 500
  | .manifestNotFound => 404
  | _ => 422

end CatalogFamily

/-- A structured error that a user is shown. -/
structure CatalogError where
  family : CatalogFamily := .plain
  detail : Text
  title : Text := family.title
  code : Text := []
  status : Int := family.status
  id : Text := []
  info : Members := []
  deriving Inhabited

namespace CatalogError

/-- The detail, or the title of an error without one. -/
def message (e : CatalogError) : Text := if e.detail.isEmpty then e.title else e.detail

/-- A member with a text, unless the text is empty. -/
def textMember (name value : Text) : Members :=
  if value.isEmpty then [] else [(name, .text value)]

/-- The error as a record of an error document: empty members are left out. -/
def toData (e : CatalogError) : Data :=
  let head : Members := [("title", .text e.title), ("detail", .text e.detail)]
  let info : Members := if e.info.isEmpty then [] else [("meta", .record e.info)]
  .record (head ++ textMember "code" e.code
    ++ textMember "status" (if e.status = 0 then [] else Text.ofInt e.status)
    ++ textMember "id" e.id ++ info)

end CatalogError

/-- A command as it was started: its arguments, or one line of text. -/
inductive CommandLine where
  | arguments (args : List Text)
  | line (text : Text)
  deriving DecidableEq, Inhabited

/-- A command shown in a message. -/
def CommandLine.shown : CommandLine → Text
  | .arguments args => Text.quotedList args
  | .line text => text

/-- The names of the signals that end a process. -/
def signalNames : List (Nat × String) := [
  (1, "SIGHUP"), (2, "SIGINT"), (3, "SIGQUIT"), (4, "SIGILL"), (5, "SIGTRAP"), (6, "SIGABRT"),
  (7, "SIGBUS"), (8, "SIGFPE"), (9, "SIGKILL"), (10, "SIGUSR1"), (11, "SIGSEGV"), (12, "SIGUSR2"),
  (13, "SIGPIPE"), (14, "SIGALRM"), (15, "SIGTERM"), (16, "SIGSTKFLT"), (17, "SIGCHLD"),
  (18, "SIGCONT"), (19, "SIGSTOP"), (20, "SIGTSTP"), (21, "SIGTTIN"), (22, "SIGTTOU"),
  (23, "SIGURG"), (24, "SIGXCPU"), (25, "SIGXFSZ"), (26, "SIGVTALRM"), (27, "SIGPROF"),
  (28, "SIGWINCH"), (29, "SIGIO"), (30, "SIGPWR"), (31, "SIGSYS"), (34, "SIGRTMIN"),
  (64, "SIGRTMAX")]

/-- The message about a process that did not end with zero. A negative status names a signal. -/
def exitMessage (command : CommandLine) (status : Int) : Text :=
  let subject : Text := "Command '" ++ command.shown ++ "' "
  if status < 0 then
    match List.lookup status.natAbs signalNames with
    | some name =>
      subject ++ "died with <Signals." ++ Text.ofString name ++ ": " ++ Text.ofNat status.natAbs ++ ">."
    | none => subject ++ "died with unknown signal " ++ Text.ofNat status.natAbs ++ "."
  else subject ++ "returned non-zero exit status " ++ Text.ofInt status ++ "."

/-- Why a resolution fails. -/
inductive ResolutionFault where
  | sourceFailed (source why : Text)
  | findingFailed (lockFile why : Text)
  | nothingToConvert (lockFile : Text)
  | noConverter (lockFile : Text)
  | conversionFailed (why : Text)
  | noMetadata (lockFile : Text)
  | fallbackFailed (why : Text)
  | rootWithoutManager
  | rootWithoutName
  | stated (message : Text)

/-- The wording of a failed resolution. -/
def ResolutionFault.message : ResolutionFault → Text
  | .sourceFailed source why => "error building SBOM with " ++ source ++ ": " ++ why
  | .findingFailed lockFile why => "error building SBOM for " ++ lockFile ++ ": " ++ why
  | .nothingToConvert lockFile =>
    "finding for " ++ lockFile ++ " holds neither a dependency graph nor an SBOM"
  | .noConverter lockFile => "no converter available for the SBOM of " ++ lockFile
  | .conversionFailed why => "error converting SBOM: " ++ why
  | .noMetadata lockFile => "missing metadata for the SBOM of " ++ lockFile
  | .fallbackFailed why => "error handling legacy workflow: " ++ why
  | .rootWithoutManager =>
    "failed to create empty depgraph: found empty PackageManager on metadata"
  | .rootWithoutName => "failed to create empty depgraph: found empty Name on metadata"
  | .stated message => message

/-- Why the output of the fallback cannot be read. -/
inductive OutputFault where
  | lineUnreadable (line : Nat) (why : Text)
  | lineNotRecord (line : Nat)
  | memberNotText (line : Nat) (key : Text)
  | graphInvalid (target why : Text)
  | notParsed (why : Text)
  | stated (message : Text)

/-- The wording of unreadable output. -/
def OutputFault.message : OutputFault → Text
  | .lineUnreadable line why => atLine line ++ why
  | .lineNotRecord line => atLine line ++ "expected a JSON object"
  | .memberNotText line key => atLine line ++ key ++ " must be a string"
  | .graphInvalid target why =>
    let shown : Text := if target.isEmpty then "<unknown target>" else target
    "invalid dependency graph for " ++ shown ++ ": " ++ why
  | .notParsed why => "error parsing dep graphs: " ++ why
  | .stated message => message
where
  /-- The beginning of a message about one line. -/
  atLine (line : Nat) : Text :=
    "could not parse dependency graph output on line " ++ Text.ofNat line ++ ": "

/-- Faults from outside that carry a message of their own. -/
inductive ForeignKind where
  | system
  | fileNotFound
  | isDirectory
  | notDirectory
  | value
  | runtime
  | connection
  | overflow
  | type
  | recursion
  deriving DecidableEq, Inhabited

/-- The fault comes from files or programs. -/
def ForeignKind.isSystem : ForeignKind → Bool
  | .system | .fileNotFound | .isDirectory | .notDirectory => true
  | .value | .runtime | .connection | .overflow | .type | .recursion => false

/-- Documents that can be unreadable as text, before their shape matters. -/
inductive DocumentKind where
  | json
  | toml
  deriving DecidableEq

/-- One fault, without what caused it. -/
inductive Reason where
  | general (message : Text)
  | graphUndecodable (message : Text)
  | graphInvalid (problems : List Text)
  | nodeNotFound (message : Text)
  | output (fault : OutputFault)
  | resolution (fault : ResolutionFault)
  | nothingFound (message : Text)
  | catalog (error : CatalogError)
  | fallbackReport (message path : Text) (ok : Bool)
  | exit (code : Int) (detail : Text)
  | noSupportedProjects
  | conversion (message : Text)
  | noOrganization
  | commandFailed (command : CommandLine) (status : Int) (stdout stderr : Option Bytes)
  | misfit (misfits : List Misfit)
  | malformedDocument (kind : DocumentKind)
  | undecodableDocument (kind : DocumentKind)
  | longNumeral (kind : DocumentKind)
  | undecodable (run : Utf8.Malformed)
  | foreign (kind : ForeignKind) (message : Text)

/-- The exit code of a run in which a project failed and the rest was not tried. -/
def failFastCode : Int := 2

/-- The exit code of a run that found no project. -/
def noProjectsCode : Int := 3

namespace Reason

/-- A structured error of a family. -/
def inFamily (family : CatalogFamily) (detail : Text) : Reason := .catalog { family, detail }

/-- The message about the missing organization. -/
def noOrganizationMessage : Text :=
  "Failed to infer an organization ID. Please make sure to authenticate, and should the issue "
    ++ "persist, explicitly set an organization ID via the `--org` flag."

/-- The message of a fault. -/
def message : Reason → Text
  | .general message => message
  | .graphUndecodable message => message
  | .graphInvalid problems => "invalid DepGraph: " ++ Text.join "; " problems
  | .nodeNotFound message => message
  | .output fault => fault.message
  | .resolution fault => fault.message
  | .nothingFound message => message
  | .catalog error => error.message
  | .fallbackReport message _ _ => message
  | .exit _ detail => detail
  | .noSupportedProjects => "no supported projects detected"
  | .conversion message => message
  | .noOrganization => noOrganizationMessage
  | .commandFailed command status _ _ => exitMessage command status
  | .misfit misfits => Misfit.summary misfits
  | .malformedDocument .json => "<invalid JSON>"
  | .malformedDocument .toml => "<invalid TOML>"
  | .undecodableDocument .json => "<invalid JSON>"
  | .undecodableDocument .toml => "<invalid TOML>"
  | .longNumeral .json => "<invalid JSON>"
  | .longNumeral .toml => "<invalid TOML>"
  | .undecodable run => run.message
  | .foreign _ message => message

/-- The exit code that a fault asks for by its kind. -/
def exitMark : Reason → Data
  | .exit code _ => .int code
  | .noSupportedProjects => .int noProjectsCode
  | _ => .null

/-- A fault that the resolution states itself, not one from outside. -/
def isOwn : Reason → Bool
  | .commandFailed .. | .misfit _ | .malformedDocument _ | .undecodableDocument _ | .longNumeral _
  | .undecodable _ | .foreign .. => false
  | _ => true

/-- Output of the fallback that cannot be read. -/
def isOutputFault : Reason → Bool
  | .output _ => true
  | _ => false

/-- A program could not be started, or did not end with zero. -/
def isProgramFault : Reason → Bool
  | .commandFailed .. => true
  | .foreign kind _ => kind.isSystem
  | _ => false

/-- The structured error of a fault that is one. -/
def catalog? : Reason → Option CatalogError
  | .catalog error => some error
  | _ => none

end Reason

/-- A fault, with the exit code it asks for; only an integer or a truth value counts as one. -/
structure Fault where
  reason : Reason
  exitMark : Data := reason.exitMark

namespace Fault

instance : Coe Reason Fault := ⟨fun reason => { reason }⟩

/-- The message of a fault. -/
def message (f : Fault) : Text := f.reason.message

/-- The exit code that a fault reports: the status of a failed command, else the one asked for. -/
def exitMark? (f : Fault) : Option Data :=
  match f.reason, f.exitMark with
  | .commandFailed _ status _ _, _ => some (.int status)
  | _, .int n => some (.int n)
  | _, .bool b => some (.bool b)
  | _, _ => none

end Fault
end ManifestGraph
