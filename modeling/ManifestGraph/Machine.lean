/-
  What a run sees of the outside: files, programs and a conversion service, each program and the
  service with the outcomes still to come, and the journal of all that the run did to them.

  An action keeps the machine also when it fails, so that the journal tells what was done before.
-/
import ManifestGraph.FileTree.Fault
import ManifestGraph.Finding
import ManifestGraph.Resolution.Options
import ManifestGraph.Text.Quoted
namespace ManifestGraph

/-- What happens when a program is started: it ends with a status and output, or cannot be started. -/
inductive ProgramOutcome where
  | ended (status : Int) (stdout stderr : Bytes)
  | notStarted (message : Text)
  deriving Inhabited

/-- What the conversion service answers, if it can be reached. -/
inductive ServiceReply where
  | response (status : Int) (reason : Text) (headers : List (Text × Text)) (body : Bytes)
  | unreachable (message : Text)
  deriving Inhabited

/-- How important a message is. -/
inductive LogLevel where
  | info
  | warning
  | error
  deriving DecidableEq, Inhabited

namespace LogLevel

/-- The name of a level. -/
def name : LogLevel → Text
  | .info => "INFO"
  | .warning => "WARNING"
  | .error => "ERROR"

/-- The rank of a level. -/
def number : LogLevel → Nat
  | .info => 20
  | .warning => 30
  | .error => 40

end LogLevel

/-- The part of the program that a message comes from. -/
inductive LogTopic where
  | failures
  | pip
  | pipenv
  | uv
  | service
  | conversion
  | fallback
  | resolution
  | commandLine
  deriving DecidableEq, Inhabited

/-- Something that a run did. -/
inductive Event where
  /-- It started a program, or tried to. -/
  | started (args : List Text) (stdin : Option Bytes) (directory : Option Text)
  | posted (url : Text) (parameters : List (Text × Text)) (body : Bytes)
      (headers : List (Text × Text))
  | logged (level : LogLevel) (topic : LogTopic) (message : Text)
  | consulted (source directory : Text) (options : SourceOptions)
  | converted (lockFile : Text) (sbom : Option Bytes)
  | fellBack (directory : Text) (options : ResolutionOptions)
  | printed (content : Bytes)

/-- The outside of a run. -/
structure Machine where
  files : FileSystem := {}
  programs : List (Text × List ProgramOutcome) := []
  /-- The programs are played by stand-ins, which take arguments that the system refuses. -/
  standIns : Bool := false
  service : List ServiceReply := []
  /-- How many calls of one function inside another there is room for. -/
  callDepth : Nat := 980
  journal : List Event := []
  deriving Inhabited

/-- The system starts no program with such arguments: there is a null character in one of them. -/
def Machine.refuses (m : Machine) (args : List Text) : Bool :=
  !m.standIns && args.any fun arg => arg.contains (.scalar '\x00')

/-- All that a run printed. -/
def Machine.printed (m : Machine) : Bytes :=
  m.journal.flatMap fun
    | .printed content => content
    | _ => []

/-- An action on a machine, which may fail. -/
abbrev Run (α : Type) := ExceptT Failure (StateM Machine) α

/-- The next of some outcomes, and those still to come; the last one repeats for ever. -/
def nextOutcome? : List α → Option (α × List α)
  | [] => none
  | [x] => some (x, [x])
  | x :: xs => some (x, xs)

namespace Run

/-- Fails with a fault that has no cause. -/
def fail (reason : Reason) : Run α := throw (.of reason)

/-- Fails with a fault that a failure caused. -/
def failFrom (reason : Reason) (cause : Failure) : Run α := throw (.caused reason cause)

/-- Writes an event into the journal. -/
def note (e : Event) : Run Unit := modify fun m => { m with journal := m.journal ++ [e] }

/-- Logs a message. -/
def log (level : LogLevel) (topic : LogTopic) (message : Text) : Run Unit :=
  note (.logged level topic message)

/-- Where a program is found, if it is there. -/
def find? (program : Text) : Run (Option Text) := do
  let m ← get
  let found := (List.lookup program m.programs).isSome && !m.refuses [program]
  return if found then some ("/bin/" ++ program) else none

/-- Starts a program, which is looked up by the last part of its name. -/
def start (args : List Text) (stdin : Option Bytes := none) (directory : Option Text := none) :
    Run ProgramOutcome := do
  note (.started args stdin directory)
  let program := args.headD []
  let key := Text.afterLast '/' program
  let m ← get
  if m.refuses args then fail (.foreign .value "embedded null byte")
  match nextOutcome? ((List.lookup key m.programs).getD []) with
  | none => fail (.foreign .fileNotFound ("no such program: " ++ program))
  | some (outcome, rest) =>
    set { m with programs := putMember key rest m.programs }
    match outcome with
    | .notStarted message => fail (.foreign .system message)
    | .ended .. => return outcome

/-- Starts a program and gives what it wrote; a status other than zero is a fault. -/
def output (args : List Text) (stdin : Option Bytes := none) (directory : Option Text := none) :
    Run Bytes := do
  match ← start args stdin directory with
  | .ended status stdout stderr =>
    if status = 0 then return stdout
    else fail (.commandFailed (.arguments args) status (some stdout) (some stderr))
  | .notStarted message => fail (.foreign .system message)

/-- The text with line feeds as its only line ends. -/
def unixLines : Text → Text
  | .scalar '\r' :: .scalar '\n' :: t => '\n' :: unixLines t
  | c :: t => (if c = '\r' then '\n' else c) :: unixLines t
  | [] => []

/-- The text that UTF-8 bytes spell. -/
def decoded (bs : Bytes) : Run Text :=
  match Utf8.decode bs with
  | .ok t => pure t
  | .error run => fail (.undecodable run)

/-- Starts a program and gives the text that it wrote; both of its streams must be text. -/
def outputText (args : List Text) : Run Text := do
  match ← start args with
  | .ended status stdout stderr =>
    let out ← decoded stdout
    let _ ← decoded stderr
    if status = 0 then return unixLines out
    else fail (.commandFailed (.arguments args) status (some stdout) (some stderr))
  | .notStarted message => fail (.foreign .system message)

/-- Posts a document to the conversion service. -/
def post (url : Text) (parameters : List (Text × Text)) (body : Bytes)
    (headers : List (Text × Text)) : Run ServiceReply := do
  note (.posted url parameters body headers)
  let m ← get
  match nextOutcome? m.service with
  | none => fail (.foreign .connection "connection refused")
  | some (reply, rest) =>
    set { m with service := rest }
    match reply with
    | .unreachable message => fail (.foreign .connection message)
    | .response .. => return reply

/-- Something is at a path. -/
def isPresent (p : Path) : Run Bool := do
  match (← get).files.look p with
  | .ok found => return found.isSome
  | .error e => throw e

/-- The content of a file. -/
def readFile (p : Path) : Run Bytes := do
  match (← get).files.read p with
  | .ok content => return content
  | .error fault => fail (fault.reason p)

/-- Writes a file. -/
def writeFile (p : Path) (content : Bytes) : Run Unit := do
  let m ← get
  match m.files.write p content with
  | .ok files => set { m with files }
  | .error fault => fail (fault.reason p)

/-- An action's result, or its failure as a value. -/
def attempt (x : Run α) : Run (Except Failure α) := fun m =>
  let (result, m) := x m
  (.ok result, m)

/-- A result that was reached outside of a machine. -/
def ofExcept : Except Failure α → Run α
  | .ok a => pure a
  | .error e => throw e

end Run
end ManifestGraph
