/-
  The command line. Programs and the service are not started from here: the standard input holds the
  machine that the run works on, as a JSON record. What the run prints and logs goes to the standard
  streams, and the file that it writes is written.
-/
import ManifestGraph.Machine.Snapshot
import ManifestGraph.Program
import ManifestGraph.Settings.Given
namespace ManifestGraph

/-- A text as a string, with lone surrogates replaced. -/
def Text.toShownString (t : Text) : String :=
  String.ofList (t.map fun c => c.char?.getD '\uFFFD')

/-- The machine in a document; an empty one if the document is blank or no record. -/
def machineOf (document : String) : Machine :=
  match Json.read Json.lenient (Text.ofString document) with
  | .ok d => .ofData d
  | .error _ => {}

/-- A message on its line, if it is important enough. -/
def shownEvent (threshold : Nat) : Event → Option Text
  | .logged level _ message =>
    if threshold ≤ level.number then some (level.name ++ " - " ++ message) else none
  | _ => none

/-- The variables of the settings that are set. -/
def environment : IO (List (Text × Text)) := do
  let mut found : List (Text × Text) := []
  for s in Settings.all do
    let name := (Settings.variableName s).toShownString.toUpper
    if let some value ← IO.getEnv name then
      found := found ++ [(Text.ofString name, Text.ofString value)]
  return found

/-- Runs the program on a machine. -/
def runOn (s : Settings) (start : Machine) : IO UInt32 := do
  let (result, m) := Program.run s start
  let threshold := (Program.thresholdOf s.logLevel).toOption.getD 0
  for line in m.journal.filterMap (shownEvent threshold) do
    IO.eprintln line.toShownString
  (← IO.getStdout).write ⟨m.printed.toArray⟩
  match result with
  | .error e =>
    IO.eprintln e.message.toShownString
    return 1
  | .ok code =>
    if let some path := s.outputFile then
      if code = 0 && !s.version then
        if let .ok content := m.files.read path then
          IO.FS.writeBinFile path.toText.toShownString ⟨content.toArray⟩
    return (code % 256).toNat.toUInt32

end ManifestGraph

/-- Reads the settings and the machine, and runs the program. -/
def main (args : List String) : IO UInt32 := do
  match ManifestGraph.Settings.read (args.map ManifestGraph.Text.ofString)
      (← ManifestGraph.environment) with
  | .error (.usage exit) =>
    IO.eprintln "usage: [--target DIRECTORY] [--all-projects] [--output-file FILE] ..."
    return exit.toUInt32
  | .error (.invalid misfits) =>
    IO.eprintln (ManifestGraph.Misfit.summary misfits).toShownString
    return 1
  | .ok settings =>
    ManifestGraph.runOn settings (ManifestGraph.machineOf (← (← IO.getStdin).readToEnd))
