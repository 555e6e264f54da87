/-
  The program: it resolves a directory as its settings say and writes the graphs in the line protocol to
  the standard output or to a file. Nothing is written unless everything was resolved.
-/
import ManifestGraph.Fallback.Resolver
import ManifestGraph.Pipenv.Source
import ManifestGraph.Resolution
import ManifestGraph.Settings
import ManifestGraph.Uv.Source
namespace ManifestGraph.Program

/-- The version of the program. -/
def version : Text := "0.1.0"

/-- The levels by their names in lower case, with the least importance of the messages that they show. -/
def levels : List (Text × Nat) := [
  ("notset", 0), ("debug", 10), ("info", 20), ("warn", 30), ("warning", 30), ("error", 40),
  ("critical", 50), ("fatal", 50)]

/-- A letter of a level's name without its case: `ı` and `ſ` have the same capitals as `i` and `s`, and
`ﬅ` and `ﬆ` those of two letters. -/
def levelLetters (c : CodePoint) : Text :=
  if c = 'ı' then "i"
  else if c = 'ſ' then "s"
  else if c = 'ﬅ' ∨ c = 'ﬆ' then "st"
  else [c.asciiLower]

/-- Names in lower case that stand for something else than a level. -/
def misnomers : List (Text × Reason) := [
  ("basic_format",
    .foreign .value "Unknown level: '%(levelname)s:%(name)s:%(message)s'"),
  ("_styles",
    .foreign .type ("Level not an integer or a valid string: \x7b"
      ++ "'%': (<class 'logging.PercentStyle'>, '%(levelname)s:%(name)s:%(message)s'), "
      ++ "'\x7b': (<class 'logging.StrFormatStyle'>, "
      ++ "'\x7blevelname\x7d:\x7bname\x7d:\x7bmessage\x7d'), "
      ++ "'$': (<class 'logging.StringTemplateStyle'>, "
      ++ "'$\x7blevelname\x7d:$\x7bname\x7d:$\x7bmessage\x7d')\x7d"))]

/-- The least importance of the messages that are shown, by the name of a level in any case; an unknown
name means `info`. -/
def thresholdOf (level : Text) : Except Failure Nat :=
  let name := level.flatMap levelLetters
  match List.lookup name misnomers with
  | some reason => .error (.of reason)
  | none => .ok ((List.lookup name levels).getD 20)

/-- The fallback resolver. -/
def fallback (s : Settings) : Fallback.Resolver := { command := s.legacyCli, flags := s.fallbackFlags }

/-- The sources in order of precedence, with the fallback. -/
def resolution (s : Settings) : Resolution where
  sources := [
    Uv.Projects.source
      { client := { binary := s.uvBinary }, service := s.service, remoteUrl := s.remoteRepoUrl },
    (Pipenv.pipfiles s.pipClient).source,
    (Pip.requirementsFiles s.pipClient).source]
  fallback := (fallback s).resolve
  organization := s.org
  convert := some (Conversion.converter s.service s.remoteRepoUrl)

/-- The outputs for the target directory. -/
def resolve (s : Settings) : Run (List Output) :=
  if s.useSbomResolution then (resolution s).run s.target s.resolutionOptions
  else (fallback s).resolve s.target s.resolutionOptions

/-- The exit code of a failed resolution; a failure never ends the program with zero. -/
def failureCode (e : Failure) : Int :=
  match e.exitCode? with
  | some code => if code = 0 then 1 else code
  | none => 1

/-- All outputs in the line protocol. -/
def lines (os : List Output) : Except Failure Bytes := (os.mapM Output.toLines).map List.flatten

/-- Writes the output to its destination. -/
def write (s : Settings) (content : Bytes) : Run Unit := do
  match s.outputFile with
  | none => Run.note (.printed content)
  | some path =>
    Run.writeFile path content
    let place := (path.absolute (← get).files.here).toText
    Run.log .info .commandLine ("Output saved to " ++ place)

/-- The output file is there and may not be overwritten. -/
def isBlocked (s : Settings) : Run Bool := do
  match s.outputFile with
  | none => return false
  | some path => if s.force then return false else Run.isPresent path

/-- Runs the program and gives its exit code. A fault from outside that no part of the resolution
reports as its own is not caught. -/
def run (s : Settings) : Run Int := do
  let _ ← Run.ofExcept (thresholdOf s.logLevel)
  if s.version then
    Run.log .info .commandLine ("dep-graph version " ++ version)
    return 0
  if ← isBlocked s then
    let name := (s.outputFile.map Path.toText).getD []
    Run.log .error .commandLine
      (name ++ " already exists!\nRe-run with `--force` to overwrite the file.")
    return 1
  match ← Run.attempt (resolve s) with
  | .ok outputs =>
    write s (← Run.ofExcept (lines outputs))
    return 0
  | .error e =>
    if !e.fault.reason.isOwn then throw e
    Run.log .error .commandLine e.userMessage
    return failureCode e

end ManifestGraph.Program
