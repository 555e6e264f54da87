/-
  The settings that are given on the command line and in the environment. On the command line the last
  of several values counts, and the command line goes before the environment. The names of options and
  variables are compared without case. A command line that does not follow its usage ends the run.
-/
import ManifestGraph.Settings
import ManifestGraph.Text.Lower
namespace ManifestGraph

/-- Why there are no settings. -/
inductive SettingsFault where
  /-- The usage is printed, because it was asked for or not followed. -/
  | usage (exit : Nat)
  | invalid (misfits : List Misfit)

namespace Settings

/-! ## The command line -/

/-- The option of a setting. -/
def optionName (s : Setting) : Text := "--" ++ s.name.replace '_' '-'

/-- The option that turns a flag off. -/
def offOptionName (s : Setting) : Text := "--no-" ++ s.name.replace '_' '-'

/-- The options, with those that ask for help. -/
def optionNames : List Text :=
  ("-h" : Text) :: ("--help" : Text) :: all.flatMap fun s =>
    match s.kind with
    | .flag => [optionName s, offOptionName s]
    | .text => [optionName s]

/-- The exit code of a command line that does not follow the usage. -/
def misuse : SettingsFault := .usage 2

/-- What an argument is. -/
inductive Argument where
  /-- An option, with the value that is attached to it by an equals sign. -/
  | option (setting : Setting) (on : Bool) (attached : Option Text)
  | help
  | brokenHelp
  /-- What may be the value of an option. -/
  | plain (text : Text)
  | unknown

/-- The setting of an option, and whether the option turns it on. -/
def option? (name : Text) : Option (Setting × Bool) :=
  match all.find? fun s => optionName s = name with
  | some s => some (s, true)
  | none =>
    (all.find? fun s => s.kind = .flag && offOptionName s = name).map fun s => (s, false)

/-- An argument before and after its first equals sign. -/
def splitAttached (t : Text) : Text × Option Text :=
  match t.dropWhile (· ≠ .scalar '=') with
  | [] => (t, none)
  | _ :: value => (t.takeWhile (· ≠ .scalar '='), some value)

/-- A digit of any script. -/
def isDigit (c : CodePoint) : Bool := c.digitValue?.isSome

/-- The text after a minus sign is a number with digits after its point, if it has one. -/
def isNumber (t : Text) : Bool :=
  let t := if t.getLast? = some (.scalar '\n') then t.dropLast else t
  match t.dropWhile isDigit with
  | [] => !t.isEmpty
  | .scalar '.' :: fraction => !fraction.isEmpty && fraction.all isDigit
  | _ => false

/-- A character that may stand in the name of an option. -/
def isNameCharacter (c : CodePoint) : Bool := !c.isBlank && c ≠ '='

/-- An argument with the name of an option in lower case, if it starts with one in any case. What starts
like an option, known or not, is read up to the first line feed; a number is left as it is. -/
def normalized (t : Text) : Text :=
  match t with
  | .scalar '-' :: rest =>
    let characters := rest.takeWhile isNameCharacter
    if characters.isEmpty || isNumber rest then t
    else
      let name : Text := "-" ++ characters
      let usual := name.lower
      (if optionNames.contains usual then usual else name)
        ++ (rest.dropWhile isNameCharacter).takeWhile (· ≠ .scalar '\n')
  | t => t

/-- An argument that starts with a minus sign and is no option of a setting: asking for help, which may
be repeated in one argument but not followed by anything else, or a value that looks like an option. -/
def argumentAfterMinus (rest : Text) : Argument :=
  match rest with
  | [] => .plain "-"
  | .scalar 'h' :: more => if more.all (· = .scalar 'h') then .help else .brokenHelp
  | _ =>
    if isNumber rest || rest.contains (.scalar ' ') then .plain ("-" ++ rest) else .unknown

/-- What an argument is, by itself. -/
def argument (t : Text) : Argument :=
  match t with
  | .scalar '-' :: rest =>
    let (name, attached) := splitAttached t
    match option? t, option? name with
    | some (s, on), _ => .option s on none
    | none, some (s, on) => .option s on attached
    | none, none =>
      if name = ("--help" : Text) then (if attached.isNone then .help else .brokenHelp)
      else argumentAfterMinus rest
  | t => .plain t

/-- A value as it is given: the word `null` stands for none. -/
def givenValue (t : Text) : Data := if t = ("null" : Text) then .null else .text t

/-- The values on a command line, after those that are `given` already; `waiting` is an option whose
value comes next. An argument that is neither an option nor a value is wrong, which is stated at the
end: `wrong` says that there was one. -/
def ofArguments (wrong : Bool) (waiting : Option Setting) (given : Members) :
    List Text → Except SettingsFault Members
  | [] => if wrong || waiting.isSome then .error misuse else .ok given
  | t :: ts =>
    if t = ("--" : Text) then .error misuse
    else match waiting, argument t with
      | some s, .plain value => ofArguments wrong none (putMember s.name (givenValue value) given) ts
      | some _, _ => .error misuse
      | none, .help => .error (.usage 0)
      | none, .brokenHelp => .error misuse
      | none, .unknown | none, .plain _ => ofArguments true none given ts
      | none, .option s on attached =>
        match s.kind, attached with
        | .flag, none => ofArguments wrong none (putMember s.name (.bool on) given) ts
        | .flag, some _ => .error misuse
        | .text, none => ofArguments wrong (some s) given ts
        | .text, some value => ofArguments wrong none (putMember s.name (givenValue value) given) ts

/-! ## The environment -/

/-- The variable of a setting, in lower case. -/
def variableName (s : Setting) : Text := "dep_graph_" ++ s.name

/-- The values in an environment; names are compared without case, and the last one counts. -/
def ofEnvironment (environment : List (Text × Text)) : Members :=
  all.filterMap fun s =>
    (environment.reverse.find? fun v => v.1.lower = variableName s).map fun v =>
      (s.name, .text v.2)

/-- The settings of a run. -/
def read (arguments : List Text) (environment : List (Text × Text)) :
    Except SettingsFault Settings := do
  let given ← ofArguments false none [] (arguments.map normalized)
  match fit (given ++ ofEnvironment environment) with
  | .ok settings => .ok settings
  | .bad misfits => .error (.invalid misfits)

end Settings
end ManifestGraph
