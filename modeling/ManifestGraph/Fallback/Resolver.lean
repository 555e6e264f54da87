/-
  The fallback resolver: a program that is asked for the graphs of a directory, in one of two forms.
  Every graph that it reports must be valid; errors that it reports beside them are kept with the
  output they belong to.
-/
import ManifestGraph.Fallback.Arguments
import ManifestGraph.Fallback.Diagnosis
import ManifestGraph.Graph.Document
import ManifestGraph.Graph.Invariants
import ManifestGraph.Machine
import ManifestGraph.Output
import ManifestGraph.Record.Blocks
namespace ManifestGraph.Fallback

/-- Reads a graph that was reported for a file, and checks it. -/
def decodeGraph (payload : Bytes) (targetFile : Text) : Except Failure DependencyGraph :=
  let refused (e : Failure) : Failure := .caused (.output (.graphInvalid targetFile e.message)) e
  match DependencyGraph.decode payload with
  | .error e => .error (refused e)
  | .ok g =>
    match g.check with
    | .ok () => .ok g
    | .error e => .error (refused e)

/-- The errors that a report carries; what cannot be read is logged and left out. -/
def errorsOf (r : Record) : Run (List Failure) :=
  match r.error with
  | none => return []
  | some document =>
    match CatalogError.ofDocument document with
    | .ok errors => return errors.map fun e => .of (.catalog e)
    | .error .infiniteStatus => throw ErrorDocumentFault.infiniteStatus.failure
    | .error fault => do
      Run.log .warning .fallback
        ("failed to parse error from depgraph output: " ++ fault.failure.message)
      return []

/-- The output for one report. -/
def outputOf (r : Record) : Run Output := do
  if let some payload := r.graph then
    let _ ← Run.ofExcept (decodeGraph payload r.targetFile)
  let output ← Run.ofExcept
    (Output.make (r.graph.getD []) r.targetFile r.pluginFile r.target)
  return { output with errors := ← errorsOf r }

/-- The outputs for some reports, in order. -/
def outputsOf : List Record → Run (List Output)
  | [] => return []
  | r :: rs => do
    let output ← outputOf r
    let outputs ← outputsOf rs
    return output :: outputs

/-- The reports in the resolver's output. -/
def GraphForm.records (form : GraphForm) (output : Bytes) : Except Failure (List Record) :=
  match form with
  | .blocks => .ok (Record.ofBlocks output)
  | .lines | .linesWithErrors =>
    match Record.ofLines output with
    | .ok records => .ok records
    | .error e =>
      .error (if e.fault.reason.isOutputFault then .caused (.output (.notParsed e.message)) e else e)

/-- How the resolver is called. -/
structure Resolver where
  command : Text := "snyk"
  flags : Flags := {}
  deriving DecidableEq, Inhabited

namespace Resolver

/-- The failure of a run, from that of its process and what it wrote. -/
def failedRun (raw : Failure) (output : Bytes) : Failure :=
  match diagnose raw output with
  | .ok e => .caused e.fault.reason raw
  | .error e => e

/-- Runs the resolver and gives what it wrote. -/
def run (r : Resolver) (args : List Text) : Run Bytes := do
  Run.log .info .fallback ("Running " ++ r.command ++ " " ++ Text.join " " args)
  match ← Run.attempt (Run.output (r.command :: args)) with
  | .ok output => return output
  | .error e =>
    match e.fault.reason with
    | .commandFailed _ _ stdout _ => throw (failedRun e (stdout.getD []))
    | reason => throw (if reason.isProgramFault then failedRun e [] else e)

/-- The outputs for a directory, one for each graph; there must be at least one. -/
def resolve (r : Resolver) (directory : Text) (o : ResolutionOptions) : Run (List Output) := do
  let form := GraphForm.ofOptions o
  let output ← r.run (arguments form.argument directory o r.flags)
  let records ← Run.ofExcept (form.records output)
  if records.isEmpty then Run.fail (.nothingFound "no depgraphs found")
  let outputs ← outputsOf records
  Run.log .info .fallback ("DepGraph workflow done (extracted " ++ Text.ofNat outputs.length
    ++ " dependency graphs)")
  return outputs

end Resolver
end ManifestGraph.Fallback
