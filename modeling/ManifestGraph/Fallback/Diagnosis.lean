/-
  Why the fallback resolver failed: a structured error in its output if there is one, else its own
  short error record, else what it wrote before it ended.
-/
import ManifestGraph.Failure.Document
import ManifestGraph.Record.Lines
namespace ManifestGraph.Fallback

/-- The first structured error of an error document, if it is one. -/
def firstInDocument (bs : Bytes) : Except Failure (Option CatalogError) :=
  match CatalogError.firstOfDocument bs with
  | .ok error => .ok error
  | .error fault => .error fault.failure

/-- The first structured error that a record of some lines carries. -/
def firstInRecords : List Record → Except Failure (Option CatalogError)
  | [] => .ok none
  | r :: rs =>
    match r.error with
    | none => firstInRecords rs
    | some bs => do
      match ← firstInDocument bs with
      | some error => .ok (some error)
      | none => firstInRecords rs

/-- The structured error in the output read as lines. -/
def errorInLines (output : Bytes) : Except Failure (Option CatalogError) :=
  match Record.ofLines output with
  | .ok records => firstInRecords records
  | .error e => if e.fault.reason.isOutputFault then .ok none else .error e

/-- The error document that a record wraps under `error`. -/
def wrappedDocument? (output : Bytes) : Except Failure (Option Bytes) :=
  match Json.readLenient output with
  | .ok (.record ms) =>
    match List.lookup ("error" : Text) ms with
    | some d => .ok (if d.isTruthy then some (Json.writeBytes Json.Style.spaced d) else none)
    | none => .ok none
  | .ok _ => .ok none
  | .error fault => if fault.isDepth then .error (.of fault.reason) else .ok none

/-- The structured error in the output: the output itself is an error document, or wraps one, or has a
line that does. -/
def errorInOutput (output : Bytes) : Except Failure (Option CatalogError) := do
  if output.isEmpty then return none
  if let some error ← firstInDocument output then return some error
  if let some document ← wrappedDocument? output then
    if let some error ← firstInDocument document then return some error
  errorInLines output

/-- The short error record of the resolver. -/
def report? (output : Bytes) : Option Reason :=
  match Json.readLenient output with
  | .ok (.record ms) =>
    match List.lookup ("error" : Text) ms with
    | some (.text message) =>
      let path := (List.lookup ("path" : Text) ms).getD .null
      let ok := (List.lookup ("ok" : Text) ms).getD (.bool false)
      some (.fallbackReport message (if path.isTruthy then path.shown else []) ok.isTruthy)
    | _ => none
  | _ => none

/-- Captured output as it is shown in a message. -/
def captured (bs : Option Bytes) : Text := (Utf8.decodeLossy (bs.getD [])).trim

/-- The message of a failed command with what it wrote. -/
def withCaptured (message : Text) (stdout stderr : Option Bytes) : Text :=
  let out := captured stdout
  let err := captured stderr
  message ++ (if out.isEmpty then ([] : Text) else "\nstdout: " ++ out)
    ++ (if err.isEmpty then ([] : Text) else "\nstderr: " ++ err)

/-- The failure of the resolver's process, when its output holds no structured error. -/
def unstructured (raw : Failure) (output : Bytes) : Failure :=
  let general (detail : Text) (cause : Failure) : Failure :=
    .caused (.catalog { family := .general, detail }) cause
  match raw.fault.reason with
  | .commandFailed _ _ stdout stderr =>
    match if output.isEmpty then none else report? output with
    | some report => general report.message (.caused report raw)
    | none => general (withCaptured raw.message stdout stderr) raw
  | _ => general raw.message raw

/-- The structured failure that a failure of the resolver's process stands for; an error if there is a
fault in the output that keeps it from being told. -/
def diagnose (raw : Failure) (output : Bytes := []) : Except Failure Failure :=
  match raw.sinceCatalog? with
  | some e => .ok e
  | none => do
    match ← errorInOutput output with
    | some error => .ok (.caused (.catalog error) raw)
    | none => .ok (unstructured raw output)

end ManifestGraph.Fallback
