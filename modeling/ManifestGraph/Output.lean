/-
  The outputs of a resolution: serialised graphs with their metadata and errors, and their form in the
  line protocol. An output of several records is a payload in that form already.
-/
import ManifestGraph.Record.Lines
namespace ManifestGraph

/-- What a payload is: one graph, or the records of several. -/
inductive ContentType where
  | json
  | jsonLines
  | other (name : Text)
  deriving DecidableEq, Inhabited

/-- A serialised graph with its metadata and errors. -/
structure Output where
  payload : Bytes
  targetFile : Text
  pluginFile : Option Text := none
  target : Option Text := none
  contentType : ContentType := .json
  errors : List Failure := []

namespace Output

/-- An output for a serialised graph; the target must be UTF-8. -/
def make (payload : Bytes) (targetFile : Text) (pluginFile : Option Text := none)
    (target : Option Bytes := none) (contentType : ContentType := .json) : Except Failure Output :=
  match target with
  | none => .ok { payload, targetFile, pluginFile, contentType }
  | some bs =>
    match Utf8.decode bs with
    | .ok t => .ok { payload, targetFile, pluginFile, target := some t, contentType }
    | .error run => .error (.of (.undecodable run))

/-- A JSON text read freely. -/
def readText (t : Text) : Except Failure Data :=
  match Json.read Json.lenient t with
  | .ok d => .ok d
  | .error fault => .error (.of fault.reason)

/-- JSON bytes read freely. -/
def readBytes (bs : Bytes) : Except Failure Data :=
  match Json.readLenient bs with
  | .ok d => .ok d
  | .error fault => .error (.of fault.reason)

/-- The graph of the output, unless there is none or it is in the line protocol. -/
def graphMember (o : Output) : Except Failure Members :=
  if o.contentType = .json ∧ ¬ o.payload.isEmpty then
    (readBytes o.payload).map fun d => [("depGraph", d)]
  else .ok []

/-- The target of the output. -/
def targetMember (o : Output) : Except Failure Members :=
  match o.target with
  | none => .ok []
  | some t => (readText t).map fun d => [("target", d)]

/-- The errors of the output as an error document. -/
def errorMember (o : Output) : Members :=
  if o.errors.isEmpty then []
  else
    let errors := o.errors.filterMap fun e => (e.fault.reason.catalog?).map CatalogError.toData
    [("error", .record [("errors", .list errors)])]

/-- One record of the line protocol. -/
def toData (o : Output) : Except Failure Data := do
  let graph ← o.graphMember
  let target ← o.targetMember
  let plugin : Members := match o.pluginFile with
    | none => []
    | some file => [("targetFileFromPlugin", .text file)]
  let head : Members := [("normalisedTargetFile", .text o.targetFile)]
  .ok (.record (head ++ graph ++ plugin ++ target ++ o.errorMember))

/-- The line end. -/
def newline : UInt8 := 0x0A

/-- The output in the line protocol. -/
def toLines (o : Output) : Except Failure Bytes :=
  if o.contentType = .jsonLines then
    .ok (if o.payload.getLast? = some newline then o.payload else o.payload ++ [newline])
  else o.toData.map fun d => Json.writeBytes Json.Style.spaced d ++ [newline]

end Output
end ManifestGraph
