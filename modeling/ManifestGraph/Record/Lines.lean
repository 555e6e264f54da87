/-
  Reports as lines, each a JSON record. Blank lines are passed over; a single line that is not a
  record, or names a file by something that is not a text, fails the whole.
-/
import ManifestGraph.Failure
import ManifestGraph.Json.Reader
import ManifestGraph.Json.Writer
import ManifestGraph.Record
namespace ManifestGraph

namespace Json.Fault

/-- The fault of a document that the free reader refuses. -/
def reason : Fault → Reason
  | .encoding => .undecodableDocument .json
  | .malformed => .malformedDocument .json
  | .longNumeral => .longNumeral .json
  | .listTooDeep => .foreign .recursion
      "maximum recursion depth exceeded while decoding a JSON array from a unicode string"
  | .recordTooDeep => .foreign .recursion
      "maximum recursion depth exceeded while decoding a JSON object from a unicode string"

/-- The document is nested too deep to tell whether it is JSON. -/
def isDepth : Fault → Bool
  | .listTooDeep | .recordTooDeep => true
  | .encoding | .malformed | .longNumeral => false

end Json.Fault

namespace Record

/-- A member's value as JSON again, unless it is absent or null. -/
def rawMember (d : Data) (key : Text) : Option Bytes :=
  match d.get? key with
  | none | some .null => none
  | some value => some (Json.writeBytes Json.Style.compactAscii value)

/-- A member that is a text, or absent or null. -/
def textMember (d : Data) (key : Text) (line : Nat) : Except Failure (Option Text) :=
  match d.get? key with
  | none | some .null => .ok none
  | some (.text t) => .ok (some t)
  | some _ => .error (.of (.output (.memberNotText line key)))

/-- The report on one line. -/
def ofLine (line : Nat) (bs : Bytes) : Except Failure Record :=
  match Json.readLenient bs with
  | .error fault =>
    if fault.isDepth then .error (.of fault.reason)
    else .error (.caused (.output (.lineUnreadable line fault.reason.message)) (.of fault.reason))
  | .ok (.record members) => do
    let d : Data := .record members
    let targetFile ← textMember d "normalisedTargetFile" line
    let pluginFile ← textMember d "targetFileFromPlugin" line
    .ok {
      graph := rawMember d "depGraph"
      targetFile := targetFile.getD []
      pluginFile
      target := rawMember d "target"
      error := rawMember d "error" }
  | .ok _ => .error (.of (.output (.lineNotRecord line)))

/-- The reports on some lines, the first of which has a number. -/
def ofNumbered : Nat → List Bytes → Except Failure (List Record)
  | _, [] => .ok []
  | line, bs :: rest =>
    if bs.allBlank then ofNumbered (line + 1) rest
    else do
      let record ← ofLine line bs
      let records ← ofNumbered (line + 1) rest
      .ok (record :: records)

/-- The reports on all lines, which are numbered from one. -/
def ofLines (output : Bytes) : Except Failure (List Record) := ofNumbered 1 output.lines

end Record
end ManifestGraph
