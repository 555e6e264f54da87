/-
  A machine as a JSON record: the working directory, the files below it, the outcomes of programs, which
  stand-ins play, and the replies of the service. Content that is not UTF-8 is given by its bytes in
  hexadecimal digits.
-/
import ManifestGraph.Machine
namespace ManifestGraph

/-- The bytes that pairs of hexadecimal digits give; none if a digit is missing or wrong. -/
def Bytes.ofHex? : Text → Option Bytes
  | [] => some []
  | [_] => none
  | a :: b :: t => do
    let high ← a.hexValue?
    let low ← b.hexValue?
    let bs ← ofHex? t
    some ((16 * high + low).toUInt8 :: bs)

namespace Machine

/-- The bytes of a member: a text, or a record with hexadecimal digits; none of anything else. -/
def bytesOf (d : Data) : Bytes :=
  match d with
  | .text t => Utf8.encode t
  | d => (((d.get? "hex").bind Data.text?).bind Bytes.ofHex?).getD []

/-- The bytes of a member of a record. -/
def bytesAt (d : Data) (key : Text) : Bytes := bytesOf ((d.get? key).getD .null)

/-- A text member of a record. -/
def textAt (d : Data) (key absent : Text) : Text := ((d.get? key).bind Data.text?).getD absent

/-- An integer member of a record. -/
def intAt (d : Data) (key : Text) (absent : Int) : Int :=
  match d.get? key with
  | some (.int n) => n
  | _ => absent

/-- A file put below a directory, or, if its path ends with a slash, a directory. -/
def addFile (here : List Text) (tree : FileTree) (path : Text) (content : Bytes) : FileTree :=
  let names := here ++ (Path.ofText path).parts
  if path.getLast? = some Path.slash then
    if (tree.at? names).isSome then tree else FileTree.put (.directory []) names tree
  else FileTree.put (.file content) names tree

/-- The outcome of a program. -/
def outcomeOf (d : Data) : ProgramOutcome :=
  match (d.get? "oserror").bind Data.text? with
  | some message => .notStarted message
  | none => .ended (intAt d "rc" 0) (bytesAt d "stdout") (bytesAt d "stderr")

/-- The headers of a reply. -/
def headersOf (d : Data) : List (Text × Text) :=
  (((d.get? "headers").bind Data.members?).getD []).filterMap fun (name, v) =>
    v.text?.map fun value => (name, value)

/-- A reply of the service. -/
def replyOf (d : Data) : ServiceReply :=
  match (d.get? "error").bind Data.text? with
  | some message => .unreachable message
  | none =>
    .response (intAt d "status" 200) (textAt d "reason" "OK") (headersOf d) (bytesAt d "body")

/-- The files below a working directory. -/
def filesOf (here : List Text) (files : Members) : FileSystem :=
  let start := FileTree.put (.directory []) here (.directory [])
  { tree := files.foldl (fun tree (path, d) => addFile here tree path (bytesOf d)) start, here }

/-- The machine that a record describes. -/
def ofData (d : Data) : Machine :=
  let here := (Path.ofText (textAt d "directory" "/")).parts
  { files := filesOf here (((d.get? "files").bind Data.members?).getD [])
    programs := (((d.get? "processes").bind Data.members?).getD []).map fun (name, steps) =>
      (name, (steps.items?.getD []).map outcomeOf)
    standIns := true
    service := (((d.get? "http").bind Data.items?).getD []).map replyOf }

end Machine
end ManifestGraph
