/-
  Values from JSON text. The reader keeps the containers that are still open and takes one token at a
  time from the lexer. Unless the dialect keeps repeated keys, the value that was read is settled.
-/
import ManifestGraph.Bytes.Encoding
import ManifestGraph.Json.Token
namespace ManifestGraph.Json

/-- A container that is still open around the place where a value is due. -/
inductive Frame where
  | items (before : List Data)
  | member (before : List (Text × Data)) (name : Text)

/-- Where a reader stands between two tokens; open containers come innermost first, and what is in them
is kept in reverse. -/
inductive Reader where
  | value (opened : List Frame)
  | firstItem (opened : List Frame)
  | afterItem (items : List Data) (opened : List Frame)
  | firstKey (opened : List Frame)
  | key (members : List (Text × Data)) (opened : List Frame)
  | colon (members : List (Text × Data)) (name : Text) (opened : List Frame)
  | afterMember (members : List (Text × Data)) (opened : List Frame)
  | done (value : Data)

namespace Reader

/-- A finished value handed to the container around it. -/
def deliver (v : Data) : List Frame → Reader
  | [] => .done v
  | .items before :: opened => .afterItem (v :: before) opened
  | .member before name :: opened => .afterMember ((name, v) :: before) opened

/-- One more container may be opened inside of those that are open. -/
def mayNest (d : Dialect) (opened : List Frame) : Bool := opened.length < d.maxDepth

/-- A token where a value is due. -/
def beginValue (d : Dialect) (opened : List Frame) : Token → Except Fault Reader
  | .atom v => .ok (deliver v opened)
  | .listOpen =>
    if d.countsEmpty && !mayNest d opened then .error .listTooDeep else .ok (.firstItem opened)
  | .recordOpen =>
    if d.countsEmpty && !mayNest d opened then .error .recordTooDeep else .ok (.firstKey opened)
  | _ => .error .malformed

/-- One step of the reader. -/
def step (d : Dialect) : Reader → Token → Except Fault Reader
  | .value opened, token => beginValue d opened token
  | .firstItem opened, .listClose => .ok (deliver (.list []) opened)
  | .firstItem opened, token =>
    if mayNest d opened then beginValue d (.items [] :: opened) token else .error .listTooDeep
  | .afterItem items opened, .comma => .ok (.value (.items items :: opened))
  | .afterItem items opened, .listClose => .ok (deliver (.list items.reverse) opened)
  | .firstKey opened, .recordClose => .ok (deliver (.record []) opened)
  | .firstKey opened, .atom (.text name) =>
    if mayNest d opened then .ok (.colon [] name opened) else .error .recordTooDeep
  | .key members opened, .atom (.text name) => .ok (.colon members name opened)
  | .colon members name opened, .colon => .ok (.value (.member members name :: opened))
  | .afterMember members opened, .comma => .ok (.key members opened)
  | .afterMember members opened, .recordClose => .ok (deliver (.record members.reverse) opened)
  | _, _ => .error .malformed

/-- The reader after some tokens. -/
def run (d : Dialect) : Reader → List Token → Except Fault Reader
  | r, [] => .ok r
  | r, token :: tokens => do run d (← r.step d token) tokens

/-- The value of a whole document. -/
def result? : Reader → Option Data
  | .done v => some v
  | _ => none

end Reader

/-- Reads text from a state of the lexer and one of the reader; repeated keys are kept. -/
def readFrom (d : Dialect) : Lexer → Reader → Text → Except Fault Data
  | l, r, [] => do
    let tokens ← l.finish d
    match (← r.run d tokens).result? with
    | some v => .ok v
    | none => .error .malformed
  | l, r, c :: t => do
    let (next, tokens) ← l.step d c
    let reached ← r.run d tokens
    readFrom d next reached t

/-- The value that a text spells. -/
def read (d : Dialect) (t : Text) : Except Fault Data := do
  let v ← readFrom d .between (.value []) t
  .ok (if d.repeats then v else v.settled)

/-- The dialect of documents with a fixed shape: no lone halves, no long floats, two hundred levels.
Repeated keys are kept, because each of their values has to fit. -/
def strict : Dialect :=
  { halves := false, longFloats := false, repeats := true, maxDepth := 200, countsEmpty := false }

/-- The dialect of free records: lone halves, long floats, almost a thousand levels. -/
def lenient : Dialect :=
  { halves := true, longFloats := true, repeats := false, maxDepth := 989, countsEmpty := true }

/-- Reads a document with a fixed shape, which is UTF-8 without a byte order mark. -/
def readStrict (bs : Bytes) : Option Data :=
  match Utf8.decode bs with
  | .ok t => (read strict t).toOption
  | .error _ => none

/-- Reads a free record, whose encoding shows in its first bytes. -/
def readLenient (bs : Bytes) : Except Fault Data :=
  match Encoding.decode bs with
  | some t => read lenient t
  | none => .error .encoding

end ManifestGraph.Json
