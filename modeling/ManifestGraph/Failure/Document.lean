/-
  Error documents: a record whose `errors` is a list of structured errors, at least one. A status may
  be any value; what is no number counts as zero, and only an infinite one cannot be taken over.
-/
import ManifestGraph.Failure
import ManifestGraph.Json.Model
import ManifestGraph.Text.Blank
namespace ManifestGraph

/-- Why a document does not give structured errors. -/
inductive ErrorDocumentFault where
  | notErrors (misfits : List Misfit)
  | infiniteStatus

/-- The failure that a fault stands for. -/
def ErrorDocumentFault.failure : ErrorDocumentFault → Failure
  | .notErrors misfits =>
    .caused (.foreign .value ("not a JSON:API error document: " ++ Misfit.summary misfits))
      (.of (.misfit misfits))
  | .infiniteStatus => .of (.foreign .overflow "cannot convert float infinity to integer")

namespace CatalogError

/-- A status as a number: fractions are dropped, texts are read, all else is zero. -/
def statusOf : Data → Int
  | .int n => n
  | .bool b => if b then 1 else 0
  | .float (.finite negative m e) => Binary64.truncate negative m e
  | .text t => t.toInt?.getD 0
  | _ => 0

/-- A status that cannot be taken over. -/
def isInfiniteStatus : Data → Bool
  | .float (.infinite _) => true
  | _ => false

/-- A structured error from a record. -/
def fit : Data → Fit CatalogError :=
  Data.fitModel fun ms =>
    (fun id status code title detail (info : Option Members) =>
        { detail, title, code, status, id, info := info.getD [] })
      <$> ms.withDefault ["id"] [] Data.fitText
      <*> ms.withDefault ["status"] 0 (fun d => .ok (statusOf d))
      <*> ms.withDefault ["code"] [] Data.fitText
      <*> ms.withDefault ["title"] [] Data.fitText
      <*> ms.withDefault ["detail"] [] Data.fitText
      <*> ms.withDefault ["meta"] none (Data.fitOption (Data.fitMapping Data.fitAny))

/-- The structured errors of a document. -/
def fitDocument : Data → Fit (List CatalogError) :=
  Data.fitModel fun ms => ms.required ["errors"] fun d =>
    match Data.fitList fit d with
    | .ok [] => .fail .emptyList
    | fitted => fitted

/-- An error of the document has an infinite status. -/
def hasInfiniteStatus (d : Data) : Bool :=
  (((d.get? "errors").bind Data.items?).getD []).any fun item =>
    ((item.get? "status").map isInfiniteStatus).getD false

/-- Reads an error document. -/
def ofDocument (bs : Bytes) : Except ErrorDocumentFault (List CatalogError) :=
  match Json.readStrict bs with
  | none => .error (.notErrors [⟨[], .unreadableJson⟩])
  | some d =>
    if hasInfiniteStatus d then .error .infiniteStatus
    else match fitDocument d with
      | .ok errors => .ok errors
      | .bad misfits => .error (.notErrors misfits)

/-- The first error of an error document; none if the bytes are no such document. -/
def firstOfDocument (bs : Bytes) : Except ErrorDocumentFault (Option CatalogError) :=
  match ofDocument bs with
  | .ok errors => .ok errors.head?
  | .error (.notErrors _) => .ok none
  | .error .infiniteStatus => .error .infiniteStatus

end CatalogError
end ManifestGraph
