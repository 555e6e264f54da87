/-
  How the reading of an error document ends. The errors are those that the document lists, one for each
  item and in order (`ofDocument_eq_ok`), or the bytes are refused as no error document. The one other
  ending is that of a list with an infinite status in it (`ofDocument_eq_infiniteStatus`), which is told
  as an overflow, not as a refusal (`ofDocument_ends`).
-/
import ManifestGraph.Failure.Document
import ManifestGraph.Proofs.Data.Fit

namespace ManifestGraph

/-- The failure is a fault from outside, of some kind. -/
def Failure.IsForeignOf (kind : ForeignKind) (e : Failure) : Prop :=
  ∃ message, e.fault.reason = .foreign kind message

theorem Failure.IsForeignOf.kind_eq {k k' : ForeignKind} {e : Failure} (h : e.IsForeignOf k)
    (h' : e.IsForeignOf k') : k = k' := by
  obtain ⟨message, hmessage⟩ := h
  obtain ⟨message', hmessage'⟩ := h'
  rw [hmessage] at hmessage'
  cases hmessage'
  rfl

namespace CatalogError

variable {bs : Bytes} {d : Data} {items : List Data} {errors : List CatalogError}

/-- The bytes are a document whose `errors` are these items. -/
def Lists (bs : Bytes) (items : List Data) : Prop :=
  ∃ d, Json.readStrict bs = some d ∧ d.get? "errors" = some (.list items)

/-- The item has an infinite status. -/
def Infinite (item : Data) : Prop := ∃ negative, item.get? "status" = some (.float (.infinite negative))

/-- The bytes are a document that lists an item with an infinite status. -/
def ListsInfinite (bs : Bytes) : Prop := ∃ items, Lists bs items ∧ ∃ item ∈ items, Infinite item

/-- The errors are described by the items of a document, one by each and in order. -/
def Describes (bs : Bytes) (errors : List CatalogError) : Prop :=
  ∃ items, Lists bs items ∧ List.Forall₂ (fun item e => CatalogError.fit item = .ok e) items errors

theorem infinite_iff {item : Data} :
    ((item.get? "status").map isInfiniteStatus).getD false = true ↔ Infinite item := by
  unfold Infinite
  cases hstatus : item.get? "status" with
  | none => simp
  | some v =>
    cases v with
    | float x => cases x <;> simp [isInfiniteStatus]
    | _ => simp [isInfiniteStatus]

theorem hasInfiniteStatus_iff :
    hasInfiniteStatus d = true ↔ ∃ items, d.get? "errors" = some (.list items) ∧ ∃ item ∈ items, Infinite item := by
  unfold hasInfiniteStatus
  simp only [List.any_eq_true, infinite_iff]
  cases herrors : d.get? "errors" with
  | none => simp
  | some v => cases v <;> simp [Data.items?]

theorem listsInfinite_iff (hread : Json.readStrict bs = some d) :
    ListsInfinite bs ↔ hasInfiniteStatus d = true := by
  rw [hasInfiniteStatus_iff]
  simp only [ListsInfinite, Lists, hread, Option.some.injEq, exists_eq_left']

/-- A document fits if its list is not empty and every item of it fits. -/
theorem fitDocument_eq_ok : fitDocument d = .ok errors ↔ errors ≠ [] ∧
    ∃ items, d.get? "errors" = some (.list items) ∧
      List.Forall₂ (fun item e => CatalogError.fit item = .ok e) items errors := by
  cases d with
  | record members =>
    have hget : (Data.record members).get? "errors" = List.lookup (Text.ofString "errors") (lastOfEach members) :=
      lookup_lastOfEach.symm
    show (Members.required (lastOfEach members) ["errors"] _) = _ ↔ _
    rw [Members.required, Members.find?_singleton, hget]
    cases List.lookup (Text.ofString "errors") (lastOfEach members) with
    | none => simp
    | some v =>
      cases v with
      | list items =>
        simp only [Option.map_some, Fit.under_eq_ok, Option.some.injEq, Data.list.injEq, exists_eq_left',
          Data.fitList]
        rw [← Fit.items_eq_ok (n := 0)]
        cases hitems : Fit.items CatalogError.fit 0 items with
        | ok fitted =>
          cases fitted with
          | nil => simp [Fit.fail, eq_comm]
          | cons e fitted =>
            refine ⟨fun h => ?_, fun h => h.2⟩
            cases h
            exact ⟨List.cons_ne_nil e fitted, rfl⟩
        | bad misfits => simp
      | _ => simp [Data.fitList, Fit.fail, Fit.under]
  | _ => simp [fitDocument, Data.fitModel, Fit.fail, Data.get?, Data.members?]

theorem ofDocument_of_read (hread : Json.readStrict bs = some d) : ofDocument bs =
    if hasInfiniteStatus d then .error .infiniteStatus
    else match fitDocument d with
      | .ok errors => .ok errors
      | .bad misfits => .error (.notErrors misfits) := by
  unfold ofDocument
  split
  next hnone => cases hnone.symm.trans hread
  next d' hsome => cases Option.some.inj (hsome.symm.trans hread); rfl

/-- What a document gives is what its items describe, at least one error, and none has an infinite status. -/
theorem ofDocument_eq_ok :
    ofDocument bs = .ok errors ↔ ¬ ListsInfinite bs ∧ errors ≠ [] ∧ Describes bs errors := by
  cases hread : Json.readStrict bs with
  | none => simp [ofDocument, Describes, Lists, hread]
  | some d =>
    have hdescribes : Describes bs errors ↔ ∃ items, d.get? "errors" = some (.list items) ∧
        List.Forall₂ (fun item e => CatalogError.fit item = .ok e) items errors := by
      simp only [Describes, Lists, hread, Option.some.injEq, exists_eq_left']
    rw [ofDocument_of_read hread, listsInfinite_iff hread, hdescribes, ← fitDocument_eq_ok]
    cases hasInfiniteStatus d with
    | true => simp
    | false => cases fitDocument d <;> simp

/-- The document lists an infinite status just if this is what the reading fails for, whatever else is wrong
with the list. -/
theorem ofDocument_eq_infiniteStatus : ofDocument bs = .error .infiniteStatus ↔ ListsInfinite bs := by
  cases hread : Json.readStrict bs with
  | none => simp [ofDocument, ListsInfinite, Lists, hread]
  | some d =>
    rw [ofDocument_of_read hread, listsInfinite_iff hread]
    cases hasInfiniteStatus d with
    | true => simp
    | false => cases fitDocument d <;> simp

/-- The bytes are refused as no error document. -/
def Refused (bs : Bytes) : Prop :=
  ∃ fault, ofDocument bs = .error fault ∧ fault.failure.IsForeignOf .value

theorem isForeignOf_notErrors (misfits : List Misfit) :
    (ErrorDocumentFault.notErrors misfits).failure.IsForeignOf .value := ⟨_, rfl⟩

theorem isForeignOf_infiniteStatus : ErrorDocumentFault.infiniteStatus.failure.IsForeignOf .overflow := ⟨_, rfl⟩

/-- The reading gives errors, or it refuses the bytes, or it fails for an infinite status. -/
theorem ofDocument_ends (bs : Bytes) :
    (¬ ListsInfinite bs ∧ ∃ errors, ofDocument bs = .ok errors ∧ errors ≠ [] ∧ Describes bs errors) ∨
      (¬ ListsInfinite bs ∧ Refused bs) ∨
      (ListsInfinite bs ∧ ofDocument bs = .error .infiniteStatus) := by
  cases hread : ofDocument bs with
  | ok errors =>
    obtain ⟨hfinite, hne, hdescribes⟩ := ofDocument_eq_ok.mp hread
    exact Or.inl ⟨hfinite, errors, rfl, hne, hdescribes⟩
  | error fault =>
    cases fault with
    | notErrors misfits =>
      refine Or.inr (Or.inl ⟨fun h => ?_, _, hread, isForeignOf_notErrors misfits⟩)
      rw [ofDocument_eq_infiniteStatus.mpr h] at hread
      cases hread
    | infiniteStatus => exact Or.inr (Or.inr ⟨ofDocument_eq_infiniteStatus.mp hread, rfl⟩)

/-- A document with an infinite status is not refused. -/
theorem ListsInfinite.not_refused (h : ListsInfinite bs) : ¬ Refused bs := by
  rintro ⟨fault, hread, hvalue⟩
  rw [ofDocument_eq_infiniteStatus.mpr h] at hread
  cases hread
  cases hvalue.kind_eq isForeignOf_infiniteStatus

end CatalogError
end ManifestGraph
