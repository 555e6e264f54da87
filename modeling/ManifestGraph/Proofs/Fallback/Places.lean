/-
  Where the output of the resolver's process is searched for a structured error. There are several places
  in it, and the first that holds an error document decides (`errorInOutput_eq`). A place cannot be told if
  its JSON is nested too deep, or if it is an error document with an infinite status; the search fails just
  if it gets to such a place (`exists_error_errorInOutput`). Error documents themselves are read in one
  of two ways, but for an infinite status; together this is `decoding_ends`.
-/
import ManifestGraph.Fallback.Diagnosis
import ManifestGraph.Proofs.Failure.ExitCode
import ManifestGraph.Proofs.Failure.Reading
import ManifestGraph.Proofs.Machine
import ManifestGraph.Proofs.Record.Linewise

namespace ManifestGraph

/-- A failure can be started from a structured error just if there is one in its chain. -/
theorem Failure.sinceCatalog?_eq_none {e : Failure} : e.sinceCatalog? = none ↔ e.catalog? = none := by
  unfold sinceCatalog? catalog?
  cases hplace : e.chain.findIdx? fun f => f.reason.catalog?.isSome with
  | none =>
    rw [List.findIdx?_eq_none_iff] at hplace
    simpa using hplace
  | some place =>
    obtain ⟨hlt, hcatalog, _⟩ := List.findIdx?_eq_some_iff_getElem.mp hplace
    have hdrop : e.chain.drop place = e.chain[place] :: e.chain.drop (place + 1) :=
      List.drop_eq_getElem_cons hlt
    have hsince : e.since place ≠ none := by
      unfold since
      rw [hdrop]
      exact Option.some_ne_none _
    have hfound : e.chain.findSome? (fun f => f.reason.catalog?) ≠ none := by
      intro hnone
      rw [List.findSome?_eq_none_iff.mp hnone _ (List.getElem_mem hlt)] at hcatalog
      cases hcatalog
    simp [hsince, hfound]

namespace Fallback

variable {raw e : Failure} {bs output : Bytes} {places : List (Except Failure Bytes)}
  {found : Option CatalogError}

open CatalogError (ListsInfinite)

/-! ## One document -/

theorem firstInDocument_eq (bs : Bytes) : firstInDocument bs = match CatalogError.ofDocument bs with
    | .ok errors => .ok errors.head?
    | .error (.notErrors _) => .ok none
    | .error .infiniteStatus => .error ErrorDocumentFault.infiniteStatus.failure := by
  unfold firstInDocument CatalogError.firstOfDocument
  cases CatalogError.ofDocument bs with
  | ok errors => rfl
  | error fault => cases fault <;> rfl

/-- A document fails to be told for an infinite status only. -/
theorem firstInDocument_eq_error :
    firstInDocument bs = .error e ↔ ListsInfinite bs ∧ e = ErrorDocumentFault.infiniteStatus.failure := by
  rw [firstInDocument_eq, ← CatalogError.ofDocument_eq_infiniteStatus]
  cases CatalogError.ofDocument bs with
  | ok errors => simp
  | error fault => cases fault <;> simp [eq_comm]

theorem exists_ok_firstInDocument : (∃ found, firstInDocument bs = .ok found) ↔ ¬ ListsInfinite bs := by
  cases hread : firstInDocument bs with
  | ok found =>
    refine ⟨fun _ hinfinite => ?_, fun _ => ⟨found, rfl⟩⟩
    rw [firstInDocument_eq_error.mpr ⟨hinfinite, rfl⟩] at hread
    cases hread
  | error e =>
    refine ⟨fun ⟨_, h⟩ => (nomatch h), fun hfinite => ?_⟩
    exact absurd (firstInDocument_eq_error.mp hread).1 hfinite

/-! ## Places -/

/-- The document that the output wraps, if any. -/
def wrappedPlaces (output : Bytes) : List (Except Failure Bytes) :=
  match wrappedDocument? output with
  | .ok document? => (document?.map Except.ok).toList
  | .error e => [.error e]

/-- The errors of the records on the lines of the output, if they can be read. -/
def linePlaces (output : Bytes) : List (Except Failure Bytes) :=
  match Record.ofLines output with
  | .ok records => (records.filterMap Record.error).map .ok
  | .error e => if e.fault.reason.isOutputFault then [] else [.error e]

/-- The places where an error document may be, in the order of the search: the output as a whole, what it
wraps, and its lines. A failure stands for a place that is nested too deep to be told. -/
def placesIn (output : Bytes) : List (Except Failure Bytes) :=
  .ok output :: (wrappedPlaces output ++ linePlaces output)

/-- The first structured error of the first place that is an error document. -/
def firstIn : List (Except Failure Bytes) → Except Failure (Option CatalogError)
  | [] => .ok none
  | place :: places => do
    match ← firstInDocument (← place) with
    | some error => .ok (some error)
    | none => firstIn places

theorem firstIn_cons_ok (bs : Bytes) (places : List (Except Failure Bytes)) :
    firstIn (.ok bs :: places) = firstInDocument bs >>= fun found =>
      match found with
      | some error => .ok (some error)
      | none => firstIn places := rfl

theorem firstInRecords_eq (records : List Record) :
    firstInRecords records = firstIn ((records.filterMap Record.error).map .ok) := by
  induction records with
  | nil => rfl
  | cons r records ih =>
    rw [firstInRecords]
    cases herror : r.error with
    | none => rw [List.filterMap_cons_none herror]; exact ih
    | some bs =>
      rw [List.filterMap_cons_some herror, List.map_cons, firstIn_cons_ok]
      refine bind_congr fun found => ?_
      cases found with
      | some error => rfl
      | none => exact ih

theorem errorInLines_eq (output : Bytes) : errorInLines output = firstIn (linePlaces output) := by
  unfold errorInLines linePlaces
  cases Record.ofLines output with
  | ok records => exact firstInRecords_eq records
  | error e =>
    dsimp only
    split <;> rfl

/-- The search goes from place to place. -/
theorem errorInOutput_eq (hne : output ≠ []) : errorInOutput output = firstIn (placesIn output) := by
  have hempty : output.isEmpty = false := List.isEmpty_eq_false_iff.mpr hne
  unfold errorInOutput placesIn wrappedPlaces
  rw [hempty, firstIn_cons_ok]
  cases firstInDocument output with
  | error e => rfl
  | ok found =>
    cases found with
    | some error => rfl
    | none =>
      show (wrappedDocument? output >>= _) = firstIn _
      cases wrappedDocument? output with
      | error e => rfl
      | ok document? =>
        cases document? with
        | none => exact errorInLines_eq output
        | some document =>
          show (firstInDocument document >>= _) = firstIn (.ok document :: linePlaces output)
          rw [firstIn_cons_ok, ← errorInLines_eq]
          cases firstInDocument document with
          | error e => rfl
          | ok found => cases found <;> rfl

/-! ## Places that cannot be told -/

/-- The place holds no error document, and the search goes on. -/
def Passed (place : Except Failure Bytes) : Prop := ∃ bs, place = .ok bs ∧ firstInDocument bs = .ok none

/-- The place cannot be told: it is nested too deep, or an error document with an infinite status. -/
inductive Obscure : Except Failure Bytes → Prop where
  | tooDeep (e : Failure) : Obscure (.error e)
  | infinite {bs : Bytes} (h : ListsInfinite bs) : Obscure (.ok bs)

/-- The search gets to a place that cannot be told. -/
def Trips (places : List (Except Failure Bytes)) : Prop :=
  ∃ before place after, places = before ++ place :: after ∧ (∀ p ∈ before, Passed p) ∧ Obscure place

theorem trips_cons {place : Except Failure Bytes} :
    Trips (place :: places) ↔ Obscure place ∨ Passed place ∧ Trips places := by
  constructor
  · rintro ⟨before, p, after, h, hbefore, hp⟩
    cases before with
    | nil => obtain ⟨rfl, _⟩ := List.cons.inj h; exact Or.inl hp
    | cons q before =>
      obtain ⟨rfl, hrest⟩ := List.cons.inj h
      rw [List.forall_mem_cons] at hbefore
      exact Or.inr ⟨hbefore.1, before, p, after, hrest, hbefore.2, hp⟩
  · rintro (hplace | ⟨hpassed, before, p, after, rfl, hbefore, hp⟩)
    · exact ⟨[], place, places, rfl, List.forall_mem_nil _, hplace⟩
    · exact ⟨place :: before, p, after, rfl, List.forall_mem_cons.mpr ⟨hpassed, hbefore⟩, hp⟩

/-- The search fails just if it gets to a place that cannot be told. -/
theorem exists_error_firstIn : (∃ e, firstIn places = .error e) ↔ Trips places := by
  induction places with
  | nil =>
    refine ⟨fun ⟨_, h⟩ => (nomatch h), ?_⟩
    rintro ⟨before, place, after, h, _⟩
    simp at h
  | cons place places ih =>
    rw [trips_cons, ← ih]
    cases place with
    | error e => exact ⟨fun _ => Or.inl (.tooDeep e), fun _ => ⟨e, rfl⟩⟩
    | ok bs =>
      have hobscure : Obscure (.ok bs) ↔ ListsInfinite bs :=
        ⟨fun h => by cases h with | infinite h => exact h, .infinite⟩
      have hpassed : Passed (.ok bs) ↔ firstInDocument bs = .ok none := by simp [Passed]
      rw [hobscure, hpassed, firstIn_cons_ok]
      cases hread : firstInDocument bs with
      | error e =>
        have hinfinite := (firstInDocument_eq_error.mp hread).1
        exact ⟨fun _ => Or.inl hinfinite, fun _ => ⟨e, rfl⟩⟩
      | ok found =>
        have hfinite := exists_ok_firstInDocument.mp ⟨found, hread⟩
        cases found with
        | some error => simp [hfinite, bind, Except.bind]
        | none => simp [hfinite, bind, Except.bind]

theorem exists_error_errorInOutput :
    (∃ e, errorInOutput output = .error e) ↔ output ≠ [] ∧ Trips (placesIn output) := by
  by_cases hne : output = []
  · subst hne
    simp [errorInOutput, pure, Except.pure]
  · rw [errorInOutput_eq hne, exists_error_firstIn]
    exact (and_iff_right hne).symm

/-- What the process failed with can be told if it is a structured error already, or the search in the output
does not get to a place that cannot be told. -/
theorem exists_ok_diagnose : (∃ e, diagnose raw output = .ok e) ↔
    raw.catalog? ≠ none ∨ output = [] ∨ ¬ Trips (placesIn output) := by
  have hsearch : (∃ found, errorInOutput output = .ok found) ↔ output = [] ∨ ¬ Trips (placesIn output) := by
    have herror : (∃ e, errorInOutput output = .error e) ↔ _ := exists_error_errorInOutput
    cases hread : errorInOutput output with
    | ok found => simp [hread] at herror; simpa [or_iff_not_imp_left] using herror
    | error e => simp [hread] at herror; simp [herror]
  rw [← hsearch, Ne, ← Failure.sinceCatalog?_eq_none]
  unfold diagnose
  cases raw.sinceCatalog? with
  | some e => simp
  | none =>
    cases errorInOutput output with
    | error e => simp [bind, Except.bind]
    | ok found => cases found <;> simp [bind, Except.bind]

/-! ## What the search fails with -/

/-- The failure is that of a number that is infinite, or of JSON that is nested too deep. -/
def Uncaught (e : Failure) : Prop := e.IsForeignOf .overflow ∨ e.IsForeignOf .recursion

theorem uncaught_depth {fault : Json.Fault} (h : fault.isDepth = true) :
    Uncaught (.of fault.reason) := by
  cases fault with
  | listTooDeep => exact Or.inr ⟨_, rfl⟩
  | recordTooDeep => exact Or.inr ⟨_, rfl⟩
  | _ => cases h

/-- A line that is nested too deep is told as such. -/
theorem exists_depth_of_ofLine {line : Nat} (hdeep : Record.TooDeep bs) (h : Record.ofLine line bs = .error e) :
    ∃ fault : Json.Fault, fault.isDepth = true ∧ e = .of fault.reason := by
  obtain ⟨fault, hread, hdepth⟩ := hdeep
  simp only [Record.ofLine, hread, hdepth, if_true, Except.error.injEq] at h
  exact ⟨fault, hdepth, h.symm⟩

/-- A place that cannot be told, and is no error document, is nested too deep. -/
theorem exists_depth_of_mem_placesIn (h : .error e ∈ placesIn output) :
    ∃ fault : Json.Fault, fault.isDepth = true ∧ e = .of fault.reason := by
  rcases List.mem_cons.mp h with h | h
  · cases h
  rcases List.mem_append.mp h with h | h
  · unfold wrappedPlaces wrappedDocument? at h
    cases hread : Json.readLenient output with
    | ok d =>
      rw [hread] at h
      split at h
      next => simp at h
      next e' he' =>
        split at he'
        next => split at he' <;> cases he'
        next => cases he'
        next hfault => cases hfault
    | error fault =>
      rw [hread] at h
      cases hdepth : fault.isDepth with
      | false => simp [hdepth] at h
      | true =>
        simp only [hdepth, if_true, List.mem_singleton, Except.error.injEq] at h
        exact ⟨fault, hdepth, h⟩
  · unfold linePlaces at h
    split at h
    next => simp at h
    next e' hread =>
      split at h
      next => cases h
      next hother =>
        obtain rfl := Except.error.inj (List.mem_singleton.mp h)
        obtain ⟨line, _, _, hline⟩ := Record.exists_of_ofNumbered_eq_error hread
        have hdeep : Record.TooDeep line := by
          by_contra hdeep
          exact hother (Record.isOutputFault_of_ofLine hline hdeep)
        exact exists_depth_of_ofLine hdeep hline

/-- The search fails with what a place fails with, or with an infinite status. -/
theorem mem_or_infinite_of_firstIn (h : firstIn places = .error e) :
    .error e ∈ places ∨ e = ErrorDocumentFault.infiniteStatus.failure := by
  induction places with
  | nil => cases h
  | cons place places ih =>
    cases place with
    | error e' => cases h; exact Or.inl List.mem_cons_self
    | ok bs =>
      rw [firstIn_cons_ok] at h
      rcases Except.bind_eq_error.mp h with h | ⟨found, _, h⟩
      · exact Or.inr (firstInDocument_eq_error.mp h).2
      · cases found with
        | some error => cases h
        | none => exact (ih h).imp_left (List.mem_cons_of_mem _)

/-- The failure of the process goes untold only for JSON that is nested too deep, or for an infinite status. -/
theorem depth_or_infinite_of_diagnose (h : diagnose raw output = .error e) :
    (∃ fault : Json.Fault, fault.isDepth = true ∧ e = .of fault.reason) ∨
      e = ErrorDocumentFault.infiniteStatus.failure := by
  unfold diagnose at h
  split at h
  next => cases h
  next =>
    rcases Except.bind_eq_error.mp h with h | ⟨found, _, h⟩
    · obtain ⟨hne, _⟩ := exists_error_errorInOutput.mp ⟨e, h⟩
      rw [errorInOutput_eq hne] at h
      exact (mem_or_infinite_of_firstIn h).imp_left exists_depth_of_mem_placesIn
    · cases found <;> cases h

theorem uncaught_diagnose (h : diagnose raw output = .error e) : Uncaught e := by
  rcases depth_or_infinite_of_diagnose h with ⟨fault, hdepth, rfl⟩ | rfl
  · exact uncaught_depth hdepth
  · exact Or.inl CatalogError.isForeignOf_infiniteStatus

/-- A fault in the output is told without an exit code. -/
theorem unmarked_diagnose (h : diagnose raw output = .error e) : e.Unmarked := by
  rcases depth_or_infinite_of_diagnose h with ⟨fault, _, rfl⟩ | rfl
  · exact Failure.unmarked_reason fault
  · exact Failure.unmarked_of rfl

/-! ## All endings -/

/-- The failure of the process cannot be told: it is no structured error, and the search in the output gets
to a place that cannot be told. -/
def Blocked (raw : Failure) (output : Bytes) : Prop :=
  raw.catalog? = none ∧ output ≠ [] ∧ Trips (placesIn output)

theorem diagnose_ends (raw : Failure) (output : Bytes) :
    (¬ Blocked raw output ∧ ∃ e, diagnose raw output = .ok e) ∨
      (Blocked raw output ∧ ∃ e, diagnose raw output = .error e ∧ Uncaught e) := by
  have hblocked : (∃ e, diagnose raw output = .ok e) ↔ ¬ Blocked raw output := by
    rw [exists_ok_diagnose, Blocked]
    tauto
  cases hread : diagnose raw output with
  | ok e => exact Or.inl ⟨hblocked.mp ⟨e, hread⟩, e, rfl⟩
  | error e =>
    refine Or.inr ⟨not_not.mp fun h => ?_, e, rfl, uncaught_diagnose hread⟩
    obtain ⟨e', he'⟩ := hblocked.mpr h
    rw [hread] at he'
    cases he'

theorem firstInDocument_ends (bs : Bytes) :
    (¬ ListsInfinite bs ∧ ∃ found, firstInDocument bs = .ok found) ∨
      (ListsInfinite bs ∧ ∃ e, firstInDocument bs = .error e ∧ Uncaught e) := by
  by_cases hinfinite : ListsInfinite bs
  · refine Or.inr ⟨hinfinite, _, firstInDocument_eq_error.mpr ⟨hinfinite, rfl⟩, ?_⟩
    exact Or.inl CatalogError.isForeignOf_infiniteStatus
  · exact Or.inl ⟨hinfinite, exists_ok_firstInDocument.mpr hinfinite⟩

/-- An error document gives its errors, one for each item that it lists and in order, and other bytes are
refused, unless an infinite status is listed: then the reading fails with an overflow. Just then there is
no first error or the lack of one to tell. The failure of the process can be told for all output, unless
the search in it gets to such a document, or to JSON that is nested too deep. -/
theorem decoding_ends (bs : Bytes) (raw : Failure) (output : Bytes) :
    ((¬ ListsInfinite bs ∧
          ∃ errors, CatalogError.ofDocument bs = .ok errors ∧ errors ≠ [] ∧ CatalogError.Describes bs errors) ∨
        (¬ ListsInfinite bs ∧ CatalogError.Refused bs) ∨
        (ListsInfinite bs ∧ CatalogError.ofDocument bs = .error .infiniteStatus)) ∧
      ((¬ ListsInfinite bs ∧ ∃ found, firstInDocument bs = .ok found) ∨
        (ListsInfinite bs ∧ ∃ e, firstInDocument bs = .error e ∧ Uncaught e)) ∧
      ((¬ Blocked raw output ∧ ∃ e, diagnose raw output = .ok e) ∨
        (Blocked raw output ∧ ∃ e, diagnose raw output = .error e ∧ Uncaught e)) :=
  ⟨CatalogError.ofDocument_ends bs, firstInDocument_ends bs, diagnose_ends raw output⟩

/-- A document with one error, whose status is beyond all numbers. -/
def hugeStatus : Bytes := Utf8.encode "\x7b\"errors\":[\x7b\"status\":1e400\x7d]\x7d"

/-- Such a document gives no errors and is not refused, and output that consists of it is not told. -/
theorem hugeStatus_not_told :
    ¬ ((∃ errors, CatalogError.ofDocument hugeStatus = .ok errors) ∨ CatalogError.Refused hugeStatus) ∧
      (¬ ∃ found, firstInDocument hugeStatus = .ok found) ∧
      ¬ ∃ e, diagnose (.ofCommand ["snyk"] 2 hugeStatus []) hugeStatus = .ok e := by
  have hstatus : (Json.readStrict hugeStatus).map CatalogError.hasInfiniteStatus = some true := by
    decide +kernel
  obtain ⟨d, hdocument, hd⟩ := Option.map_eq_some_iff.mp hstatus
  have hinfinite : ListsInfinite hugeStatus := (CatalogError.listsInfinite_iff hdocument).mpr hd
  refine ⟨?_, fun h => exists_ok_firstInDocument.mp h hinfinite, ?_⟩
  · rintro (⟨errors, herrors⟩ | hrefused)
    · exact (CatalogError.ofDocument_eq_ok.mp herrors).1 hinfinite
    · exact hinfinite.not_refused hrefused
  · rw [exists_ok_diagnose]
    rintro (hcatalog | hempty | htrips)
    · exact hcatalog rfl
    · exact absurd hempty (by decide)
    · exact htrips (trips_cons.mpr (Or.inl (.infinite hinfinite)))

end Fallback
end ManifestGraph
