/-
  What becomes of the reports of the fallback. Each is made into an output that has its graph, its files
  and those of its errors that can be read (`forall₂_outputsOf`). That the reports cannot be made into
  outputs is a failure without an exit code (`unmarked_of_resolve`).
-/
import ManifestGraph.Proofs.Failure.ExitCode
import ManifestGraph.Proofs.Fallback.Resolver
import Mathlib.Data.List.Forall2

namespace ManifestGraph

namespace Record

variable {line : Nat} {bs output : Bytes} {d : Data} {key : Text} {e : Failure}

theorem unmarked_textMember (h : textMember d key line = .error e) : e.Unmarked := by
  unfold textMember at h
  split at h
  next => cases h
  next => cases h
  next => cases h
  next => cases h; exact Failure.unmarked_of rfl

theorem unmarked_ofLine (h : ofLine line bs = .error e) : e.Unmarked := by
  unfold ofLine at h
  split at h
  next fault _ =>
    split at h
    next => cases h; exact Failure.unmarked_reason fault
    next => cases h; exact (Failure.unmarked_reason fault).caused rfl
  next =>
    rcases Except.bind_eq_error.mp h with h | ⟨_, _, h⟩
    · exact unmarked_textMember h
    rcases Except.bind_eq_error.mp h with h | ⟨_, _, h⟩
    · exact unmarked_textMember h
    · cases h
  next => cases h; exact Failure.unmarked_of rfl

theorem unmarked_ofNumbered {bodies : List Bytes} (h : ofNumbered line bodies = .error e) :
    e.Unmarked := by
  induction bodies generalizing line with
  | nil => cases h
  | cons body bodies ih =>
    rw [ofNumbered] at h
    split at h
    next => exact ih h
    next =>
      rcases Except.bind_eq_error.mp h with h | ⟨_, _, h⟩
      · exact unmarked_ofLine h
      rcases Except.bind_eq_error.mp h with h | ⟨_, _, h⟩
      · exact ih h
      · cases h

/-- The errors of a report that can be read; none if it has no error document. -/
def errors (r : Record) : List CatalogError :=
  match r.error with
  | none => []
  | some document => ((CatalogError.ofDocument document).toOption).getD []

end Record

namespace Fallback

open Record (ofLines)

variable {r : Record} {records : List Record} {o : Output} {outputs : List Output} {m m' m₁ : Machine}
  {es : List Failure} {e : Failure}

theorem unmarked_records {form : GraphForm} {output : Bytes} (h : form.records output = .error e) :
    e.Unmarked := by
  have hlines : GraphForm.lines.records output = .error e → e.Unmarked := by
    intro h
    rw [GraphForm.records] at h
    split at h
    next => cases h
    next e' he' =>
      have hread := Record.unmarked_ofNumbered he'
      cases h
      split
      next => exact hread.caused rfl
      next => exact hread
  cases form with
  | blocks => cases h
  | lines => exact hlines h
  | linesWithErrors => exact hlines h

/-! ## One report -/

theorem unmarked_decodeGraph {payload : Bytes} {targetFile : Text}
    (h : decodeGraph payload targetFile = .error e) : e.Unmarked := by
  unfold decodeGraph at h
  dsimp only at h
  split at h
  next e' he' =>
    unfold DependencyGraph.decode at he'
    split at he'
    next => cases he'
    next => cases he'; cases h; exact ((Failure.unmarked_of rfl).caused rfl).caused rfl
  next g _ =>
    split at h
    next => cases h
    next e' he' => cases h; exact (Failure.unmarked_check he').caused rfl

theorem unmarked_make {payload : Bytes} {targetFile : Text} {pluginFile : Option Text}
    {target : Option Bytes} (h : Output.make payload targetFile pluginFile target = .error e) :
    e.Unmarked := by
  unfold Output.make at h
  split at h
  next => cases h
  next =>
    split at h
    next => cases h
    next => cases h; exact Failure.unmarked_of rfl

theorem raises_errorsOf (r : Record) : (errorsOf r).Raises Failure.Unmarked := by
  unfold errorsOf
  split
  next => exact Run.raises_pure _
  next =>
    split
    next => exact Run.raises_pure _
    next => exact Run.raises_throw (Failure.unmarked_of rfl)
    next => exact (Run.raises_note _).bind fun _ => Run.raises_pure _

theorem raises_outputOf (r : Record) : (outputOf r).Raises Failure.Unmarked := by
  have hgraph : ∀ e, checkGraph r = .error e → e.Unmarked := by
    intro e h
    unfold checkGraph at h
    split at h
    next => cases h
    next payload _ =>
      cases hdecode : decodeGraph payload r.targetFile with
      | ok g => rw [hdecode] at h; cases h
      | error e' => rw [hdecode] at h; cases h; exact unmarked_decodeGraph hdecode
  rw [outputOf_eq]
  refine (Run.raises_ofExcept hgraph).bind fun _ => ?_
  refine (Run.raises_ofExcept fun e h => unmarked_make h).bind fun _ => ?_
  exact (raises_errorsOf r).bind fun _ => Run.raises_pure _

theorem raises_outputsOf (records : List Record) : (outputsOf records).Raises Failure.Unmarked := by
  induction records with
  | nil => exact Run.raises_pure _
  | cons r records ih => exact (raises_outputOf r).bind fun _ => ih.bind fun _ => Run.raises_pure _

/-! ## What reports are made into -/

/-- The output has the graph of the report, which is valid if there is one, its files, and those of its
errors that can be read. -/
structure MadeInto (r : Record) (o : Output) : Prop where
  valid : checkGraph r = .ok ()
  payload : o.payload = r.graph.getD []
  targetFile : o.targetFile = r.targetFile
  pluginFile : o.pluginFile = r.pluginFile
  contentType : o.contentType = .json
  errors : o.errors = r.errors.map fun e => .of (.catalog e)

theorem errors_of_errorsOf (h : errorsOf r m = (.ok es, m')) :
    es = r.errors.map fun e => .of (.catalog e) := by
  unfold errorsOf at h
  unfold Record.errors
  cases herror : r.error with
  | none => rw [herror] at h; cases h; rfl
  | some document =>
    rw [herror] at h
    dsimp only at h ⊢
    cases hread : CatalogError.ofDocument document with
    | ok errors => rw [hread] at h; cases h; rfl
    | error fault =>
      rw [hread] at h
      cases fault with
      | infiniteStatus => cases h
      | notErrors misfits => cases h; rfl

theorem parts_of_make {payload : Bytes} {targetFile : Text} {pluginFile : Option Text}
    {target : Option Bytes} (h : Output.make payload targetFile pluginFile target = .ok o) :
    o.payload = payload ∧ o.targetFile = targetFile ∧ o.pluginFile = pluginFile ∧
      o.contentType = .json := by
  unfold Output.make at h
  split at h
  next => cases h; exact ⟨rfl, rfl, rfl, rfl⟩
  next =>
    split at h
    next => cases h; exact ⟨rfl, rfl, rfl, rfl⟩
    next => cases h

theorem madeInto_of_outputOf (h : outputOf r m = (.ok o, m')) : MadeInto r o := by
  obtain ⟨hvalid, output, es, hmake, herrors, rfl⟩ := outputOf_eq_ok.mp h
  obtain ⟨hpayload, hfile, hplugin, htype⟩ := parts_of_make hmake
  exact ⟨hvalid, hpayload, hfile, hplugin, htype, errors_of_errorsOf herrors⟩

/-- Every report is made into one output, in order. -/
theorem forall₂_outputsOf (h : outputsOf records m = (.ok outputs, m')) :
    List.Forall₂ MadeInto records outputs := by
  induction records generalizing m outputs with
  | nil =>
    obtain ⟨rfl, _⟩ := Run.pure_eq_ok.mp h
    exact .nil
  | cons r records ih =>
    obtain ⟨o, m₁, os, ho, hos, rfl⟩ := outputsOf_cons.mp h
    exact .cons (madeInto_of_outputOf ho) (ih hos)

/-- The graph of a report that was made into an output is valid. -/
theorem MadeInto.graph (h : MadeInto r o) {payload : Bytes} (hgraph : r.graph = some payload) :
    ∃ g, DependencyGraph.decode payload = .ok g ∧ g.check = .ok () := by
  obtain ⟨d, hread, g, hfit, hcheck⟩ := (checkGraph_eq_ok hgraph).mp h.valid
  exact ⟨g, DependencyGraph.decode_eq_ok.mpr ⟨d, hread, hfit⟩, hcheck⟩

/-- An output has a payload exactly if its report has a graph. -/
theorem MadeInto.payload_ne_nil (h : MadeInto r o) : o.payload ≠ [] ↔ r.graph ≠ none := by
  rw [h.payload]
  cases hgraph : r.graph with
  | none => exact ⟨fun hne => absurd rfl hne, fun hne => absurd rfl hne⟩
  | some payload =>
    obtain ⟨g, hdecode, _⟩ := h.graph hgraph
    refine ⟨fun _ hnone => (nomatch hnone), fun _ hnil => ?_⟩
    obtain ⟨d, hread, _⟩ := DependencyGraph.decode_eq_ok.mp hdecode
    rw [Option.getD_some] at hnil
    rw [hnil, Output.readStrict_nil] at hread
    cases hread

theorem MadeInto.errors_isEmpty (h : MadeInto r o) : o.errors.isEmpty = r.errors.isEmpty := by
  rw [h.errors, List.isEmpty_map]

namespace Resolver

variable {resolver : Resolver} {directory : Text} {options : ResolutionOptions}

/-- The arguments that the resolver is called with. -/
def argumentsFor (resolver : Resolver) (directory : Text) (options : ResolutionOptions) : List Text :=
  arguments (GraphForm.ofOptions options).argument directory options resolver.flags

/-- The reports in what the resolver wrote are made into the outputs. -/
theorem exists_records_of_resolve (h : resolver.resolve directory options m = (.ok outputs, m')) :
    ∃ written m₁ records, resolver.run (resolver.argumentsFor directory options) m = (.ok written, m₁) ∧
      (GraphForm.ofOptions options).records written = .ok records ∧ records ≠ [] ∧
      List.Forall₂ MadeInto records outputs := by
  obtain ⟨written, m₁, hran, h⟩ := Run.bind_eq_ok.mp h
  obtain ⟨records, m₂, hread, h⟩ := Run.bind_eq_ok.mp h
  obtain ⟨hrecords, rfl⟩ := Run.ofExcept_eq_ok.mp hread
  cases records with
  | nil => cases h
  | cons r records =>
    obtain ⟨outputs', m₃, houtputs, h⟩ := Run.bind_eq_ok.mp h
    cases h
    exact ⟨written, m₁, r :: records, hran, hrecords, List.cons_ne_nil r records,
      forall₂_outputsOf houtputs⟩

/-- If the resolver's process ended well, a failure has no exit code. -/
theorem unmarked_of_resolve {written : Bytes}
    (hran : resolver.run (resolver.argumentsFor directory options) m = (.ok written, m₁))
    (h : resolver.resolve directory options m = (.error e, m')) : e.Unmarked := by
  rcases Run.bind_eq_error.mp h with h | ⟨written', m₂, _, h⟩
  · have hran' := hran.symm.trans h
    cases hran'
  refine Run.Raises.bind (Run.raises_ofExcept fun e he => unmarked_records he) (fun records => ?_)
    m₂ e m' h
  cases records with
  | nil => exact Run.raises_throw (Failure.unmarked_of rfl)
  | cons r records =>
    refine (raises_outputsOf (r :: records)).bind fun outputs => ?_
    exact (Run.raises_note _).bind fun _ => Run.raises_pure _

end Resolver
end Fallback
end ManifestGraph
