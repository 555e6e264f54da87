/-
  What a resolution leaves behind: what its sources, its converter and its fallback do, and its own questions
  and messages (`keeps_run`).
-/
import ManifestGraph.Proofs.Machine.Footprint
import ManifestGraph.Proofs.Resolution.Asking

namespace ManifestGraph.Resolution

open Run (keeps_pure keeps_throw keeps_note)

variable {kind : Event → Bool} {r : Resolution} {directory : Text}

/-- The collaborators of the resolution write no file, and note only events of a kind. -/
structure CollaboratorsKeep (kind : Event → Bool) (r : Resolution) : Prop where
  sources : ∀ s ∈ r.sources, ∀ directory o, (s.find directory o).Keeps kind
  convert : ∀ convert, r.convert = some convert → ∀ f, (convert f).Keeps kind
  fallback : ∀ directory o, (r.fallback directory o).Keeps kind

section Sources

variable {o : SourceOptions} {sources : List Source}

theorem keeps_ask (hacts : ∀ e, e.isAct = true → kind e = true) {s : Source}
    (hs : (s.find directory o).Keeps kind) : (ask s directory o).Keeps kind :=
  (keeps_note (hacts _ rfl)).bind fun _ => hs.attempt_bind (fun _ => keeps_pure _) fun _ => keeps_throw _

theorem keeps_firstFinding (hacts : ∀ e, e.isAct = true → kind e = true)
    (hsources : ∀ s ∈ sources, (s.find directory o).Keeps kind) :
    (firstFinding directory o sources).Keeps kind := by
  induction sources with
  | nil => exact keeps_pure _
  | cons s sources ih =>
    obtain ⟨hs, hrest⟩ := List.forall_mem_cons.mp hsources
    refine (keeps_ask hacts hs).bind fun found => ?_
    cases found with
    | nil => exact ih hrest
    | cons f found =>
      dsimp only
      cases f.error with
      | none => exact keeps_pure _
      | some e => exact keeps_throw _

theorem keeps_stopAtError (findings : List Finding) : (stopAtError findings).Keeps kind := by
  induction findings with
  | nil => exact keeps_pure _
  | cons f findings ih =>
    rw [stopAtError]
    cases f.error with
    | none => exact ih
    | some e => exact keeps_throw _

theorem keeps_allFindings (hacts : ∀ e, e.isAct = true → kind e = true) {failFast : Bool}
    (hsources : ∀ s ∈ sources, (s.find directory o).Keeps kind) :
    (allFindings directory o failFast sources).Keeps kind := by
  induction sources with
  | nil => exact keeps_pure _
  | cons s sources ih =>
    obtain ⟨hs, hrest⟩ := List.forall_mem_cons.mp hsources
    rw [allFindings_cons]
    refine (keeps_ask hacts hs).bind fun found => Run.Keeps.bind ?_ fun _ =>
      (ih hrest).bind fun _ => keeps_pure _
    cases failFast with
    | true => exact keeps_stopAtError found
    | false => exact keeps_pure _

end Sources

section Stages

variable {o : ResolutionOptions} {findings : List Finding}

theorem keeps_collect (hacts : ∀ e, e.isAct = true → kind e = true) (hr : r.CollaboratorsKeep kind) :
    (r.collect directory o).Keeps kind := by
  have hsources := fun s hs => hr.sources s hs directory o.forSources
  unfold collect
  split
  next => exact keeps_allFindings hacts hsources
  next => exact keeps_firstFinding hacts hsources

theorem keeps_graphsOf (hacts : ∀ e, e.isAct = true → kind e = true) (hr : r.CollaboratorsKeep kind)
    (f : Finding) : (r.graphsOf f).Keeps kind := by
  unfold graphsOf
  split
  next => exact keeps_pure _
  next => exact keeps_throw _
  next => exact keeps_throw _
  next convert _ _ hconvert =>
    exact (keeps_note (hacts _ rfl)).bind fun _ =>
      (hr.convert convert hconvert f).attempt_bind (fun _ => keeps_pure _) fun _ => keeps_throw _

theorem keeps_resolved (hacts : ∀ e, e.isAct = true → kind e = true) (hr : r.CollaboratorsKeep kind)
    (findings : List Finding) : (r.resolved findings).Keeps kind := by
  induction findings with
  | nil => exact keeps_pure _
  | cons f findings ih =>
    rw [resolved]
    cases f.error with
    | some e => exact ih
    | none => exact (keeps_graphsOf hacts hr f).bind fun _ => ih.bind fun _ => keeps_pure _

theorem keeps_askFallback (hacts : ∀ e, e.isAct = true → kind e = true) (hr : r.CollaboratorsKeep kind)
    (findings : List Finding) : (r.askFallback directory o findings).Keeps kind := by
  refine (keeps_note (hacts _ rfl)).bind fun _ =>
    (hr.fallback directory _).attempt_bind (fun _ => keeps_pure _) fun e => ?_
  dsimp only
  split
  next => exact keeps_throw _
  next =>
    split
    next => exact keeps_throw _
    next => exact (keeps_note (hacts _ rfl)).bind fun _ => keeps_pure _

theorem keeps_warn (hacts : ∀ e, e.isAct = true → kind e = true) (ps : List ProblemProject) (total : Nat) :
    (warn ps total).Keeps kind := by
  unfold warn
  split
  next => exact keeps_pure _
  next => exact keeps_note (hacts _ rfl)

/-- A resolution writes no file if its collaborators write none. Beside what they note, it notes its own
acts and, if there is no organization, a message about that. -/
theorem keeps_run (hacts : ∀ e, e.isAct = true → kind e = true)
    (hfailures : ∀ level message, kind (.logged level .failures message) = true)
    (hr : r.CollaboratorsKeep kind) : (r.run directory o).Keeps kind := by
  by_cases horg : r.organization = []
  · rw [run, horg]
    exact (keeps_note (hfailures _ _)).bind fun _ => keeps_throw _
  rw [run_eq horg]
  refine (keeps_collect hacts hr).bind fun findings => (keeps_resolved hacts hr findings).bind fun _ =>
    (Run.keeps_ofExcept _).bind fun _ => Run.Keeps.bind ?_ fun _ =>
      (keeps_warn hacts _ _).bind fun _ => keeps_pure _
  split
  next => exact keeps_askFallback hacts hr findings
  next => exact keeps_pure _

end Stages
end ManifestGraph.Resolution
