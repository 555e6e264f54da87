/-
  The exit code 3 of a resolution. A resolution with sources for uv, pipenv and pip, and with the fallback
  resolver, fails with it if nothing was found and the fallback's process ended with it; but also if one
  project was asked for and its finding has an error with this exit code (`exitCode?_run_eq_three`).
-/
import ManifestGraph.Proofs.Resolution.Asking
import ManifestGraph.Proofs.Resolution.FallbackStatus
import ManifestGraph.Proofs.Resolution.SourceFailures
import ManifestGraph.Proofs.Resolution.Validity

namespace ManifestGraph.Resolution

open Failure (Unmarked)
open Fallback (Resolver diagnose)

variable {r : Resolution} {resolver : Resolver} {directory : Text} {o : ResolutionOptions}
  {m m' : Machine} {findings : List Finding} {e : Failure} {programs : List Text}

/-- No source finds anything, and then the process of the fallback ends with 3, as its failure tells. -/
def FindsNothing (r : Resolution) (resolver : Resolver) (directory : Text) (o : ResolutionOptions)
    (m : Machine) : Prop :=
  ∃ answers m₁ stdout stderr told m₂,
    InTurn (Answers directory o.forSources) r.sources m answers m₁ ∧ answers.flatten = [] ∧
    resolver.Ends directory (forFallback o []) (m₁.noting (.fellBack directory (forFallback o []))) 3
      stdout stderr m₂ ∧
    diagnose (resolver.failureOf directory (forFallback o []) 3 stdout stderr) stdout = .ok told

/-- One project is asked for, and it is found, but with an error that has the exit code 3. -/
def FindsFailing (r : Resolution) (directory : Text) (o : ResolutionOptions) (m : Machine) : Prop :=
  o.allProjects = false ∧ ∃ asked f e m₁,
    StopsAt directory o.forSources List.head? r.sources m asked f m₁ ∧ f.error = some e ∧
    e.exitCode? = some 3

/-! ## What cannot have an exit code -/

theorem raises_ask {s : Source} {o : SourceOptions} (hs : s.FailsFor programs) :
    (ask s directory o).Raises Unmarked := by
  intro m e m' h
  obtain ⟨raw, hfind, rfl⟩ := ask_eq_error.mp h
  exact (hs.raises directory o _ raw m' hfind).caused rfl

/-- To fail fast is to fail with another exit code. -/
theorem raises_allFindings {sources : List Source} {o : SourceOptions} (failFast : Bool)
    (hsources : ∀ s ∈ sources, s.FailsFor programs) :
    (allFindings directory o failFast sources).Raises fun e => e.exitCode? ≠ some 3 := by
  have hother : ∀ e : Failure, e.Unmarked → e.exitCode? ≠ some 3 := fun e he => by
    rw [he.exitCode?]; exact nofun
  have hstop : ∀ found : List Finding, (stopAtError found).Raises fun e => e.exitCode? ≠ some 3 := by
    intro found
    induction found with
    | nil => exact Run.raises_pure _
    | cons f found ih =>
      unfold stopAtError
      split
      next e _ => exact Run.raises_throw (by rw [Failure.exitCode?_failFast]; decide)
      next => exact ih
  induction sources with
  | nil => exact Run.raises_pure _
  | cons s sources ih =>
    obtain ⟨hs, hrest⟩ := List.forall_mem_cons.mp hsources
    rw [allFindings_cons]
    refine ((raises_ask hs).mono hother).bind fun here => Run.Raises.bind ?_ fun _ =>
      (ih hrest).bind fun _ => Run.raises_pure _
    split
    next => exact hstop here
    next => exact Run.raises_pure _

/-- Findings that are solved need no converter, so making their graphs does not fail. -/
theorem raises_resolved (h : ∀ f ∈ findings, f.Solved) : (r.resolved findings).Raises fun _ => False := by
  induction findings with
  | nil => exact Run.raises_pure _
  | cons f findings ih =>
    obtain ⟨hf, hrest⟩ := List.forall_mem_cons.mp h
    unfold resolved
    split
    next => exact ih hrest
    next herror =>
      have hgraphs : (r.graphsOf f).Raises fun _ => False := by
        obtain ⟨g, hgraph, _⟩ := hf herror
        unfold graphsOf
        rw [hgraph]
        exact Run.raises_pure _
      exact hgraphs.bind fun _ => (ih hrest).bind fun _ => Run.raises_pure _

theorem exitCode?_fallbackFailure :
    (fallbackFailure e).exitCode? = some 3 ↔ e.exitCode? = some 3 := by
  rw [fallbackFailure]
  cases hmeans : e.meansNoProjects with
  | true => exact ⟨fun _ => of_decide_eq_true hmeans, fun _ => rfl⟩
  | false => rw [if_neg Bool.false_ne_true, Failure.exitCode?_caused rfl]

/-! ## Where 3 comes from -/

/-- If the sources cannot be collected with the exit code 3, this is that of a finding. -/
theorem findsFailing_of_collect (hsources : ∀ s ∈ r.sources, s.FailsFor programs)
    (h : r.collect directory o m = (.error e, m')) (hcode : e.exitCode? = some 3) :
    r.FindsFailing directory o m := by
  unfold collect at h
  split at h
  next => exact absurd hcode (raises_allFindings o.failFast hsources m e m' h)
  next hsingle =>
    rcases firstFinding_cases directory o.forSources r.sources m with
      ⟨s, raw, m₁, hraises⟩ | ⟨answers, m₁, hturn, hnothing⟩ | ⟨asked, f, m₁, hstops⟩
    · cases (firstFinding_of_raisesAt hraises).symm.trans h
      obtain ⟨hs, _, hask⟩ := hraises.exists_ask
      rw [(raises_ask (hsources s hs) _ _ _ hask).exitCode?] at hcode
      cases hcode
    · cases (firstFinding_of_nothing hturn hnothing).symm.trans h
    · rw [firstFinding_of_stopsAt hstops, chosen] at h
      split at h
      next raw hraw =>
        cases h
        rw [Failure.exitCode?_caused rfl] at hcode
        exact ⟨Bool.eq_false_iff.mpr hsingle, asked, f, raw, _, hstops, hraw, hcode⟩
      next => cases h

theorem run_of_findsNothing (horg : r.organization ≠ []) (hfallback : r.fallback = resolver.resolve)
    (h : r.FindsNothing resolver directory o m) :
    ∃ cause m', r.run directory o m = (.error (.caused .noSupportedProjects cause), m') := by
  obtain ⟨answers, m₁, stdout, stderr, told, m₂, hturn, hnothing, hends, htold⟩ := h
  have hcollect : r.collect directory o m = (.ok [], m₁) := collect_eq_nil.mpr ⟨answers, hturn, hnothing⟩
  have hconsults : r.Consults resolver directory o m [] [] 3 stdout stderr m₂ :=
    ⟨horg, hfallback, Or.inl rfl, m₁, m₁, hcollect, rfl, unwritable?_nil o, hends⟩
  have hrun := hconsults.run_failed htold (by decide) fun _ => rfl
  rw [fallbackFailure, Failure.meansNoProjects, exitCode?_toldOf htold] at hrun
  exact ⟨_, m₂, hrun⟩

theorem run_of_findsFailing (horg : r.organization ≠ []) (h : r.FindsFailing directory o m) :
    ∃ fault cause m', r.run directory o m = (.error (.caused (.resolution fault) cause), m') ∧
      cause.exitCode? = some 3 := by
  obtain ⟨hsingle, asked, f, e, m₁, hstops, he, hcode⟩ := h
  refine ⟨.findingFailed f.lockFile e.message, e, m₁, (run_eq_error horg).mpr (.collecting ?_), hcode⟩
  rw [collect, hsingle, if_neg Bool.false_ne_true, firstFinding_of_stopsAt hstops, chosen, he]

/-- A resolution with an organization fails with the exit code 3 exactly if nothing was found and the
fallback's process ended with it, or if the one project that was asked for was found with such an error. -/
theorem exitCode?_run_eq_three (horg : r.organization ≠ [])
    (hsources : ∀ s ∈ r.sources, s.FailsFor programs) (hsolves : ∀ s ∈ r.sources, s.Solves)
    (hfallback : r.fallback = resolver.resolve) :
    (∃ e m', r.run directory o m = (.error e, m') ∧ e.exitCode? = some 3) ↔
      r.FindsNothing resolver directory o m ∨ r.FindsFailing directory o m := by
  constructor
  · rintro ⟨e, m', hrun, hcode⟩
    cases (run_eq_error horg).mp hrun with
    | collecting h => exact Or.inr (findsFailing_of_collect hsources h hcode)
    | resolving hcollect h =>
      exact (raises_resolved (ensures_collect hsolves _ _ _ hcollect) _ _ _ h).elim
    | writing => cases hcode
    | fallingBack hcollect hresolved _ _ h =>
      obtain ⟨hraw, hnothing⟩ := h
      rw [exitCode?_fallbackFailure] at hcode
      obtain rfl := hnothing (decide_eq_true hcode)
      cases hresolved
      obtain ⟨answers, hturn, hflatten⟩ := collect_eq_nil.mp hcollect
      rw [hfallback] at hraw
      obtain ⟨stdout, stderr, told, hends, _, htold, _⟩ := Resolver.exists_ends_of_exitCode hraw hcode
      exact Or.inl ⟨answers, _, stdout, stderr, told, _, hturn, hflatten, hends, htold⟩
  · rintro (h | h)
    · obtain ⟨cause, m', hrun⟩ := run_of_findsNothing horg hfallback h
      exact ⟨_, m', hrun, rfl⟩
    · obtain ⟨fault, cause, m', hrun, hcode⟩ := run_of_findsFailing horg h
      exact ⟨_, m', hrun, (Failure.exitCode?_caused rfl).trans hcode⟩

end ManifestGraph.Resolution
