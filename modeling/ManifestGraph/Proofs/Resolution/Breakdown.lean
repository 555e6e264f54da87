/-
  How a resolution with an organization fails: where its sources are collected, where the graphs of their
  findings are made or written, or where the fallback is asked (`run_eq_error`). What fails first is what the
  resolution fails with.
-/
import ManifestGraph.Proofs.Resolution.Course

namespace ManifestGraph.Resolution

variable {r : Resolution} {directory : Text} {o : ResolutionOptions} {m m' : Machine}
  {findings : List Finding} {e : Failure}

/-! ## The fallback -/

/-- The fallback fails, and not only for want of projects where there are some already. -/
inductive FallbackFails (r : Resolution) (directory : Text) (o : ResolutionOptions)
    (findings : List Finding) (m : Machine) : Failure → Machine → Prop where
  | failed {raw : Failure} {m' : Machine}
      (h : r.fallback directory (forFallback o findings)
        (m.noting (.fellBack directory (forFallback o findings))) = (.error raw, m'))
      (hcode : raw.meansNoProjects = true → findings = []) :
      FallbackFails r directory o findings m (fallbackFailure raw) m'

theorem askFallback_eq_error :
    r.askFallback directory o findings m = (.error e, m') ↔
      r.FallbackFails directory o findings m e m' := by
  constructor
  · intro h
    rcases hrun : r.fallback directory (forFallback o findings)
      (m.noting (.fellBack directory (forFallback o findings))) with ⟨raw | further, m₁⟩
    · by_cases hcode : raw.meansNoProjects = true → findings = []
      · cases (askFallback_of_error hrun hcode).symm.trans h
        exact .failed hrun hcode
      · obtain ⟨hcode, hfound⟩ := Classical.not_imp.mp hcode
        cases (askFallback_of_nothing hrun hcode hfound).symm.trans h
    · cases (askFallback_of_ok hrun).symm.trans h
  · rintro ⟨hrun, hcode⟩
    exact askFallback_of_error hrun hcode

/-! ## The whole resolution -/

/-- The places where a resolution with an organization fails. -/
inductive Fails (r : Resolution) (directory : Text) (o : ResolutionOptions) (m : Machine) :
    Failure → Machine → Prop where
  | collecting {e : Failure} {m' : Machine} (h : r.collect directory o m = (.error e, m')) :
      Fails r directory o m e m'
  | resolving {findings : List Finding} {m₁ : Machine} {e : Failure} {m' : Machine}
      (hcollect : r.collect directory o m = (.ok findings, m₁))
      (h : r.resolved findings m₁ = (.error e, m')) : Fails r directory o m e m'
  | writing {findings : List Finding} {m₁ : Machine} {projects : List ResolvedProject}
      {g : DependencyGraph} {m' : Machine} (hcollect : r.collect directory o m = (.ok findings, m₁))
      (hresolved : r.resolved findings m₁ = (.ok projects, m')) (h : unwritable? projects o = some g) :
      Fails r directory o m g.unwritten m'
  | fallingBack {findings : List Finding} {m₁ : Machine} {projects : List ResolvedProject}
      {m₂ : Machine} {e : Failure} {m' : Machine}
      (hcollect : r.collect directory o m = (.ok findings, m₁))
      (hresolved : r.resolved findings m₁ = (.ok projects, m₂))
      (hwritable : unwritable? projects o = none)
      (hasked : findings = [] ∨ o.allProjects = true)
      (h : r.FallbackFails directory o findings m₂ e m') : Fails r directory o m e m'

/-- A resolution fails with what fails first. -/
theorem run_eq_error (horg : r.organization ≠ []) :
    r.run directory o m = (.error e, m') ↔ r.Fails directory o m e m' := by
  rw [run_eq horg]
  constructor
  · intro h
    rcases Run.bind_eq_error.mp h with h | ⟨findings, m₁, hcollect, h⟩
    · exact .collecting h
    rcases Run.bind_eq_error.mp h with h | ⟨projects, m₂, hresolved, h⟩
    · exact .resolving hcollect h
    rcases Run.bind_eq_error.mp h with h | ⟨own, m₂', hown, h⟩
    · rw [Run.ofExcept_eq, Prod.mk.injEq] at h
      obtain ⟨hwrite, rfl⟩ := h
      obtain ⟨g, hunwritable, rfl⟩ := write_eq_error.mp hwrite
      exact .writing hcollect hresolved hunwritable
    obtain ⟨hwrite, rfl⟩ := Run.ofExcept_eq_ok.mp hown
    have hwritable := (write_eq_ok.mp hwrite).1
    rcases Run.bind_eq_error.mp h with h | ⟨further, m₃, _, h⟩
    · by_cases hasked : (findings.isEmpty || o.allProjects) = true
      · rw [if_pos hasked] at h
        rw [Bool.or_eq_true, List.isEmpty_iff] at hasked
        exact .fallingBack hcollect hresolved hwritable hasked (askFallback_eq_error.mp h)
      · rw [if_neg hasked] at h
        cases h
    · rcases Run.bind_eq_error.mp h with h | ⟨_, m₄, _, h⟩
      · rw [warn_eq] at h
        cases h
      · cases h
  · intro h
    cases h with
    | collecting h => exact Run.bind_eq_error.mpr (Or.inl h)
    | resolving hcollect h =>
      refine Run.bind_eq_error.mpr (Or.inr ⟨_, _, hcollect, ?_⟩)
      exact Run.bind_eq_error.mpr (Or.inl h)
    | writing hcollect hresolved h =>
      refine Run.bind_eq_error.mpr (Or.inr ⟨_, _, hcollect, ?_⟩)
      refine Run.bind_eq_error.mpr (Or.inr ⟨_, _, hresolved, ?_⟩)
      refine Run.bind_eq_error.mpr (Or.inl ?_)
      rw [Run.ofExcept_eq, write_eq_error.mpr ⟨_, h, rfl⟩]
    | fallingBack hcollect hresolved hwritable hasked h =>
      refine Run.bind_eq_error.mpr (Or.inr ⟨_, _, hcollect, ?_⟩)
      refine Run.bind_eq_error.mpr (Or.inr ⟨_, _, hresolved, ?_⟩)
      have hwrite := write_eq_ok.mpr ⟨hwritable, rfl⟩
      refine Run.bind_eq_error.mpr (Or.inr ⟨_, _, Run.ofExcept_eq_ok.mpr ⟨hwrite, rfl⟩, ?_⟩)
      refine Run.bind_eq_error.mpr (Or.inl ?_)
      rw [← List.isEmpty_iff, ← Bool.or_eq_true] at hasked
      rw [if_pos hasked]
      exact askFallback_eq_error.mpr h

end ManifestGraph.Resolution
