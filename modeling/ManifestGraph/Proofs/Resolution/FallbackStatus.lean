/-
  The status of the fallback's process in a resolution. However the process's output is read, its failure
  is among the causes of what is told, and its status is the exit code (`run_of_status`): 3 is no failure
  if the sources found anything, and any other status is that of the resolution.
-/
import ManifestGraph.Proofs.Fallback.Status
import ManifestGraph.Proofs.Resolution.Accounts
import ManifestGraph.Proofs.Resolution.Breakdown

namespace ManifestGraph.Resolution

open Fallback (Resolver diagnose stemsFrom_diagnose exists_catalog_diagnose)
open Fallback.Resolver (failedRun failedRun_eq)

variable {r : Resolution} {resolver : Resolver} {directory : Text} {o : ResolutionOptions}
  {m m' : Machine} {findings : List Finding} {projects : List ResolvedProject} {status : Int}
  {stdout stderr : Bytes} {told : Failure}

/-- A resolution asks the resolver, with the findings of its sources and their graphs, which could be written,
and the resolver's process ends. -/
structure Consults (r : Resolution) (resolver : Resolver) (directory : Text) (o : ResolutionOptions)
    (m : Machine) (findings : List Finding) (projects : List ResolvedProject) (status : Int)
    (stdout stderr : Bytes) (m' : Machine) : Prop where
  organization : r.organization ≠ []
  fallback : r.fallback = resolver.resolve
  asked : findings = [] ∨ o.allProjects = true
  course : ∃ m₁ m₂, r.collect directory o m = (.ok findings, m₁) ∧
    r.resolved findings m₁ = (.ok projects, m₂) ∧ unwritable? projects o = none ∧
    resolver.Ends directory (forFallback o findings)
      (m₂.noting (.fellBack directory (forFallback o findings))) status stdout stderr m'

/-- What the fallback's process makes the fallback fail with. -/
def toldOf (resolver : Resolver) (directory : Text) (o : ResolutionOptions) (findings : List Finding)
    (status : Int) (stdout stderr : Bytes) : Failure :=
  failedRun (resolver.failureOf directory (forFallback o findings) status stdout stderr) stdout

theorem exitCode?_toldOf
    (htold : diagnose (resolver.failureOf directory (forFallback o findings) status stdout stderr) stdout =
      .ok told) : (toldOf resolver directory o findings status stdout stderr).exitCode? = some status := by
  obtain ⟨error, herror⟩ := exists_catalog_diagnose rfl htold
  rw [toldOf, failedRun_eq htold, herror]
  rfl

/-- Status 3 leaves the outputs of the sources as they are. -/
theorem Consults.run_found (h : r.Consults resolver directory o m findings projects 3 stdout stderr m')
    (htold : diagnose (resolver.failureOf directory (forFallback o findings) 3 stdout stderr) stdout =
      .ok told) (hfound : findings ≠ []) :
    r.run directory o m = (.ok (outputsOf projects o), reported (problemsOf findings) findings.length
      (m'.noting (.logged .info .resolution "Legacy resolver found no additional projects"))) := by
  obtain ⟨horg, hfallback, hasked, m₁, m₂, hcollect, hresolved, hwritable, hends⟩ := h
  have hfails := Resolver.resolve_of_ends hends (by decide)
  rw [← hfallback] at hfails
  have hcode : (toldOf resolver directory o findings 3 stdout stderr).meansNoProjects = true := by
    rw [Failure.meansNoProjects, exitCode?_toldOf htold]
    rfl
  have hnothing := FallsBack.nothing hfails hcode hfound
  refine run_eq_ok.mpr ⟨horg, findings, m₁, projects, m₂, [], _, hcollect, hresolved, hwritable,
    .asked hasked hnothing, ?_, ?_⟩
  · rw [goodOutputs, List.filter_nil, List.append_nil]
  · rw [problems, outputProblems, List.filterMap_nil, List.append_nil, List.length_nil, Nat.add_zero]

/-- Any other status, or 3 where the sources found nothing, is that of the resolution. -/
theorem Consults.run_failed (h : r.Consults resolver directory o m findings projects status stdout stderr m')
    (htold : diagnose (resolver.failureOf directory (forFallback o findings) status stdout stderr) stdout =
      .ok told) (hstatus : status ≠ 0) (hcode : status = 3 → findings = []) :
    r.run directory o m =
      (.error (fallbackFailure (toldOf resolver directory o findings status stdout stderr)), m') := by
  obtain ⟨horg, hfallback, hasked, m₁, m₂, hcollect, hresolved, hwritable, hends⟩ := h
  have hfails := Resolver.resolve_of_ends hends hstatus
  rw [← hfallback] at hfails
  refine (run_eq_error horg).mpr
    (.fallingBack hcollect hresolved hwritable hasked (.failed hfails fun hmeans => ?_))
  have hthree : (toldOf resolver directory o findings status stdout stderr).exitCode? = some 3 :=
    of_decide_eq_true hmeans
  rw [exitCode?_toldOf htold] at hthree
  exact hcode (Option.some.inj hthree)

/-- The failure of the process is among the causes of whatever is told of it, and its status is the exit
code. So in every resolution that asks the resolver, status 3 gives the outputs of the sources if they found
anything and means that no project is supported if not, and any other status is the exit code of a
resolution that fails for the fallback's failure. -/
theorem run_of_status (hstatus : status ≠ 0)
    (htold : diagnose (resolver.failureOf directory (forFallback o findings) status stdout stderr) stdout =
      .ok told) :
    (resolver.failureOf directory (forFallback o findings) status stdout stderr).fault ∈ told.chain ∧
    told.exitCode? = some status ∧
    ∀ (r : Resolution) (m : Machine) (projects : List ResolvedProject) (m' : Machine),
      r.Consults resolver directory o m findings projects status stdout stderr m' →
      (status = 3 → findings ≠ [] →
        r.run directory o m = (.ok (outputsOf projects o), reported (problemsOf findings) findings.length
          (m'.noting (.logged .info .resolution "Legacy resolver found no additional projects")))) ∧
      (status = 3 → findings = [] → r.run directory o m =
        (.error (.caused .noSupportedProjects
          (toldOf resolver directory o findings status stdout stderr)), m')) ∧
      (status ≠ 3 → ∃ message e, r.run directory o m = (.error e, m') ∧
        e = .caused (.resolution (.fallbackFailed message))
          (toldOf resolver directory o findings status stdout stderr) ∧
        e.exitCode? = some status) := by
  have hstems := stemsFrom_diagnose rfl htold
  refine ⟨hstems.mem_chain, hstems.exitCode?_eq, fun r m projects m' h => ⟨?_, ?_, ?_⟩⟩
  · rintro rfl hfound
    exact h.run_found htold hfound
  · rintro rfl hnone
    have hrun := h.run_failed htold hstatus fun _ => hnone
    rw [fallbackFailure, Failure.meansNoProjects, exitCode?_toldOf htold] at hrun
    exact hrun
  · intro hother
    have hmeans : (toldOf resolver directory o findings status stdout stderr).meansNoProjects = false := by
      rw [Failure.meansNoProjects, exitCode?_toldOf htold]
      exact decide_eq_false fun hcode => hother (Option.some.inj hcode)
    have hrun := h.run_failed htold hstatus fun hthree => absurd hthree hother
    rw [fallbackFailure, hmeans] at hrun
    refine ⟨_, _, hrun, rfl, ?_⟩
    rw [Failure.exitCode?_caused rfl, exitCode?_toldOf htold]

/-- Two sources that find projects, and a fallback that is a program. -/
def mixedWithProgram : Resolution := { mixed with fallback := ({} : Resolver).resolve }

/-- A machine on which the fallback's program finds no project. -/
def withoutProjects : Machine := { programs := [("snyk", [.ended 3 [] []])] }

theorem run_of_status_three :
    ∃ (told : Failure) (m' : Machine), diagnose (({} : Resolver).failureOf "."
        (forFallback allProjects [brokenFinding, sbomFinding, graphFinding]) 3 [] []) [] = .ok told ∧
      told.exitCode? = some 3 ∧
      mixedWithProgram.run "." allProjects withoutProjects =
        (.ok [ResolvedProject.output ⟨sbomFinding, loneGraph "a"⟩,
            ResolvedProject.output ⟨sbomFinding, loneGraph "b"⟩,
            ResolvedProject.output ⟨graphFinding, loneGraph "c"⟩],
          reported (problemsOf [brokenFinding, sbomFinding, graphFinding]) 3
            (m'.noting (.logged .info .resolution "Legacy resolver found no additional projects"))) := by
  have htold : ∃ told, diagnose (({} : Resolver).failureOf "."
      (forFallback allProjects [brokenFinding, sbomFinding, graphFinding]) 3 [] []) [] = .ok told :=
    ⟨_, rfl⟩
  obtain ⟨told, htold⟩ := htold
  have hconsults : ∃ m', mixedWithProgram.Consults {} "." allProjects withoutProjects
      [brokenFinding, sbomFinding, graphFinding] [⟨sbomFinding, loneGraph "a"⟩,
        ⟨sbomFinding, loneGraph "b"⟩, ⟨graphFinding, loneGraph "c"⟩] 3 [] [] m' :=
    ⟨_, List.cons_ne_nil _ _, rfl, Or.inr rfl, _, _, rfl, rfl, by decide +kernel, rfl⟩
  obtain ⟨m', hconsults⟩ := hconsults
  obtain ⟨_, hcode, hruns⟩ := run_of_status (by decide) htold
  exact ⟨told, m', htold, hcode, (hruns _ _ _ _ hconsults).1 rfl (List.cons_ne_nil _ _)⟩

end ManifestGraph.Resolution
