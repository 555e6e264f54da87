/-
  The status that the resolver's process ends with. However its output is read, the failure that is told
  stems from that of the process (`stemsFrom_diagnose`), so the status survives as the exit code; and an
  exit code of the resolver is such a status (`Resolver.exists_ends_of_exitCode`).
-/
import ManifestGraph.Proofs.Fallback.Places
import ManifestGraph.Proofs.Fallback.Reports
import ManifestGraph.Proofs.Machine.Programs

namespace ManifestGraph.Fallback

open Failure (StemsFrom ofCommand)

variable {raw e : Failure} {output : Bytes}

/-! ## What the output tells -/

theorem exitMark?_of_report {report : Reason} (h : report? output = some report) :
    Fault.exitMark? report = none := by
  unfold report? at h
  split at h
  next =>
    split at h
    next => cases h; rfl
    next => cases h
  next => cases h

/-- Without a structured error in its output, the failure of the process is the cause of what is told. -/
theorem stemsFrom_unstructured (raw : Failure) (output : Bytes) :
    StemsFrom raw (unstructured raw output) := by
  unfold unstructured
  dsimp only
  split
  next =>
    split
    next report hreport =>
      split at hreport
      next => cases hreport
      next => exact (StemsFrom.refl.caused (exitMark?_of_report hreport)).caused rfl
    next => exact StemsFrom.refl.caused rfl
  next => exact StemsFrom.refl.caused rfl

/-- Whatever is found in the output, the failure of the process is among the causes. -/
theorem stemsFrom_diagnose (hraw : raw.sinceCatalog? = none) (h : diagnose raw output = .ok e) :
    StemsFrom raw e := by
  rw [diagnose, hraw] at h
  obtain ⟨error?, _, h⟩ := Except.bind_eq_ok.mp h
  cases error? with
  | some error => cases h; exact StemsFrom.refl.caused rfl
  | none => cases h; exact stemsFrom_unstructured raw output

theorem exists_catalog_unstructured (raw : Failure) (output : Bytes) :
    ∃ error, (unstructured raw output).fault.reason = .catalog error := by
  unfold unstructured
  dsimp only
  split
  next => split <;> exact ⟨_, rfl⟩
  next => exact ⟨_, rfl⟩

/-- What is told of the process is a structured error. -/
theorem exists_catalog_diagnose (hraw : raw.sinceCatalog? = none) (h : diagnose raw output = .ok e) :
    ∃ error, e.fault.reason = .catalog error := by
  rw [diagnose, hraw] at h
  obtain ⟨error?, _, h⟩ := Except.bind_eq_ok.mp h
  cases error? with
  | some error => cases h; exact ⟨error, rfl⟩
  | none => cases h; exact exists_catalog_unstructured raw output

/-! ## The resolver's process -/

namespace Resolver

variable {resolver : Resolver} {directory : Text} {options : ResolutionOptions} {m m' : Machine}
  {status code : Int} {stdout stderr : Bytes}

/-- The command line of the resolver's process. -/
def commandLine (resolver : Resolver) (directory : Text) (options : ResolutionOptions) : List Text :=
  resolver.command :: resolver.argumentsFor directory options

/-- The process of the resolver ends with a status and with what it wrote. -/
def Ends (resolver : Resolver) (directory : Text) (options : ResolutionOptions) (m : Machine)
    (status : Int) (stdout stderr : Bytes) (m' : Machine) : Prop :=
  Run.start (resolver.commandLine directory options) none none
      (m.noting (.logged .info .fallback ("Running " ++ resolver.command ++ " "
        ++ Text.join " " (resolver.argumentsFor directory options)))) =
    (.ok (.ended status stdout stderr), m')

/-- What a failed process makes the resolver fail with. -/
def failureOf (resolver : Resolver) (directory : Text) (options : ResolutionOptions) (status : Int)
    (stdout stderr : Bytes) : Failure :=
  ofCommand (resolver.commandLine directory options) status stdout stderr

/-- That its run failed is what the resolver fails with. -/
theorem resolve_of_run
    (h : resolver.run (resolver.argumentsFor directory options) m = (.error e, m')) :
    resolver.resolve directory options m = (.error e, m') :=
  Run.bind_eq_error.mpr (Or.inl h)

/-- What the resolver fails with when its process ended with a status other than zero. -/
theorem resolve_of_ends (h : resolver.Ends directory options m status stdout stderr m') (hne : status ≠ 0) :
    resolver.resolve directory options m =
      (.error (failedRun (resolver.failureOf directory options status stdout stderr) stdout), m') := by
  have houtput := Run.output_of_start h
  rw [if_neg hne] at houtput
  refine resolve_of_run ?_
  rw [run, Run.log_bind, Run.attempt_bind]
  unfold commandLine at houtput
  rw [houtput]
  rfl

/-- The structured failure that is told is chained to that of the process. -/
theorem failedRun_eq (h : diagnose raw output = .ok e) :
    failedRun raw output = .caused e.fault.reason raw := by
  rw [failedRun, h]

/-- A failure without an exit code is told without one. -/
theorem unmarked_failedRun (hraw : raw.Unmarked) (hcatalog : raw.sinceCatalog? = none) :
    (failedRun raw output).Unmarked := by
  unfold failedRun
  split
  next e h =>
    obtain ⟨error, he⟩ := exists_catalog_diagnose hcatalog h
    rw [he]
    exact hraw.caused rfl
  next e h => exact unmarked_diagnose h

/-- An exit code of the resolver's run is the status that its process ended with. -/
theorem exists_ends_of_run (h : resolver.run (resolver.argumentsFor directory options) m = (.error e, m'))
    (hcode : e.exitCode? = some code) :
    ∃ stdout stderr E, resolver.Ends directory options m code stdout stderr m' ∧ code ≠ 0 ∧
      diagnose (resolver.failureOf directory options code stdout stderr) stdout = .ok E ∧
      e = .caused E.fault.reason (resolver.failureOf directory options code stdout stderr) := by
  rw [run, Run.log_bind, Run.attempt_bind] at h
  rcases houtput : Run.output (resolver.commandLine directory options) none none
    (m.noting (.logged .info .fallback ("Running " ++ resolver.command ++ " "
      ++ Text.join " " (resolver.argumentsFor directory options)))) with ⟨raw | written, m₁⟩
  · unfold commandLine at houtput
    rw [houtput] at h
    rcases Run.output_eq_error houtput with
      ⟨_, kind, message, rfl⟩ | ⟨status, stdout, stderr, hstart, hne, rfl⟩
    · have hunmarked : e.Unmarked := by
        cases h
        split
        next => exact unmarked_failedRun (Failure.unmarked_of rfl) rfl
        next => exact Failure.unmarked_of rfl
      rw [hunmarked.exitCode?] at hcode
      cases hcode
    · cases h
      cases hdiagnose : diagnose (resolver.failureOf directory options status stdout stderr) stdout with
      | ok E =>
        have he := failedRun_eq hdiagnose
        obtain ⟨error, hE⟩ := exists_catalog_diagnose rfl hdiagnose
        have hstatus : (failedRun (resolver.failureOf directory options status stdout stderr)
            stdout).exitCode? = some status := by
          rw [he, hE]
          rfl
        cases hstatus.symm.trans hcode
        exact ⟨stdout, stderr, E, hstart, hne, hdiagnose, he⟩
      | error e' =>
        have he : failedRun (resolver.failureOf directory options status stdout stderr) stdout = e' := by
          rw [failedRun, hdiagnose]
        have hnone := (unmarked_diagnose hdiagnose).exitCode?
        rw [← he] at hnone
        cases hnone.symm.trans hcode
  · unfold commandLine at houtput
    rw [houtput] at h
    cases h

/-- An exit code of the resolver is the status that its process ended with. -/
theorem exists_ends_of_exitCode (h : resolver.resolve directory options m = (.error e, m'))
    (hcode : e.exitCode? = some code) :
    ∃ stdout stderr E, resolver.Ends directory options m code stdout stderr m' ∧ code ≠ 0 ∧
      diagnose (resolver.failureOf directory options code stdout stderr) stdout = .ok E ∧
      e = .caused E.fault.reason (resolver.failureOf directory options code stdout stderr) := by
  rcases hran : resolver.run (resolver.argumentsFor directory options) m with ⟨e' | written, m₁⟩
  · cases (resolve_of_run hran).symm.trans h
    exact exists_ends_of_run hran hcode
  · rw [(unmarked_of_resolve hran h).exitCode?] at hcode
    cases hcode

end Resolver
end ManifestGraph.Fallback
