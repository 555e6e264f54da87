/-
  The exit code of the program. A program that begins to resolve ends as its resolution does
  (`run_of_begins`). So it ends with 3 if nothing was found and the fallback's process ended with 3, but
  also if the one project that it was asked for was found and uv or pip ended with 3
  (`run_eq_three`).
-/
import ManifestGraph.Program
import ManifestGraph.Proofs.Resolution.ExitCode

namespace ManifestGraph.Program

open Resolution (StopsAt exitCode?_run_eq_three run_of_findsFailing run_of_findsNothing shipped_resolution)

variable {s : Settings} {m m' : Machine} {e : Failure} {code : Int}

/-! ## Ending as the resolution does -/

/-- The program goes on to resolve: its level is none of the misnomers, it is not asked for its version,
and its output file is not in the way. -/
structure Begins (s : Settings) (m : Machine) : Prop where
  level : ∃ threshold, thresholdOf s.logLevel = .ok threshold
  version : s.version = false
  unblocked : isBlocked s m = (.ok false, m)

/-- To look for the output file changes nothing. -/
theorem machine_of_isBlocked {blocked : Bool} (h : isBlocked s m = (.ok blocked, m')) : m' = m := by
  rw [isBlocked] at h
  cases hfile : s.outputFile with
  | none => rw [hfile] at h; cases h; rfl
  | some path =>
    rw [hfile] at h
    dsimp only at h
    cases hforce : s.force with
    | true => rw [hforce] at h; cases h; rfl
    | false =>
      rw [hforce, if_neg Bool.false_ne_true, Run.isPresent, Run.get_bind] at h
      generalize m.files.look path = found at h
      cases found with
      | ok found => cases h; rfl
      | error e => cases h

/-- What the program makes of the result of its resolution. -/
def ending (s : Settings) : Except Failure (List Output) → Run Int
  | .ok outputs => Run.ofExcept (lines outputs) >>= fun content => write s content >>= fun _ => pure 0
  | .error e =>
    if e.fault.reason.isOwn then
      Run.log .error .commandLine e.userMessage >>= fun _ => pure (failureCode e)
    else throw e

theorem run_of_begins (h : Begins s m) : run s m = ending s (resolve s m).1 (resolve s m).2 := by
  obtain ⟨⟨threshold, hlevel⟩, hversion, hblocked⟩ := h
  have hpure : Run.ofExcept (.ok threshold) = (pure threshold : Run Nat) := rfl
  rw [run, hlevel, hpure, pure_bind, hversion, if_neg Bool.false_ne_true, Run.bind_eq, hblocked]
  dsimp only
  rw [if_neg Bool.false_ne_true, Run.attempt_bind]
  rcases resolve s m with ⟨e | outputs, m₁⟩
  · dsimp only [ending]
    cases e.fault.reason.isOwn <;> rfl
  · rfl

/-- A program that ends by itself was asked for its version, or found its output file in the way, or began to
resolve and ended as its resolution did. -/
theorem run_cases (h : run s m = (.ok code, m')) :
    (s.version = true ∧ code = 0 ∧ ∃ message, m' = m.noting (.logged .info .commandLine message)) ∨
      (isBlocked s m = (.ok true, m) ∧ code = 1 ∧
        ∃ message, m' = m.noting (.logged .error .commandLine message)) ∨
      (Begins s m ∧ ending s (resolve s m).1 (resolve s m).2 = (.ok code, m')) := by
  obtain ⟨threshold, m₁, hread, hrest⟩ := Run.bind_eq_ok.mp h
  obtain ⟨hlevel, rfl⟩ := Run.ofExcept_eq_ok.mp hread
  cases hversion : s.version with
  | true =>
    rw [hversion] at hrest
    cases hrest
    exact Or.inl ⟨rfl, rfl, _, rfl⟩
  | false =>
    rw [hversion, if_neg Bool.false_ne_true] at hrest
    obtain ⟨blocked, m₂, hblocked, hrest⟩ := Run.bind_eq_ok.mp hrest
    obtain rfl := machine_of_isBlocked hblocked
    cases blocked with
    | true => cases hrest; exact Or.inr (Or.inl ⟨hblocked, rfl, _, rfl⟩)
    | false =>
      have hbegins : Begins s _ := ⟨⟨threshold, hlevel⟩, hversion, hblocked⟩
      exact Or.inr (Or.inr ⟨hbegins, (run_of_begins hbegins).symm.trans h⟩)

/-- A program that ends with another code than 0 or 1 began to resolve. -/
theorem begins_of_run (h : run s m = (.ok code, m')) (hzero : code ≠ 0) (hone : code ≠ 1) :
    Begins s m := by
  rcases run_cases h with ⟨_, hcode, _⟩ | ⟨_, hcode, _⟩ | ⟨hbegins, _⟩
  · exact absurd hcode hzero
  · exact absurd hcode hone
  · exact hbegins

theorem failureCode_eq_three : failureCode e = 3 ↔ e.exitCode? = some 3 := by
  unfold failureCode
  cases e.exitCode? with
  | none => exact ⟨nofun, nofun⟩
  | some code =>
    dsimp only
    split
    next hzero => rw [hzero]; exact ⟨nofun, nofun⟩
    next => rw [Option.some.injEq]

/-- Only a failed resolution makes the program end with 3. -/
theorem ending_eq_three {result : Except Failure (List Output)} :
    (∃ m', ending s result m = (.ok 3, m')) ↔
      ∃ e, result = .error e ∧ e.fault.reason.isOwn = true ∧ e.exitCode? = some 3 := by
  cases result with
  | ok outputs =>
    constructor
    · rintro ⟨m', h⟩
      obtain ⟨content, m₁, _, h⟩ := Run.bind_eq_ok.mp h
      obtain ⟨_, m₂, _, h⟩ := Run.bind_eq_ok.mp h
      exact absurd (Run.pure_eq_ok.mp h).1 (by decide)
    · rintro ⟨e, h, _⟩
      cases h
  | error e =>
    rw [ending]
    cases hown : e.fault.reason.isOwn with
    | false =>
      rw [if_neg Bool.false_ne_true]
      constructor
      · rintro ⟨m', h⟩
        cases h
      · rintro ⟨_, h, hown', _⟩
        cases h
        cases hown.symm.trans hown'
    | true =>
      rw [if_pos rfl]
      constructor
      · rintro ⟨m', h⟩
        rw [Run.log_bind] at h
        exact ⟨e, rfl, hown, failureCode_eq_three.mp (Run.pure_eq_ok.mp h).1⟩
      · rintro ⟨_, h, _, hcode⟩
        cases h
        rw [failureCode_eq_three.mpr hcode]
        exact ⟨_, rfl⟩

/-! ## The exit code 3 -/

/-- The programs that the sources start for a project, where they are found. -/
def programs (s : Settings) : List Text := ["/bin/" ++ s.uvBinary, "/bin/" ++ s.pipBinary]

theorem failsFor_sources (s : Settings) :
    ∀ source ∈ (resolution s).sources, source.FailsFor (programs s) := by
  have hpip : [s.pipClient.path] ⊆ programs s := List.subset_cons_self _ _
  refine List.forall_mem_cons.mpr ⟨?_, List.forall_mem_cons.mpr ⟨?_, List.forall_mem_singleton.mpr ?_⟩⟩
  · exact (Uv.Projects.failsFor_source _).mono (List.cons_subset_cons _ (List.nil_subset _))
  · exact (Pipenv.failsFor_pipfiles _ _).failsFor_source.mono hpip
  · exact (Pip.failsFor_requirementsFiles _ _).failsFor_source.mono hpip

/-- The exit code of a first finding's error is the status that uv or pip ended with. -/
theorem attributed_of_stopsAt {directory : Text} {o : SourceOptions} {asked : List Source} {f : Finding}
    (h : StopsAt directory o List.head? (resolution s).sources m asked f m') (he : f.error = some e) :
    e.Attributed (programs s) := by
  obtain ⟨source, hsource, m₁, found, hanswers, hfirst⟩ := h.exists_answer
  exact (failsFor_sources s source hsource).findings directory o _ found m' hanswers f
    (List.mem_of_head? hfirst) e he

/-- A program that resolves with the sources ends with 3 exactly if there is an organization and either
nothing was found and the fallback's process ended with 3, or one project was asked for, and it was found
with an error that has the exit code 3. The error of a finding has no other exit code than the status that
uv or pip ended with. -/
theorem run_eq_three (huse : s.useSbomResolution = true) :
    ((∃ m', run s m = (.ok 3, m')) ↔ Begins s m ∧ s.org ≠ [] ∧
      ((resolution s).FindsNothing (fallback s) s.target s.resolutionOptions m ∨
        (resolution s).FindsFailing s.target s.resolutionOptions m)) ∧
    ∀ asked f e m₁, StopsAt s.target s.resolutionOptions.forSources List.head? (resolution s).sources m
      asked f m₁ → f.error = some e → e.Attributed (programs s) := by
  refine ⟨?_, fun asked f e m₁ hstops he => attributed_of_stopsAt hstops he⟩
  have hresolve : resolve s = (resolution s).run s.target s.resolutionOptions := if_pos huse
  constructor
  · rintro ⟨m', h⟩
    have hbegins := begins_of_run h (by decide) (by decide)
    rw [run_of_begins hbegins, hresolve] at h
    obtain ⟨e, hresult, _, hcode⟩ := ending_eq_three.mp ⟨m', h⟩
    have horg : s.org ≠ [] := fun hnone => by
      rw [Resolution.run_without_organization (r := resolution s) hnone] at hresult
      cases hresult
      cases hcode
    have hsolves : ∀ source ∈ (resolution s).sources, source.Solves := fun source hsource =>
      ((shipped_resolution s).sources source hsource).solves
    exact ⟨hbegins, horg, (exitCode?_run_eq_three horg (failsFor_sources s) hsolves rfl).mp
      ⟨e, _, Prod.ext hresult rfl, hcode⟩⟩
  · rintro ⟨hbegins, horg, h⟩
    rw [run_of_begins hbegins, hresolve]
    rcases h with h | h
    · obtain ⟨cause, m₁, hrun⟩ := run_of_findsNothing (r := resolution s) horg rfl h
      rw [hrun]
      exact ending_eq_three.mpr ⟨_, rfl, rfl, rfl⟩
    · obtain ⟨fault, cause, m₁, hrun, hcode⟩ := run_of_findsFailing (r := resolution s) horg h
      rw [hrun]
      exact ending_eq_three.mpr ⟨_, rfl, rfl, (Failure.exitCode?_caused rfl).trans hcode⟩

/-- Settings for one project, resolved with the sources. -/
def sbomSettings : Settings where
  org := "o"
  useSbomResolution := true

/-- A machine with a uv project that uv cannot export, for which it ends with 3. -/
def uvEndsWithThree : Machine where
  files := { tree := .directory [("uv.lock", .file [])] }
  programs := [("uv", [.ended 0 (Utf8.encode "uv 0.9.11") [], .ended 3 [] (Utf8.encode "boom")])]

/-- A machine without a project, where the fallback's program ends with 3. -/
def fallbackEndsWithThree : Machine where
  programs := [("snyk", [.ended 3 [] []])]

theorem run_eq_three_fallback :
    sbomSettings.useSbomResolution = true ∧ Begins sbomSettings fallbackEndsWithThree ∧
      ((resolution sbomSettings).FindsNothing (fallback sbomSettings) sbomSettings.target
          sbomSettings.resolutionOptions fallbackEndsWithThree ∨
        (resolution sbomSettings).FindsFailing sbomSettings.target sbomSettings.resolutionOptions
          fallbackEndsWithThree) := by
  have hrun := Run.exists_of_toOption (x := run sbomSettings) (m := fallbackEndsWithThree) (f := id)
    (b := 3) (by decide +kernel)
  obtain ⟨code, hrun, rfl⟩ := hrun
  obtain ⟨hbegins, _, hthree⟩ := (run_eq_three (s := sbomSettings) rfl).1.mp ⟨_, hrun⟩
  exact ⟨rfl, hbegins, hthree⟩

/-- The programs that a run started, in order. -/
def startedPrograms (m : Machine) : List Text :=
  m.journal.filterMap fun
    | .started args _ _ => args.head?
    | _ => none

/-- The source of uv projects for these settings. -/
def uvSource : Source :=
  Uv.Projects.source
    { client := { binary := sbomSettings.uvBinary }, service := sbomSettings.service,
      remoteUrl := sbomSettings.remoteRepoUrl }

/-- A project that is found and fails makes the program end with 3, and only uv was started. -/
theorem uv_status_three :
    uvSource ∈ (resolution sbomSettings).sources ∧
    (∃ found m₁, Resolution.Answers "." {} uvSource uvEndsWithThree found m₁ ∧
      found.map (fun f => (f.lockFile, f.error.isSome)) = [(Text.ofString "uv.lock", true)]) ∧
    ∃ m', run sbomSettings uvEndsWithThree = (.ok 3, m') ∧
      startedPrograms m' = ["/bin/uv", "/bin/uv"] := by
  refine ⟨List.mem_cons_self, ?_, ?_⟩
  · obtain ⟨found, hfind, hfound⟩ := Run.exists_of_toOption (x := uvSource.find "." {})
      (m := uvEndsWithThree.noting (.consulted "uv" "." {}))
      (f := fun fs => fs.map fun f => (f.lockFile, f.error.isSome))
      (b := [(Text.ofString "uv.lock", true)]) (by decide +kernel)
    exact ⟨found, _, hfind, hfound⟩
  · obtain ⟨_, hrun, rfl⟩ := Run.exists_of_toOption (x := run sbomSettings) (m := uvEndsWithThree)
      (f := id) (b := 3) (by decide +kernel)
    exact ⟨_, hrun, by decide +kernel⟩

end ManifestGraph.Program
