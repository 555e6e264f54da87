/-
  A resolution of all projects that is to fail fast. It ends at the first finding with an error, with an
  exit code of its own, and asks nothing more; if there is none, it does the same as one that is not to
  fail fast, but for what the fallback is told (`run_failFast`).
-/
import ManifestGraph.Proofs.Failure.ExitCode
import ManifestGraph.Proofs.Resolution.Accounts
import ManifestGraph.Proofs.Resolution.Asking
import ManifestGraph.Proofs.Resolution.Breakdown

namespace ManifestGraph

/-! ## Up to what the fallback is told -/

/-- The options of a resolution that does not fail fast. -/
def ResolutionOptions.patient (o : ResolutionOptions) : ResolutionOptions := { o with failFast := false }

/-- The event, had the fallback been told not to fail fast. -/
def Event.patient : Event → Event
  | .fellBack directory o => .fellBack directory o.patient
  | e => e

/-- The machine, had the fallback been told not to fail fast. -/
def Machine.patient (m : Machine) : Machine := { m with journal := m.journal.map Event.patient }

theorem Machine.patient_noting (m : Machine) (e : Event) :
    (m.noting e).patient = m.patient.noting e.patient := by
  rw [patient, noting, List.map_append]
  rfl

theorem Machine.patient_noting_congr {m m' : Machine} (h : m.patient = m'.patient) (e : Event) :
    (m.noting e).patient = (m'.noting e).patient := by
  rw [patient_noting, patient_noting, h]

/-- The same result, and the same machine but for what the fallback was told. -/
def Alike {α : Type} (x y : Except Failure α × Machine) : Prop :=
  x.1 = y.1 ∧ x.2.patient = y.2.patient

theorem Alike.refl {α : Type} (x : Except Failure α × Machine) : Alike x x := ⟨rfl, rfl⟩

variable {α β : Type} {m m' : Machine}

/-- Alike results go on alike if what comes next does. -/
theorem Alike.bind {x y : Run α} {f g : α → Run β} (h : Alike (x m) (y m'))
    (hnext : ∀ a m m', m.patient = m'.patient → Alike (f a m) (g a m')) :
    Alike ((x >>= f) m) ((y >>= g) m') := by
  rw [Run.bind_eq, Run.bind_eq]
  rcases hx : x m with ⟨result, m₁⟩
  rcases hy : y m' with ⟨result', m₂⟩
  rw [hx, hy] at h
  obtain ⟨rfl, hmachine⟩ := h
  cases result with
  | error e => exact ⟨rfl, hmachine⟩
  | ok a => exact hnext a m₁ m₂ hmachine

/-- What the same action makes of one machine is alike if what comes next is. -/
theorem Alike.bind_left {x : Run α} {f g : α → Run β} (hnext : ∀ a m, Alike (f a m) (g a m)) :
    Alike ((x >>= f) m) ((x >>= g) m) := by
  rw [Run.bind_eq, Run.bind_eq]
  rcases x m with ⟨e | a, m₁⟩
  · exact .refl _
  · exact hnext a m₁

namespace Resolution

variable {r : Resolution} {directory : Text} {o : ResolutionOptions} {f : Finding} {e : Failure}
  {asked sources : List Source}

/-- No source that is asked finds an error: neither the first one nor, if those before it answered, a
later one. -/
def FindsNoError (directory : Text) (o : SourceOptions) (sources : List Source) (m : Machine) : Prop :=
  ∀ asked answers m', asked <+: sources → InTurn (Answers directory o) asked m answers m' →
    ∀ f ∈ answers.flatten, f.error = none

theorem allFindings_patient {o : SourceOptions} (h : FindsNoError directory o sources m) :
    allFindings directory o true sources m = allFindings directory o false sources m := by
  induction sources generalizing m with
  | nil => rfl
  | cons s sources ih =>
    rcases hask : ask s directory o m with ⟨e | found, m₁⟩
    · rw [allFindings_cons, allFindings_cons, Run.bind_eq, Run.bind_eq, hask]
    have hanswers := ask_eq_ok.mp hask
    have hfound : ∀ f ∈ found, f.error = none := by
      have hall := h [s] [found] m₁ ⟨sources, rfl⟩ (.cons hanswers .nil)
      rwa [List.flatten_singleton] at hall
    have hrest : FindsNoError directory o sources m₁ := by
      intro asked answers m' hinit hturn
      have hall := h (s :: asked) (found :: answers) m' ((List.prefix_cons_inj s).mpr hinit)
        (.cons hanswers hturn)
      rw [List.flatten_cons] at hall
      exact (List.forall_mem_append.mp hall).2
    rw [allFindings_cons_of_passed hanswers fun _ => hfound,
      allFindings_cons_of_passed hanswers fun _ => hfound, Run.bind_eq, Run.bind_eq, ih hrest]

/-- What the fallback adds is alike if the fallback answers alike. -/
theorem askFallback_alike {findings : List Finding}
    {fallback : Text → ResolutionOptions → Run (List Output)}
    (h : Alike
      (r.fallback directory (forFallback o findings)
        (m.noting (.fellBack directory (forFallback o findings))))
      (fallback directory (forFallback o findings).patient
        (m.noting (.fellBack directory (forFallback o findings).patient)))) :
    Alike (r.askFallback directory o findings m)
      (({ r with fallback } : Resolution).askFallback directory o.patient findings m) := by
  have hoptions : forFallback o.patient findings = (forFallback o findings).patient := rfl
  rw [askFallback, askFallback, hoptions, Run.note_bind, Run.note_bind]
  refine Alike.bind ⟨congrArg Except.ok h.1, h.2⟩ fun result m m' hmachine => ?_
  cases result with
  | ok outputs => exact ⟨rfl, hmachine⟩
  | error e =>
    dsimp only
    cases e.meansNoProjects with
    | false => exact ⟨rfl, hmachine⟩
    | true =>
      cases findings with
      | nil => exact ⟨rfl, hmachine⟩
      | cons f findings =>
        exact ⟨rfl, Machine.patient_noting_congr hmachine _⟩

theorem reported_patient_congr {ps : List ProblemProject} {total : Nat} (h : m.patient = m'.patient) :
    (reported ps total m).patient = (reported ps total m').patient := by
  unfold reported
  split
  next => exact h
  next => exact Machine.patient_noting_congr h _

/-- The second fallback answers, told not to fail fast, as the first one does, told to. -/
def FallbacksAlike (fallback fallback' : Text → ResolutionOptions → Run (List Output)) : Prop :=
  ∀ (directory : Text) (o : ResolutionOptions) (m : Machine), o.failFast = true →
    Alike (fallback directory o (m.noting (.fellBack directory o)))
      (fallback' directory o.patient (m.noting (.fellBack directory o.patient)))

/-- If no source finds an error, failing fast changes nothing but what the fallback is told. -/
theorem run_alike {fallback : Text → ResolutionOptions → Run (List Output)}
    (hall : o.allProjects = true) (hfast : o.failFast = true)
    (hnone : FindsNoError directory o.forSources r.sources m)
    (hfallback : FallbacksAlike r.fallback fallback) :
    Alike (r.run directory o m)
      (({ r with fallback } : Resolution).run directory o.patient m) := by
  by_cases horg : r.organization = []
  · rw [run_without_organization horg, run_without_organization (r := { r with fallback }) horg]
    exact .refl _
  have hcollect : ({ r with fallback } : Resolution).collect directory o.patient m =
      r.collect directory o m := by
    have hall' : o.patient.allProjects = true := hall
    rw [collect, collect, if_pos hall, if_pos hall', hfast]
    exact (allFindings_patient hnone).symm
  rw [run_eq horg, run_eq (r := { r with fallback }) horg, Run.bind_eq, Run.bind_eq, hcollect]
  rcases r.collect directory o m with ⟨e | findings, m₁⟩
  · exact .refl _
  dsimp only
  have hresolved : ({ r with fallback } : Resolution).resolved findings = r.resolved findings :=
    resolved_congr rfl
  rw [hresolved]
  refine Alike.bind_left fun projects m₂ => ?_
  have hwrite : write projects o.patient = write projects o := rfl
  rw [hwrite]
  refine Alike.bind_left fun own m₂ => ?_
  have hasked : (findings.isEmpty || o.allProjects) = true := by rw [hall, Bool.or_true]
  have hasked' : (findings.isEmpty || o.patient.allProjects) = true := hasked
  rw [if_pos hasked, if_pos hasked']
  refine Alike.bind (askFallback_alike (hfallback directory _ m₂ hfast)) fun further m m' hmachine => ?_
  rw [Run.bind_eq, Run.bind_eq, warn_eq, warn_eq]
  exact ⟨rfl, reported_patient_congr hmachine⟩

/-- With an organization, a resolution that is to fail fast ends at the first finding with an error. It
fails with an exit code of its own, which names the finding and is chained to the error, and neither later
sources nor the converter or the fallback are asked, nor is there a warning: the machine is as the source
with the finding left it. If there is no such finding, the resolution does what it would do otherwise, but
for what the fallback is told. -/
theorem run_failFast (hall : o.allProjects = true) (hfast : o.failFast = true) :
    (r.organization ≠ [] → ∀ asked f e m',
      StopsAt directory o.forSources firstFailed r.sources m asked f m' → f.error = some e →
      ∃ why failure, failure = .caused (.exit 2 ("Failed to scan " ++ f.lockFile ++ ": " ++ why)) e ∧
        failure.exitCode? = some 2 ∧
        r.run directory o m = (.error failure, m') ∧
        ((∀ s ∈ asked, s.Discreet) →
          m'.acts = m.acts ++ asked.map (questionTo directory o.forSources))) ∧
    (FindsNoError directory o.forSources r.sources m →
      ∀ fallback, FallbacksAlike r.fallback fallback →
        Alike (r.run directory o m)
          (({ r with fallback } : Resolution).run directory { o with failFast := false } m)) := by
  refine ⟨fun horg asked f e m' hstops he => ?_, fun hnone fallback => run_alike hall hfast hnone⟩
  have hcollect : r.collect directory o m = (.error (e.failFast f.lockFile), m') := by
    rw [collect, if_pos hall, hfast]
    exact allFindings_of_stopsAt hstops he
  exact ⟨_, e.failFast f.lockFile, rfl, Failure.exitCode?_failFast f.lockFile e,
    (run_eq_error horg).mpr (.collecting hcollect), hstops.acts⟩

/-! ## A failure after good findings -/

/-- A finding whose error would report an exit code of its own. -/
def codedFinding : Finding where
  lockFile := "uv.lock"
  error := some (.of .noSupportedProjects)

/-- Three sources, the second of which finds an error after an SBOM. -/
def failingSecond : Resolution :=
  { mixed with sources := [
    ⟨"pip", fun _ _ => pure [graphFinding]⟩,
    ⟨"uv", fun _ _ => pure [sbomFinding, codedFinding]⟩,
    ⟨"pipenv", fun _ _ => pure [brokenFinding]⟩] }

/-- A source that finds no error. -/
def calm : Resolution := { mixed with sources := [⟨"pip", fun _ _ => pure [graphFinding]⟩] }

def failingFast : ResolutionOptions := { allProjects := true, failFast := true }

theorem findsNoError_calm (directory : Text) (o : SourceOptions) (m : Machine) :
    FindsNoError directory o calm.sources m := by
  intro asked answers m' hinit hturn f hf
  obtain ⟨found, hfound, hf⟩ := List.mem_flatten.mp hf
  have hgraph : ∀ found ∈ answers, found = [graphFinding] := by
    refine hturn.forall_mem fun s hs found m₁ m₂ hanswers => ?_
    cases List.mem_singleton.mp (hinit.mem hs)
    cases hanswers
    rfl
  rw [hgraph found hfound] at hf
  cases List.mem_singleton.mp hf
  rfl

theorem fallbacksAlike_calm : FallbacksAlike calm.fallback calm.fallback := by
  intro directory o m _
  refine ⟨rfl, ?_⟩
  show (m.noting (.fellBack directory o)).patient = (m.noting (.fellBack directory o.patient)).patient
  rw [Machine.patient_noting, Machine.patient_noting]
  rfl

theorem run_failFast_failingSecond :
    (∃ why m', failingSecond.run "." failingFast {} = (.error (.caused
          (.exit 2 ("Failed to scan " ++ codedFinding.lockFile ++ ": " ++ why)) (.of .noSupportedProjects)), m') ∧
        m'.acts = [.consulted "pip" "." failingFast.forSources,
          .consulted "uv" "." failingFast.forSources]) ∧
      Alike (calm.run "." failingFast {}) (calm.run "." { allProjects := true } {}) := by
  constructor
  · have hstops : StopsAt "." failingFast.forSources firstFailed failingSecond.sources {} _ codedFinding _ :=
      .later rfl rfl (.here rfl rfl)
    obtain ⟨why, _, rfl, _, hrun, hacts⟩ :=
      (run_failFast (rfl : failingFast.allProjects = true) rfl).1 (List.cons_ne_nil _ _) _ _ _ _ hstops rfl
    refine ⟨why, _, hrun, hacts ?_⟩
    exact List.forall_mem_cons.mpr ⟨fun _ _ => Run.discreet_pure _,
      List.forall_mem_singleton.mpr fun _ _ => Run.discreet_pure _⟩
  · exact (run_failFast (rfl : failingFast.allProjects = true) rfl).2 (findsNoError_calm _ _ _)
      calm.fallback fallbacksAlike_calm

/-- The same sources, but no organization. -/
def failingNameless : Resolution := { failingSecond with organization := [] }

/-- Without an organization it is not the finding with an error that the resolution ends at. -/
theorem failFast_nameless :
    (∃ asked m', StopsAt "." failingFast.forSources firstFailed failingNameless.sources {} asked
      codedFinding m') ∧
    failingNameless.run "." failingFast {} = (.error Failure.withoutOrganization,
      ({} : Machine).noting (.logged .error .failures "failed to determine org id")) ∧
    Failure.withoutOrganization.exitCode? = none :=
  ⟨⟨_, _, .later rfl rfl (.here rfl rfl)⟩, run_without_organization rfl, rfl⟩

end Resolution
end ManifestGraph
