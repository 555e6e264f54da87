/-
  A resolution of one project. It makes what it makes of the first finding of the first source that has
  one (`run_of_stopsAt`); the rest of that answer, later sources and the fallback have no part in it. If
  there is no finding, it makes what it makes of the fallback's answer (`run_of_nothing`). Both are in
  `run_single`, with what two resolutions that agree up to the first finding have in common.
-/
import ManifestGraph.Proofs.Resolution.Accounts
import ManifestGraph.Proofs.Resolution.Asking
import ManifestGraph.Proofs.Resolution.Breakdown

namespace ManifestGraph.Resolution

variable {r r' : Resolution} {directory : Text} {o : ResolutionOptions} {m m' m₁ m₂ : Machine}
  {f : Finding} {e : Failure} {asked : List Source} {answers : List (List Finding)}

/-! ## What is made of the first finding -/

/-- What a resolution makes of its one finding. -/
def ofFinding (r : Resolution) (o : ResolutionOptions) (f : Finding) : Run (List Output) :=
  match f.error with
  | some e => Run.failFrom (.resolution (.findingFailed f.lockFile e.message)) e
  | none => r.graphsOf f >>= fun graphs => Run.ofExcept (write (graphs.map fun g => ⟨f, g⟩) o)

/-- A resolution of one project makes what it makes of the first finding. -/
theorem run_of_stopsAt (horg : r.organization ≠ []) (hsingle : o.allProjects = false)
    (h : StopsAt directory o.forSources List.head? r.sources m asked f m₁) :
    r.run directory o m = r.ofFinding o f m₁ := by
  rw [run_eq horg, Run.bind_eq, collect, hsingle, if_neg Bool.false_ne_true, firstFinding_of_stopsAt h,
    chosen, ofFinding]
  cases hf : f.error with
  | some e => rfl
  | none =>
    have hproblems : problems [f] [] = [] := by
      rw [problems, problemsOf, List.filterMap_cons, hf]
      rfl
    dsimp only
    rw [resolved, hf]
    dsimp only
    rw [bind_assoc]
    refine congrFun (bind_congr fun graphs => funext fun m => ?_) m₁
    have hrest : (Run.ofExcept (write ((graphs.map fun g => ⟨f, g⟩) ++ []) o) >>= fun own =>
        warn (problems [f] []) 1 >>= fun _ => pure (own ++ [])) m =
          Run.ofExcept (write (graphs.map fun g => ⟨f, g⟩) o) m := by
      rw [List.append_nil, Run.bind_eq, Run.ofExcept_eq]
      cases write (graphs.map fun g => ⟨f, g⟩) o with
      | error e => rfl
      | ok own =>
        dsimp only
        rw [Run.bind_eq, warn_eq, hproblems, List.append_nil]
        rfl
    exact hrest

/-- The converter answers for the finding alike, whichever source was asked last. -/
def ConvertsAlike (r : Resolution) (f : Finding) (m m' : Machine) : Prop :=
  ∀ convert sbom, r.convert = some convert → f.sbom = some sbom →
    (convert f (m.noting (.converted f.lockFile (some sbom)))).1 =
      (convert f (m'.noting (.converted f.lockFile (some sbom)))).1

/-- The result depends on the finding and on the converter only. -/
theorem ofFinding_congr (hconvert : r.convert = r'.convert) (halike : r.ConvertsAlike f m m') :
    (r.ofFinding o f m).1 = (r'.ofFinding o f m').1 := by
  rw [ofFinding, ofFinding, ← graphsOf_congr hconvert]
  cases hf : f.error with
  | some e => rfl
  | none =>
    have hgraphs : (r.graphsOf f m).1 = (r.graphsOf f m').1 := by
      unfold graphsOf
      cases f.graph with
      | some g => rfl
      | none =>
        cases hsbom : f.sbom with
        | none => rfl
        | some sbom =>
          cases hc : r.convert with
          | none => rfl
          | some convert =>
            have hsame := halike convert sbom hc hsbom
            dsimp only
            rw [Run.note_bind, Run.note_bind, Run.attempt_bind, Run.attempt_bind, hsame]
            cases (convert f (m'.noting (.converted f.lockFile (some sbom)))).1 <;> rfl
    dsimp only
    rw [Run.bind_eq, Run.bind_eq]
    rcases hrun : r.graphsOf f m with ⟨result, m₁⟩
    rcases hrun' : r.graphsOf f m' with ⟨result', m₂⟩
    rw [hrun, hrun'] at hgraphs
    cases hgraphs
    cases result with
    | error e => rfl
    | ok graphs =>
      dsimp only
      rw [Run.ofExcept_eq, Run.ofExcept_eq]

/-- The conversion that is asked for, if the finding needs one. -/
def conversionOf (r : Resolution) (f : Finding) : List Event :=
  match f.error, f.graph, f.sbom, r.convert with
  | none, none, some sbom, some _ => [.converted f.lockFile (some sbom)]
  | _, _, _, _ => []

theorem acts_ofFinding (hdiscreet : ∀ convert, r.convert = some convert → (convert f).Discreet) :
    (r.ofFinding o f m).2.acts = m.acts ++ r.conversionOf f := by
  have hnil : m.acts = m.acts ++ [] := (List.append_nil _).symm
  rw [ofFinding, conversionOf]
  cases hf : f.error with
  | some e => exact hnil
  | none =>
    dsimp only
    rw [Run.machine_bind_ofExcept, graphsOf]
    cases hgraph : f.graph with
    | some g => exact hnil
    | none =>
      cases hsbom : f.sbom with
      | none => exact hnil
      | some sbom =>
        cases hc : r.convert with
        | none => exact hnil
        | some convert =>
          have hacts := hdiscreet convert hc (m.noting (.converted f.lockFile (some sbom)))
          rw [Machine.acts_noting rfl] at hacts
          dsimp only
          rw [Run.note_bind, Run.attempt_bind]
          generalize convert f (m.noting (.converted f.lockFile (some sbom))) = answer at hacts
          obtain ⟨result, m'⟩ := answer
          cases result <;> exact hacts

/-! ## What is made of nothing -/

/-- What a resolution without findings makes of the fallback's answer. -/
def ofFallback : Except Failure (List Output) × Machine → Except Failure (List Output) × Machine
  | (.ok outputs, m) => (.ok (goodOutputs outputs), reported (outputProblems outputs) outputs.length m)
  | (.error e, m) => (.error (fallbackFailure e), m)

/-- What the fallback is asked for if nothing was found. -/
def unfounded (o : ResolutionOptions) : ResolutionOptions :=
  { o with effectiveGraph := false, effectiveGraphWithErrors := true }

/-- A resolution that finds nothing makes what it makes of the fallback's answer. -/
theorem run_of_nothing (horg : r.organization ≠ [])
    (h : InTurn (Answers directory o.forSources) r.sources m answers m₁) (hnothing : answers.flatten = []) :
    r.run directory o m =
      ofFallback (r.fallback directory (unfounded o) (m₁.noting (.fellBack directory (unfounded o)))) := by
  have hcollect := collect_eq_nil.mpr ⟨answers, h, hnothing⟩
  have hresolved : r.resolved [] m₁ = (.ok [], m₁) := rfl
  have hwritable := unwritable?_nil o
  rcases hfallback : r.fallback directory (unfounded o)
    (m₁.noting (.fellBack directory (unfounded o))) with ⟨e | outputs, m₂⟩
  · exact (run_eq_error horg).mpr
      (.fallingBack hcollect hresolved hwritable (Or.inl rfl) (.failed hfallback fun _ => rfl))
  · refine run_eq_ok.mpr ⟨horg, [], m₁, [], m₁, outputs, m₂, hcollect, hresolved, hwritable,
      .asked (Or.inl rfl) (.answered hfallback), rfl, ?_⟩
    rw [List.length_nil, Nat.zero_add]
    rfl

/-- After nothing was found, the fallback is asked once, and at most one warning follows. -/
theorem acts_of_nothing (hsources : ∀ s ∈ r.sources, s.Discreet)
    (hfallback : ∀ directory o, (r.fallback directory o).Discreet)
    (h : InTurn (Answers directory o.forSources) r.sources m answers m₁) :
    ∃ words, (ofFallback (r.fallback directory (unfounded o)
        (m₁.noting (.fellBack directory (unfounded o))))).2.acts =
          m.acts ++ r.sources.map (questionTo directory o.forSources) ++
            .fellBack directory (unfounded o) :: words ∧
      ∀ e ∈ words, ∃ message, e = .logged .warning .resolution message := by
  have hacts := hfallback directory (unfounded o) (m₁.noting (.fellBack directory (unfounded o)))
  rw [Machine.acts_noting rfl, acts_of_inTurn hsources h] at hacts
  generalize r.fallback directory (unfounded o) (m₁.noting (.fellBack directory (unfounded o))) =
    answer at hacts
  obtain ⟨e | outputs, m₂⟩ := answer
  · exact ⟨[], hacts, List.forall_mem_nil _⟩
  · rw [ofFallback, reported]
    cases (outputProblems outputs).isEmpty with
    | true => exact ⟨[], hacts, List.forall_mem_nil _⟩
    | false =>
      let message := ProblemProject.warning (outputProblems outputs) outputs.length
      refine ⟨[.logged .warning .resolution message], ?_, List.forall_mem_singleton.mpr ⟨message, rfl⟩⟩
      rw [if_neg Bool.false_ne_true, Machine.acts_noting rfl, hacts, List.append_assoc]
      rfl

/-! ## The rest has no part in it -/

/-- Two resolutions, with one organization and one converter, ask the same sources before the first
finding, which is the same in both, although the answers that it stands in may differ. -/
structure AgreeOn (f : Finding) (directory : Text) (o : SourceOptions) (m : Machine)
    (r r' : Resolution) (before : List Source) (s s' : Source) (m₁ m₁' : Machine) : Prop where
  organization : r.organization = r'.organization
  convert : r.convert = r'.convert
  name : s.name = s'.name
  left : StopsAt directory o List.head? r.sources m (before ++ [s]) f m₁
  right : StopsAt directory o List.head? r'.sources m (before ++ [s']) f m₁'
  convertsAlike : r.ConvertsAlike f m₁ m₁'

/-- Up to what is made of the finding, both do the same. -/
theorem AgreeOn.acts {before : List Source} {s s' : Source} {m₁' : Machine}
    (h : AgreeOn f directory o.forSources m r r' before s s' m₁ m₁')
    (hsources : ∀ t ∈ before ++ [s, s'], t.Discreet)
    (hconverter : ∀ convert, r.convert = some convert → (convert f).Discreet) :
    (r'.ofFinding o f m₁').2.acts = (r.ofFinding o f m₁).2.acts := by
  obtain ⟨hbefore, hlast⟩ := List.forall_mem_append.mp hsources
  obtain ⟨hs, hs'⟩ := List.forall_mem_cons.mp hlast
  have hleft := List.forall_mem_append.mpr ⟨hbefore, List.forall_mem_singleton.mpr hs⟩
  have hright := List.forall_mem_append.mpr ⟨hbefore, hs'⟩
  have hasked : (before ++ [s']).map (questionTo directory o.forSources) =
      (before ++ [s]).map (questionTo directory o.forSources) := by
    rw [List.map_append, List.map_append, List.map_singleton, List.map_singleton, questionTo, questionTo,
      h.name]
  rw [acts_ofFinding hconverter, acts_ofFinding (h.convert ▸ hconverter), h.left.acts hleft,
    h.right.acts hright, hasked, conversionOf, conversionOf, h.convert]

/-- Two resolutions that agree up to the first finding give the same and do the same. -/
theorem AgreeOn.run_eq {before : List Source} {s s' : Source} {m₁' : Machine}
    (hsingle : o.allProjects = false)
    (h : AgreeOn f directory o.forSources m r r' before s s' m₁ m₁') :
    (r.run directory o m).1 = (r'.run directory o m).1 ∧
      ((∀ t ∈ before ++ [s, s'], t.Discreet) →
        (∀ convert, r.convert = some convert → (convert f).Discreet) →
        (r.run directory o m).2.acts = (r'.run directory o m).2.acts) := by
  by_cases horg : r.organization = []
  · rw [run_without_organization horg, run_without_organization (h.organization ▸ horg)]
    exact ⟨rfl, fun _ _ => rfl⟩
  · rw [run_of_stopsAt horg hsingle h.left, run_of_stopsAt (h.organization ▸ horg) hsingle h.right]
    exact ⟨ofFinding_congr h.convert h.convertsAlike, fun hsources hconverter =>
      (h.acts hsources hconverter).symm⟩

/-- Two resolutions of one project that agree up to the first finding give the same, whatever else the
sources and the fallback would find, and ask the same. With an organization, a resolution makes what it
makes of that finding, and fails with a failure chained to the error of the finding if it has one; the
source with the finding is the last one that is asked, the fallback is not, and there is no warning. If
there is no finding, the resolution makes what it makes of the answer of the fallback, which is asked once,
with the options as they are but for those on how graphs are printed. -/
theorem run_single (hsingle : o.allProjects = false) :
    (∀ r' before s s' f m₁ m₁', AgreeOn f directory o.forSources m r r' before s s' m₁ m₁' →
      (r.run directory o m).1 = (r'.run directory o m).1 ∧
      ((∀ t ∈ before ++ [s, s'], t.Discreet) →
        (∀ convert, r.convert = some convert → (convert f).Discreet) →
        (r.run directory o m).2.acts = (r'.run directory o m).2.acts)) ∧
    (r.organization ≠ [] → ∀ asked f m₁,
      StopsAt directory o.forSources List.head? r.sources m asked f m₁ →
      r.run directory o m = r.ofFinding o f m₁ ∧
      (∀ e, f.error = some e → r.run directory o m =
        (.error (.caused (.resolution (.findingFailed f.lockFile e.message)) e), m₁)) ∧
      ((∀ s ∈ asked, s.Discreet) →
        (∀ convert, r.convert = some convert → (convert f).Discreet) →
        (r.run directory o m).2.acts =
          m.acts ++ asked.map (questionTo directory o.forSources) ++ r.conversionOf f)) ∧
    (r.organization ≠ [] → ∀ answers m₁,
      InTurn (Answers directory o.forSources) r.sources m answers m₁ → answers.flatten = [] →
      r.run directory o m = ofFallback (r.fallback directory
        { o with effectiveGraph := false, effectiveGraphWithErrors := true }
        (m₁.noting (.fellBack directory
          { o with effectiveGraph := false, effectiveGraphWithErrors := true }))) ∧
      ((∀ s ∈ r.sources, s.Discreet) → (∀ directory o, (r.fallback directory o).Discreet) →
        ∃ words, (r.run directory o m).2.acts =
            m.acts ++ r.sources.map (questionTo directory o.forSources) ++
              .fellBack directory { o with effectiveGraph := false, effectiveGraphWithErrors := true } ::
                words ∧
          ∀ e ∈ words, ∃ message, e = .logged .warning .resolution message)) := by
  refine ⟨fun r' before s s' f m₁ m₁' h => h.run_eq hsingle, fun horg asked f m₁ h => ?_,
    fun horg answers m₁ h hnothing => ?_⟩
  · have hrun := run_of_stopsAt horg hsingle h
    refine ⟨hrun, fun e he => ?_, fun hsources hconverter => ?_⟩
    · rw [hrun, ofFinding, he]
      rfl
    · rw [hrun, acts_ofFinding hconverter, h.acts hsources]
  · rw [run_of_nothing horg h hnothing]
    exact ⟨rfl, fun hsources hfallback => acts_of_nothing hsources hfallback h⟩

/-! ## Findings beside the first one -/

def silentSource : Source := ⟨"uv", fun _ _ => pure []⟩

/-- A source whose first finding is an SBOM, and that goes on to find an error. -/
def longAnswer : Source := ⟨"pip", fun _ _ => pure [sbomFinding, brokenFinding]⟩

/-- The source of the same name that finds the SBOM only. -/
def shortAnswer : Source := ⟨"pip", fun _ _ => pure [sbomFinding]⟩

def longResolution : Resolution := { mixed with sources := [silentSource, longAnswer] }

/-- Another source comes later, and the fallback fails. -/
def shortResolution : Resolution :=
  { mixed with
    sources := [silentSource, shortAnswer, longAnswer]
    fallback := fun _ _ => throw (.of .noSupportedProjects) }

theorem agreeOn_sbomFinding : ∃ m₁ m₁', AgreeOn sbomFinding "." {} {} longResolution shortResolution
    [silentSource] longAnswer shortAnswer m₁ m₁' :=
  ⟨_, _, rfl, rfl, rfl, .later rfl rfl (.here rfl rfl), .later rfl rfl (.here rfl rfl),
    fun convert sbom hconvert _ => by cases hconvert; rfl⟩

theorem discreet_answers : ∀ s ∈ [silentSource, longAnswer, shortAnswer], s.Discreet := by
  refine List.forall_mem_cons.mpr ⟨fun _ _ => Run.discreet_pure _, ?_⟩
  exact List.forall_mem_cons.mpr ⟨fun _ _ => Run.discreet_pure _,
    List.forall_mem_singleton.mpr fun _ _ => Run.discreet_pure _⟩

/-- Nothing is found, neither by the source nor by the fallback. -/
def silentResolution : Resolution :=
  { mixed with sources := [silentSource], fallback := fun _ _ => throw (.of .noSupportedProjects) }

theorem run_single_sbom :
    ((longResolution.run "." {} {}).1 = (shortResolution.run "." {} {}).1 ∧
      (longResolution.run "." {} {}).2.acts = (shortResolution.run "." {} {}).2.acts) ∧
    (longResolution.run "." {} {}).2.acts =
      [.consulted "uv" "." {}, .consulted "pip" "." {}, .converted "lib/uv.lock" sbomFinding.sbom] ∧
    ∃ words, (silentResolution.run "." {} {}).2.acts =
        .consulted "uv" "." {} :: .fellBack "." { effectiveGraphWithErrors := true } :: words ∧
      ∀ e ∈ words, ∃ message, e = .logged .warning .resolution message := by
  obtain ⟨m₁, m₁', hagree⟩ := agreeOn_sbomFinding
  have hconverter : ∀ convert, longResolution.convert = some convert →
      (convert sbomFinding).Discreet := fun _ h => by cases h; exact Run.discreet_pure _
  have hsilent : InTurn (Answers "." ({} : ResolutionOptions).forSources) silentResolution.sources {}
      [[]] _ := .cons rfl .nil
  obtain ⟨hresult, hacts⟩ := (run_single (o := {}) rfl).1 _ _ _ _ _ _ _ hagree
  obtain ⟨_, _, hasked⟩ := (run_single (o := {}) rfl).2.1 (List.cons_ne_nil _ _) _ _ _ hagree.left
  obtain ⟨_, hfallback⟩ := (run_single (o := {}) rfl).2.2 (List.cons_ne_nil _ _) _ _ hsilent rfl
  refine ⟨⟨hresult, hacts discreet_answers hconverter⟩, hasked ?_ hconverter, hfallback ?_ ?_⟩
  · exact fun s hs => discreet_answers s (List.mem_append_left [shortAnswer] hs)
  · exact List.forall_mem_singleton.mpr fun _ _ => Run.discreet_pure _
  · exact fun _ _ _ => rfl

/-- The first finding has an error, and a later one has none. -/
def failingNamelessFirst : Resolution :=
  { mixed with
    sources := [silentSource, ⟨"pip", fun _ _ => pure [brokenFinding, graphFinding]⟩]
    organization := [] }

/-- Without an organization it is not the error of the first finding that the resolution fails with. -/
theorem single_nameless :
    (∃ asked m', StopsAt "." {} List.head? failingNamelessFirst.sources {} asked brokenFinding m') ∧
    brokenFinding.error ≠ none ∧
    failingNamelessFirst.run "." {} {} = (.error Failure.withoutOrganization,
      ({} : Machine).noting (.logged .error .failures "failed to determine org id")) :=
  ⟨⟨_, _, .later rfl rfl (.here rfl rfl)⟩, nofun, run_without_organization rfl⟩

end ManifestGraph.Resolution
