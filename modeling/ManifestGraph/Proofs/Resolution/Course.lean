/-
  The course of a resolution. Sources are asked and SBOMs converted one after the other (`InTurn`), the
  graphs are written (`write_eq_ok`), then the fallback is asked (`FallsBack`) and the problems are reported.
  Each stage ends well exactly if its steps do, and so does the resolution as a whole (`run_eq_ok`).
-/
import ManifestGraph.Proofs.Graph.Document
import ManifestGraph.Proofs.Machine
import ManifestGraph.Resolution
import Mathlib.Data.List.Forall2

namespace ManifestGraph

/-- Some things, taken in turn, each give something and leave the machine to the next. -/
inductive InTurn (R : α → Machine → β → Machine → Prop) :
    List α → Machine → List β → Machine → Prop where
  | nil {m : Machine} : InTurn R [] m [] m
  | cons {a : α} {as : List α} {b : β} {bs : List β} {m m₁ m₂ : Machine}
      (head : R a m b m₁) (tail : InTurn R as m₁ bs m₂) : InTurn R (a :: as) m (b :: bs) m₂

/-- Each thing gave what it did on some machine. -/
theorem InTurn.forall₂ {R : α → Machine → β → Machine → Prop} {as : List α} {bs : List β}
    {m m' : Machine} (h : InTurn R as m bs m') :
    List.Forall₂ (fun a b => ∃ m m', R a m b m') as bs := by
  induction h with
  | nil => exact .nil
  | cons head _ ih => exact .cons ⟨_, _, head⟩ ih

/-- What each thing gives has a property if it has it on every machine. -/
theorem InTurn.forall_mem {R : α → Machine → β → Machine → Prop} {P : β → Prop} {as : List α}
    {bs : List β} {m m' : Machine} (h : InTurn R as m bs m')
    (hR : ∀ a ∈ as, ∀ b m m', R a m b m' → P b) : ∀ b ∈ bs, P b := by
  induction h with
  | nil => exact List.forall_mem_nil _
  | cons head _ ih =>
    obtain ⟨hhead, htail⟩ := List.forall_mem_cons.mp hR
    exact List.forall_mem_cons.mpr ⟨hhead _ _ _ head, ih htail⟩

namespace Resolution

variable {r : Resolution} {directory : Text} {o : ResolutionOptions} {m m' m₁ : Machine}
  {f : Finding} {findings found : List Finding} {graphs : List DependencyGraph} {reason : Reason}
  {raw : Failure} {outputs further : List Output}

/-! ## Asking the sources -/

/-- What a source finds once it is noted that it was asked. -/
def Answers (directory : Text) (o : SourceOptions) (s : Source) (m : Machine) (found : List Finding)
    (m' : Machine) : Prop :=
  s.find directory o (m.noting (.consulted s.name directory o)) = (.ok found, m')

section Sources

variable {o : SourceOptions} {s : Source} {sources : List Source}

theorem ask_eq_ok : ask s directory o m = (.ok found, m') ↔ Answers directory o s m found m' := by
  rw [ask, Run.note_bind, Answers]
  exact Run.attempt_bind_eq_ok (fun _ _ => rfl) fun _ _ => ⟨_, rfl⟩

theorem stopAtError_eq_ok {u : Unit} :
    stopAtError findings m = (.ok u, m') ↔ (∀ f ∈ findings, f.error = none) ∧ m = m' := by
  induction findings with
  | nil => exact ⟨fun h => by cases h; exact ⟨List.forall_mem_nil _, rfl⟩, fun ⟨_, h⟩ => by rw [h]; rfl⟩
  | cons f findings ih =>
    rw [stopAtError, List.forall_mem_cons]
    cases hf : f.error with
    | none => rw [ih]; exact ⟨fun h => ⟨⟨rfl, h.1⟩, h.2⟩, fun h => ⟨h.1.2, h.2⟩⟩
    | some e => exact ⟨fun h => (nomatch h), fun h => (nomatch h.1.1)⟩

/-- The check that is made only if the first error is to stop the run. -/
theorem check_eq_ok {failFast : Bool} {u : PUnit} :
    (if failFast = true then stopAtError found else pure PUnit.unit : Run PUnit) m = (.ok u, m') ↔
      (failFast = true → ∀ f ∈ found, f.error = none) ∧ m = m' := by
  cases failFast with
  | true => exact stopAtError_eq_ok.trans (and_congr_left fun _ => ⟨fun h _ => h, fun h => h rfl⟩)
  | false =>
    exact ⟨fun h => by cases h; exact ⟨fun h => (nomatch h), rfl⟩, fun ⟨_, h⟩ => by rw [h]; rfl⟩

theorem allFindings_cons {failFast : Bool} : allFindings directory o failFast (s :: sources) =
    ask s directory o >>= fun here =>
      (if failFast = true then stopAtError here else pure PUnit.unit) >>= fun _ =>
        allFindings directory o failFast sources >>= fun further => pure (here ++ further) := by
  cases failFast <;> rfl

/-- All sources are asked, and none may find an error if the first one is to stop the run. -/
theorem allFindings_eq_ok {failFast : Bool} :
    allFindings directory o failFast sources m = (.ok findings, m') ↔
      ∃ answers, InTurn (Answers directory o) sources m answers m' ∧ findings = answers.flatten ∧
        (failFast = true → ∀ f ∈ findings, f.error = none) := by
  induction sources generalizing m findings with
  | nil =>
    rw [allFindings, Run.pure_eq_ok]
    constructor
    · rintro ⟨rfl, rfl⟩
      exact ⟨[], .nil, rfl, fun _ => List.forall_mem_nil _⟩
    · rintro ⟨answers, hanswers, rfl, _⟩
      cases hanswers
      exact ⟨rfl, rfl⟩
  | cons s sources ih =>
    rw [allFindings_cons, Run.bind_eq_ok]
    constructor
    · rintro ⟨here, m₁, hask, h⟩
      obtain ⟨_, m₂, hchecked, h⟩ := Run.bind_eq_ok.mp h
      obtain ⟨hnone, rfl⟩ := check_eq_ok.mp hchecked
      obtain ⟨further, m₃, hfurther, h⟩ := Run.bind_eq_ok.mp h
      obtain ⟨rfl, rfl⟩ := Run.pure_eq_ok.mp h
      obtain ⟨answers, hanswers, rfl, hrest⟩ := ih.mp hfurther
      exact ⟨here :: answers, .cons (ask_eq_ok.mp hask) hanswers, rfl,
        fun hfast => List.forall_mem_append.mpr ⟨hnone hfast, hrest hfast⟩⟩
    · rintro ⟨answers, hanswers, rfl, hnone⟩
      cases hanswers with
      | @cons _ _ here answers _ m₁ _ head tail =>
        rw [List.flatten_cons] at hnone ⊢
        have hfurther := ih.mpr ⟨answers, tail, rfl, fun hfast => (List.forall_mem_append.mp (hnone hfast)).2⟩
        refine ⟨here, m₁, ask_eq_ok.mpr head, Run.bind_eq_ok.mpr ⟨⟨⟩, m₁, ?_, ?_⟩⟩
        · exact check_eq_ok.mpr ⟨fun hfast => (List.forall_mem_append.mp (hnone hfast)).1, rfl⟩
        · exact Run.bind_eq_ok.mpr ⟨answers.flatten, m', hfurther, rfl⟩

end Sources

/-! ## Graphs of findings -/

/-- What a finding without an error gives: its graph, or the graphs that its SBOM is converted to. -/
inductive Gives (r : Resolution) (f : Finding) (m : Machine) : List DependencyGraph → Machine → Prop where
  | graph {g : DependencyGraph} (h : f.graph = some g) : Gives r f m [g] m
  | sbom {sbom : Bytes} {convert : Finding → Run (List DependencyGraph)}
      {graphs : List DependencyGraph} {m' : Machine} (hgraph : f.graph = none)
      (hsbom : f.sbom = some sbom) (hconvert : r.convert = some convert)
      (h : convert f (m.noting (.converted f.lockFile sbom)) = (.ok graphs, m')) :
      Gives r f m graphs m'

/-- The converter is asked for the graphs of a finding, and raises. -/
def ConverterRaises (r : Resolution) (f : Finding) (m : Machine) (raw : Failure) (m' : Machine) : Prop :=
  ∃ sbom convert, f.graph = none ∧ f.sbom = some sbom ∧ r.convert = some convert ∧
    convert f (m.noting (.converted f.lockFile (some sbom))) = (.error raw, m')

/-- What a failed conversion is told as. -/
def conversionFailure (raw : Failure) : Failure :=
  .caused (.resolution (.conversionFailed raw.message)) raw

/-- There is no graph of the finding to be had: it holds nothing, or an SBOM that there is no converter for. -/
inductive Graphless (r : Resolution) (f : Finding) : Reason → Prop where
  | empty (hgraph : f.graph = none) (hsbom : f.sbom = none) :
      Graphless r f (.resolution (.nothingToConvert f.lockFile))
  | unconverted {sbom : Bytes} (hgraph : f.graph = none) (hsbom : f.sbom = some sbom)
      (hconvert : r.convert = none) : Graphless r f (.resolution (.noConverter f.lockFile))

theorem graphsOf_of_gives (h : r.Gives f m graphs m') : r.graphsOf f m = (.ok graphs, m') := by
  cases h with
  | graph h => rw [graphsOf, h]; rfl
  | sbom hgraph hsbom hconvert h =>
    rw [graphsOf, hgraph, hsbom, hconvert]
    dsimp only
    rw [Run.note_bind, Run.attempt_bind, h]
    rfl

theorem graphsOf_of_converterRaises (h : r.ConverterRaises f m raw m') :
    r.graphsOf f m = (.error (conversionFailure raw), m') := by
  obtain ⟨sbom, convert, hgraph, hsbom, hconvert, h⟩ := h
  rw [graphsOf, hgraph, hsbom, hconvert]
  dsimp only
  rw [Run.note_bind, Run.attempt_bind, h]
  rfl

theorem graphsOf_of_graphless (h : r.Graphless f reason) : r.graphsOf f m = (.error (.of reason), m) := by
  rw [graphsOf]
  cases h with
  | empty hgraph hsbom => rw [hgraph, hsbom]; rfl
  | unconverted hgraph hsbom hconvert => rw [hgraph, hsbom, hconvert]; rfl

/-- One of the three holds for every finding and on every machine. -/
theorem graphsOf_cases (r : Resolution) (f : Finding) (m : Machine) :
    (∃ graphs m', r.Gives f m graphs m') ∨ (∃ raw m', r.ConverterRaises f m raw m') ∨
      ∃ reason, r.Graphless f reason := by
  cases hgraph : f.graph with
  | some g => exact Or.inl ⟨[g], m, .graph hgraph⟩
  | none =>
    cases hsbom : f.sbom with
    | none => exact Or.inr (Or.inr ⟨_, .empty hgraph hsbom⟩)
    | some sbom =>
      cases hconvert : r.convert with
      | none => exact Or.inr (Or.inr ⟨_, .unconverted hgraph hsbom hconvert⟩)
      | some convert =>
        rcases hrun : convert f (m.noting (.converted f.lockFile (some sbom))) with ⟨raw | graphs, m'⟩
        · exact Or.inr (Or.inl ⟨raw, m', sbom, convert, hgraph, hsbom, hconvert, hrun⟩)
        · exact Or.inl ⟨graphs, m', .sbom hgraph hsbom hconvert hrun⟩

theorem graphsOf_eq_ok : r.graphsOf f m = (.ok graphs, m') ↔ r.Gives f m graphs m' := by
  refine ⟨fun h => ?_, graphsOf_of_gives⟩
  rcases r.graphsOf_cases f m with ⟨graphs, m₁, hgives⟩ | ⟨raw, m₁, hraises⟩ | ⟨reason, hless⟩
  · cases (graphsOf_of_gives hgives).symm.trans h
    exact hgives
  · cases (graphsOf_of_converterRaises hraises).symm.trans h
  · cases (graphsOf_of_graphless hless).symm.trans h

/-- Of a resolution, the graphs depend on the converter only. -/
theorem graphsOf_congr {r' : Resolution} (h : r.convert = r'.convert) : r.graphsOf f = r'.graphsOf f := by
  rw [graphsOf, graphsOf, h]

theorem resolved_congr {r' : Resolution} (h : r.convert = r'.convert) :
    r.resolved findings = r'.resolved findings := by
  induction findings with
  | nil => rfl
  | cons f findings ih => rw [resolved, resolved, graphsOf_congr h, ih]

/-- The findings without an error. -/
def sound (findings : List Finding) : List Finding := findings.filter fun f => f.error.isNone

/-- The graphs of some findings, each with its finding. -/
def withFindings (findings : List Finding) (graphs : List (List DependencyGraph)) :
    List ResolvedProject :=
  (List.zipWith (fun f gs => gs.map fun g => ⟨f, g⟩) findings graphs).flatten

theorem sound_cons_of_error {cause : Failure} (hf : f.error = some cause) :
    sound (f :: findings) = sound findings :=
  List.filter_cons_of_neg (by rw [hf]; exact Bool.false_ne_true)

theorem sound_cons_of_none (hf : f.error = none) : sound (f :: findings) = f :: sound findings :=
  List.filter_cons_of_pos (by rw [hf]; rfl)

/-- The findings without an error give their graphs in turn; the others are passed over. -/
theorem resolved_eq_ok {projects : List ResolvedProject} :
    r.resolved findings m = (.ok projects, m') ↔
      ∃ graphs, InTurn r.Gives (sound findings) m graphs m' ∧
        projects = withFindings (sound findings) graphs := by
  induction findings generalizing m projects with
  | nil =>
    rw [resolved, Run.pure_eq_ok]
    constructor
    · rintro ⟨rfl, rfl⟩
      exact ⟨[], .nil, rfl⟩
    · rintro ⟨graphs, hgraphs, rfl⟩
      cases hgraphs
      exact ⟨rfl, rfl⟩
  | cons f findings ih =>
    rw [resolved]
    cases hf : f.error with
    | some e =>
      rw [sound_cons_of_error hf]
      exact ih
    | none =>
      rw [sound_cons_of_none hf]
      dsimp only
      rw [Run.bind_eq_ok]
      constructor
      · rintro ⟨here, m₁, hhere, h⟩
        obtain ⟨rest, m₂, hrest, h⟩ := Run.bind_eq_ok.mp h
        obtain ⟨rfl, rfl⟩ := Run.pure_eq_ok.mp h
        obtain ⟨graphs, hgraphs, rfl⟩ := ih.mp hrest
        exact ⟨here :: graphs, .cons (graphsOf_eq_ok.mp hhere) hgraphs, rfl⟩
      · rintro ⟨graphs, hgraphs, rfl⟩
        cases hgraphs with
        | @cons _ _ here graphs _ m₁ _ head tail =>
          refine ⟨here, m₁, graphsOf_eq_ok.mpr head, ?_⟩
          exact Run.bind_eq_ok.mpr ⟨_, m', ih.mpr ⟨graphs, tail, rfl⟩, rfl⟩

/-! ## Writing the graphs -/

section Writing

variable {projects : List ResolvedProject} {p : ResolvedProject} {g : DependencyGraph} {e : Failure}

/-- Every graph is an output of its own, and not a record in the one of a workspace. -/
def Apart (o : ResolutionOptions) : Prop := o.targetFile = [] ∨ o.workspacePackages = false

/-- The first of the graphs that are outputs of their own that cannot be written. -/
def unwritable? (projects : List ResolvedProject) (o : ResolutionOptions) : Option DependencyGraph :=
  if !o.targetFile.isEmpty && o.workspacePackages then none
  else (projects.map ResolvedProject.graph).find? fun g => !decide g.IsScalar

theorem apart_iff : Apart o ↔ ¬ (!o.targetFile.isEmpty && o.workspacePackages) = true := by
  rw [Apart, Bool.and_eq_true, not_and_or, Bool.not_eq_true', Bool.not_eq_false, List.isEmpty_iff,
    Bool.not_eq_true]

theorem outputsOf_apart (projects : List ResolvedProject) (hapart : Apart o) :
    outputsOf projects o = projects.map ResolvedProject.output := by
  cases projects with
  | nil => rfl
  | cons p ps => rw [outputsOf, if_neg (apart_iff.mp hapart)]; rfl

/-- The graphs are written one after the other, up to the first that cannot be. -/
theorem write_eq (projects : List ResolvedProject) (o : ResolutionOptions) : write projects o =
    match unwritable? projects o with
    | none => .ok (outputsOf projects o)
    | some g => .error g.unwritten := by
  by_cases hapart : Apart o
  · rw [write, unwritable?, outputsOf_apart projects hapart, if_neg (apart_iff.mp hapart),
      if_neg (apart_iff.mp hapart)]
    induction projects with
    | nil => rfl
    | cons p projects ih =>
      rw [List.mapM_cons, ih, List.map_cons, List.find?_cons, ResolvedProject.write]
      by_cases hp : p.graph.IsScalar
      · rw [DependencyGraph.write_of_isScalar hp, decide_eq_true hp]
        cases (projects.map ResolvedProject.graph).find? _ <;> rfl
      · rw [DependencyGraph.write_of_not_isScalar hp, decide_eq_false hp]
        rfl
  · have hcombined := not_not.mp (mt apart_iff.mpr hapart)
    rw [write, unwritable?, if_pos hcombined, if_pos hcombined]

theorem write_eq_ok :
    write projects o = .ok outputs ↔ unwritable? projects o = none ∧ outputs = outputsOf projects o := by
  rw [write_eq]
  cases unwritable? projects o with
  | none => exact ⟨fun h => by cases h; exact ⟨rfl, rfl⟩, fun h => congrArg _ h.2.symm⟩
  | some g => exact ⟨fun h => (nomatch h), fun h => (nomatch h.1)⟩

theorem write_eq_error :
    write projects o = .error e ↔ ∃ g, unwritable? projects o = some g ∧ e = g.unwritten := by
  rw [write_eq]
  cases unwritable? projects o with
  | none => exact ⟨fun h => (nomatch h), fun ⟨_, h, _⟩ => (nomatch h)⟩
  | some g => exact ⟨fun h => by cases h; exact ⟨g, rfl, rfl⟩, fun ⟨_, h, he⟩ => by cases h; rw [he]⟩

/-- All graphs are written if no graph that is an output of its own holds the half of a surrogate pair. -/
theorem unwritable?_eq_none :
    unwritable? projects o = none ↔ (Apart o → ∀ p ∈ projects, p.graph.IsScalar) := by
  rw [apart_iff, unwritable?]
  split
  next hcombined => exact iff_of_true rfl fun h => absurd hcombined h
  next hapart =>
    rw [forall_prop_of_true hapart, List.find?_eq_none, List.forall_mem_map]
    simp

theorem unwritable?_nil (o : ResolutionOptions) : unwritable? [] o = none :=
  unwritable?_eq_none.mpr fun _ => List.forall_mem_nil _

theorem not_isScalar_of_unwritable? (h : unwritable? projects o = some g) :
    Apart o ∧ (∃ p ∈ projects, p.graph = g) ∧ ¬ g.IsScalar := by
  rw [unwritable?] at h
  split at h
  next => cases h
  next hapart =>
    refine ⟨apart_iff.mpr hapart, ?_, by simpa using List.find?_some h⟩
    exact List.mem_map.mp (List.mem_of_find?_eq_some h)

end Writing

/-! ## The fallback -/

/-- What the fallback adds: its outputs, or nothing if it only failed for want of projects and there are
some already. -/
inductive FallsBack (r : Resolution) (directory : Text) (o : ResolutionOptions)
    (findings : List Finding) (m : Machine) : List Output → Machine → Prop where
  | answered {further : List Output} {m' : Machine}
      (h : r.fallback directory (forFallback o findings)
        (m.noting (.fellBack directory (forFallback o findings))) = (.ok further, m')) :
      FallsBack r directory o findings m further m'
  | nothing {e : Failure} {m' : Machine}
      (h : r.fallback directory (forFallback o findings)
        (m.noting (.fellBack directory (forFallback o findings))) = (.error e, m'))
      (hcode : e.meansNoProjects = true) (hfound : findings ≠ []) :
      FallsBack r directory o findings m []
        (m'.noting (.logged .info .resolution "Legacy resolver found no additional projects"))

/-- What a failure of the fallback is told as. -/
def fallbackFailure (raw : Failure) : Failure :=
  .caused (if raw.meansNoProjects then .noSupportedProjects
    else .resolution (.fallbackFailed raw.message)) raw

theorem askFallback_of_ok (h : r.fallback directory (forFallback o findings)
      (m.noting (.fellBack directory (forFallback o findings))) = (.ok further, m')) :
    r.askFallback directory o findings m = (.ok further, m') := by
  rw [askFallback, Run.note_bind, Run.attempt_bind, h]
  rfl

theorem askFallback_of_nothing {raw : Failure} (h : r.fallback directory (forFallback o findings)
      (m.noting (.fellBack directory (forFallback o findings))) = (.error raw, m'))
    (hcode : raw.meansNoProjects = true) (hfound : findings ≠ []) :
    r.askFallback directory o findings m =
      (.ok [], m'.noting (.logged .info .resolution "Legacy resolver found no additional projects")) := by
  rw [askFallback, Run.note_bind, Run.attempt_bind, h]
  dsimp only
  rw [hcode, List.isEmpty_eq_false_iff.mpr hfound]
  rfl

theorem askFallback_of_error {raw : Failure} (h : r.fallback directory (forFallback o findings)
      (m.noting (.fellBack directory (forFallback o findings))) = (.error raw, m'))
    (hcode : raw.meansNoProjects = true → findings = []) :
    r.askFallback directory o findings m = (.error (fallbackFailure raw), m') := by
  rw [askFallback, Run.note_bind, Run.attempt_bind, h, fallbackFailure]
  dsimp only
  cases hmeans : raw.meansNoProjects with
  | false => rfl
  | true => rw [hcode hmeans]; rfl

theorem askFallback_eq_ok :
    r.askFallback directory o findings m = (.ok further, m') ↔
      r.FallsBack directory o findings m further m' := by
  constructor
  · intro h
    rcases hrun : r.fallback directory (forFallback o findings)
      (m.noting (.fellBack directory (forFallback o findings))) with ⟨raw | further, m₁⟩
    · by_cases hcode : raw.meansNoProjects = true → findings = []
      · cases (askFallback_of_error hrun hcode).symm.trans h
      · obtain ⟨hcode, hfound⟩ := Classical.not_imp.mp hcode
        cases (askFallback_of_nothing hrun hcode hfound).symm.trans h
        exact .nothing hrun hcode hfound
    · cases (askFallback_of_ok hrun).symm.trans h
      exact .answered hrun
  · intro h
    cases h with
    | answered h => exact askFallback_of_ok h
    | nothing h hcode hfound => exact askFallback_of_nothing h hcode hfound

/-! ## The whole course -/

/-- What the fallback adds, if it is asked at all: it is for all projects, or if the sources found none. -/
inductive Completes (r : Resolution) (directory : Text) (o : ResolutionOptions)
    (findings : List Finding) (m : Machine) : List Output → Machine → Prop where
  | asked {further : List Output} {m' : Machine} (hasked : findings = [] ∨ o.allProjects = true)
      (h : r.FallsBack directory o findings m further m') : Completes r directory o findings m further m'
  | spared (hfound : findings ≠ []) (hsingle : o.allProjects = false) :
      Completes r directory o findings m [] m

/-- The problems of a resolution: those of the sources, then those of the fallback. -/
def problems (findings : List Finding) (further : List Output) : List ProblemProject :=
  problemsOf findings ++ outputProblems further

/-- The machine after a warning about the problems, if there are any. -/
def reported (ps : List ProblemProject) (total : Nat) (m : Machine) : Machine :=
  if ps.isEmpty then m else m.noting (.logged .warning .resolution (ProblemProject.warning ps total))

theorem warn_eq (ps : List ProblemProject) (total : Nat) :
    warn ps total m = (.ok (), reported ps total m) := by
  rw [warn, reported]
  cases ps.isEmpty <;> rfl

theorem completes_iff :
    (if findings.isEmpty || o.allProjects then r.askFallback directory o findings else pure []) m =
      (.ok further, m') ↔ r.Completes directory o findings m further m' := by
  by_cases hasked : findings = [] ∨ o.allProjects = true
  · have hif : (findings.isEmpty || o.allProjects) = true := by
      rwa [Bool.or_eq_true, List.isEmpty_iff]
    rw [hif, if_pos rfl, askFallback_eq_ok]
    refine ⟨.asked hasked, fun h => ?_⟩
    cases h with
    | asked _ h => exact h
    | spared hfound hsingle =>
      rcases hasked with hnone | hall
      · exact absurd hnone hfound
      · rw [hall] at hsingle; cases hsingle
  · obtain ⟨hfound, hsingle⟩ := not_or.mp hasked
    rw [Bool.not_eq_true] at hsingle
    rw [hsingle, Bool.or_false, List.isEmpty_eq_false_iff.mpr hfound]
    constructor
    · intro h; cases h; exact .spared hfound hsingle
    · intro h
      cases h with
      | asked h => exact absurd h hasked
      | spared => rfl

/-- The stages of a resolution with an organization. -/
theorem run_eq (horg : r.organization ≠ []) :
    r.run directory o = r.collect directory o >>= fun findings =>
      r.resolved findings >>= fun projects => Run.ofExcept (write projects o) >>= fun own =>
        (if findings.isEmpty || o.allProjects then r.askFallback directory o findings else pure []) >>=
          fun further => warn (problems findings further) (findings.length + further.length) >>=
            fun _ => pure (own ++ goodOutputs further) := by
  rw [run, List.isEmpty_eq_false_iff.mpr horg]
  refine bind_congr fun findings => bind_congr fun projects => bind_congr fun own => ?_
  cases findings.isEmpty || o.allProjects <;> rfl

/-- A resolution ends well exactly if there is an organization, the sources are collected, the graphs of
their findings are there and can be written, and the fallback adds its part; then the problems are reported. -/
theorem run_eq_ok :
    r.run directory o m = (.ok outputs, m') ↔
      r.organization ≠ [] ∧ ∃ findings m₁ projects m₂ further m₃,
        r.collect directory o m = (.ok findings, m₁) ∧ r.resolved findings m₁ = (.ok projects, m₂) ∧
        unwritable? projects o = none ∧ r.Completes directory o findings m₂ further m₃ ∧
        outputs = outputsOf projects o ++ goodOutputs further ∧
        m' = reported (problems findings further) (findings.length + further.length) m₃ := by
  by_cases horg : r.organization = []
  · refine ⟨fun h => ?_, fun h => absurd horg h.1⟩
    rw [run, horg] at h
    cases h
  rw [run_eq horg, and_iff_right horg]
  constructor
  · intro h
    obtain ⟨findings, m₁, hfindings, h⟩ := Run.bind_eq_ok.mp h
    obtain ⟨projects, m₂, hprojects, h⟩ := Run.bind_eq_ok.mp h
    obtain ⟨own, m₂', hown, h⟩ := Run.bind_eq_ok.mp h
    obtain ⟨hwrite, rfl⟩ := Run.ofExcept_eq_ok.mp hown
    obtain ⟨hwritable, rfl⟩ := write_eq_ok.mp hwrite
    obtain ⟨further, m₃, hfurther, h⟩ := Run.bind_eq_ok.mp h
    obtain ⟨_, m₄, hwarn, h⟩ := Run.bind_eq_ok.mp h
    rw [warn_eq] at hwarn
    cases hwarn
    cases h
    exact ⟨findings, m₁, projects, m₂, further, m₃, hfindings, hprojects, hwritable,
      completes_iff.mp hfurther, rfl, rfl⟩
  · rintro ⟨findings, m₁, projects, m₂, further, m₃, hfindings, hprojects, hwritable, hfurther, rfl, rfl⟩
    have hwrite := write_eq_ok.mpr ⟨hwritable, rfl⟩
    refine Run.bind_eq_ok.mpr ⟨findings, m₁, hfindings, ?_⟩
    refine Run.bind_eq_ok.mpr ⟨projects, m₂, hprojects, ?_⟩
    refine Run.bind_eq_ok.mpr ⟨_, m₂, Run.ofExcept_eq_ok.mpr ⟨hwrite, rfl⟩, ?_⟩
    refine Run.bind_eq_ok.mpr ⟨further, m₃, completes_iff.mpr hfurther, ?_⟩
    exact Run.bind_eq_ok.mpr ⟨(), _, warn_eq _ _, rfl⟩

end Resolution
end ManifestGraph
