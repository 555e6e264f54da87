/-
  What becomes of every project when all projects are asked for. Each graph of a finding is an output, and
  so is each result of the fallback without errors; every other finding and result is a problem, and stands
  in the one warning (`run_accounts`). Without an organization, or with a graph that cannot be written, there
  are no outputs at all (`run_nameless_halved`).
-/
import ManifestGraph.Proofs.Data.Related
import ManifestGraph.Proofs.Resolution.Breakdown
import Mathlib.Data.List.Basic

namespace ManifestGraph

/-! ## The warning -/

theorem Text.join_cons (sep t : Text) (ts : List Text) :
    Text.join sep (t :: ts) = t ++ ts.flatMap fun t => sep ++ t := by
  induction ts generalizing t with
  | nil => simp [join, List.intercalate]
  | cons u ts ih =>
    have hcons : join sep (t :: u :: ts) = t ++ (sep ++ join sep (u :: ts)) := by
      simp [join, List.intercalate, List.intersperse]
    rw [hcons, ih, List.flatMap_cons, List.append_assoc]

namespace ProblemProject

/-- The line that every warning starts with. -/
def title : Text := "Dependency graphs could not be resolved for some projects:"

/-- A warning has one entry for each problem, and then says how many of how many projects failed. -/
theorem warning_eq (ps : List ProblemProject) (total : Nat) :
    warning ps total = title ++ (ps.flatMap fun p => ("\n" : Text) ++ p.line) ++
      (("\n" : Text) ++ (Text.ofNat ps.length ++ "/" ++ Text.ofNat total ++ " projects failed")) := by
  have hlines : warning ps total = Text.join "\n" (title :: (ps.map line ++
      [Text.ofNat ps.length ++ "/" ++ Text.ofNat total ++ " projects failed"])) := rfl
  rw [hlines, Text.join_cons, List.flatMap_append, List.flatMap_map, List.flatMap_singleton,
    ← List.append_assoc]

/-- The problem is that of a finding. -/
def OfFinding (f : Finding) (p : ProblemProject) : Prop :=
  f.error = some p.error ∧ p.lockFile = f.lockFile ∧ p.manifestFile = f.manifestFile

/-- The problem is that of a result of the fallback: its first error. -/
def OfOutput (o : Output) (p : ProblemProject) : Prop :=
  o.errors.head? = some p.error ∧ p.lockFile = o.targetFile ∧ p.manifestFile = o.pluginFile.getD []

end ProblemProject

namespace Resolution

open ProblemProject (OfFinding OfOutput title)

variable {r : Resolution} {directory : Text} {o : ResolutionOptions} {m m₁ m₂ m₃ : Machine}
  {answers : List (List Finding)} {graphs : List (List DependencyGraph)} {further : List Output}

/-! ## What is kept and what is left out -/

theorem forall₂_problemsOf (findings : List Finding) :
    List.Forall₂ OfFinding (findings.filter fun f => f.error.isSome) (problemsOf findings) := by
  refine forall₂_filterMap (fun f => (Option.isSome_map ..).symm) (fun f p hp => ?_) findings
  obtain ⟨e, he, rfl⟩ := Option.map_eq_some_iff.mp hp
  exact ⟨he, rfl, rfl⟩

theorem forall₂_outputProblems (outputs : List Output) :
    List.Forall₂ OfOutput (outputs.filter fun o => !o.errors.isEmpty) (outputProblems outputs) := by
  refine forall₂_filterMap (fun o => ?_) (fun o p hp => ?_) outputs
  · cases o.errors <;> rfl
  · obtain ⟨e, he, rfl⟩ := Option.map_eq_some_iff.mp hp
    exact ⟨he, rfl, rfl⟩

/-- Every finding is without an error or a problem, and so is every result of the fallback. -/
theorem length_problems (findings : List Finding) (further : List Output) :
    (sound findings).length + (goodOutputs further).length + (problems findings further).length =
      findings.length + further.length := by
  have hown := (forall₂_problemsOf findings).length_eq
  have hother := (forall₂_outputProblems further).length_eq
  have hfindings := findings.length_eq_length_filter_add fun f => f.error.isNone
  have hfurther := further.length_eq_length_filter_add fun o => o.errors.isEmpty
  simp only [Option.not_isNone] at hfindings
  rw [problems, List.length_append, ← hown, ← hother, sound, goodOutputs]
  omega

/-- A project has a graph that its finding gave. -/
theorem exists_graph_of_mem {findings : List Finding} {p : ResolvedProject}
    (h : p ∈ withFindings findings graphs) : ∃ gs ∈ graphs, p.graph ∈ gs := by
  induction findings generalizing graphs with
  | nil => cases h
  | cons f findings ih =>
    cases graphs with
    | nil => cases h
    | cons gs graphs =>
      rw [withFindings, List.zipWith_cons_cons, List.flatten_cons, List.mem_append] at h
      rcases h with h | h
      · obtain ⟨g, hg, rfl⟩ := List.mem_map.mp h
        exact ⟨gs, List.mem_cons_self, hg⟩
      · obtain ⟨gs', hgs', hp⟩ := ih h
        exact ⟨gs', List.mem_cons_of_mem gs hgs', hp⟩

/-- When all projects are asked for, every graph can be written and nothing ends the run, the outputs are
those of all graphs of the findings without an error, in order, and then the results of the fallback
without errors. The problems are the findings with an error and then the results with errors; they stand in
one warning, which is there only if they are, and which counts them against all findings and results. -/
theorem run_accounts (horg : r.organization ≠ []) (hall : o.allProjects = true)
    (hapart : o.targetFile = [] ∨ o.workspacePackages = false)
    (hanswers : InTurn (Answers directory o.forSources) r.sources m answers m₁)
    (hfast : o.failFast = true → ∀ f ∈ answers.flatten, f.error = none)
    (hgraphs : InTurn r.Gives (sound answers.flatten) m₁ graphs m₂)
    (hscalar : ∀ gs ∈ graphs, ∀ g ∈ gs, g.IsScalar)
    (hfurther : r.FallsBack directory o answers.flatten m₂ further m₃) :
    ∃ ps own other, ps = own ++ other ∧
      List.Forall₂ OfFinding (answers.flatten.filter fun f => f.error.isSome) own ∧
      List.Forall₂ OfOutput (further.filter fun o => !o.errors.isEmpty) other ∧
      r.run directory o m =
        (.ok ((withFindings (sound answers.flatten) graphs).map ResolvedProject.output ++
            further.filter fun o => o.errors.isEmpty),
          reported ps (answers.flatten.length + further.length) m₃) ∧
      ProblemProject.warning ps (answers.flatten.length + further.length) =
        title ++ (ps.flatMap fun p => ("\n" : Text) ++ p.line) ++ (("\n" : Text) ++
          (Text.ofNat ps.length ++ "/" ++ Text.ofNat (answers.flatten.length + further.length) ++
            " projects failed")) ∧
      (sound answers.flatten).length + (further.filter fun o => o.errors.isEmpty).length + ps.length =
        answers.flatten.length + further.length := by
  have hcollect : r.collect directory o m = (.ok answers.flatten, m₁) := by
    rw [collect, if_pos hall]
    exact allFindings_eq_ok.mpr ⟨answers, hanswers, rfl, hfast⟩
  have hresolved := resolved_eq_ok.mpr ⟨graphs, hgraphs, rfl⟩
  have hwritable : unwritable? (withFindings (sound answers.flatten) graphs) o = none :=
    unwritable?_eq_none.mpr fun _ p hp => by
      obtain ⟨gs, hgs, hg⟩ := exists_graph_of_mem hp
      exact hscalar gs hgs _ hg
  have hrun := run_eq_ok.mpr ⟨horg, answers.flatten, m₁, _, m₂, further, m₃, hcollect, hresolved,
    hwritable, .asked (Or.inr hall) hfurther, rfl, rfl⟩
  rw [outputsOf_apart _ hapart] at hrun
  exact ⟨problems answers.flatten further, _, _, rfl, forall₂_problemsOf _, forall₂_outputProblems _,
    hrun, ProblemProject.warning_eq _ _, length_problems _ _⟩

/-! ## A resolution with all kinds of results -/

/-- A graph of nothing but a package with some name. -/
def loneGraph (name : Text) : DependencyGraph :=
  (GraphBuilder.start { name := "pip" } { name }).build

def brokenFinding : Finding where
  lockFile := "uv.lock"
  manifestFile := "pyproject.toml"
  error := some (.of (.foreign .runtime "no root"))

def sbomFinding : Finding where
  lockFile := "lib/uv.lock"
  sbom := some (Utf8.encode "\x7b\x7d")

def graphFinding : Finding where
  lockFile := "requirements.txt"
  graph := some (loneGraph "c")

def goodResult : Output where
  payload := (loneGraph "d").encode
  targetFile := "pom.xml"

def badResult : Output where
  payload := []
  targetFile := "go.mod"
  errors := [.of (.foreign .runtime "no module")]

/-- Two sources, a converter that finds two graphs in every SBOM, and a fallback with two results. -/
def mixed : Resolution where
  sources := [⟨"uv", fun _ _ => pure [brokenFinding, sbomFinding]⟩, ⟨"pip", fun _ _ => pure [graphFinding]⟩]
  fallback := fun _ _ => pure [goodResult, badResult]
  organization := "o"
  convert := some fun _ => pure [loneGraph "a", loneGraph "b"]

def allProjects : ResolutionOptions := { allProjects := true }

/-- The machine after both sources were asked. -/
def askedMachine : Machine :=
  (({} : Machine).noting (.consulted "uv" "." allProjects.forSources)).noting
    (.consulted "pip" "." allProjects.forSources)

/-- The machine after the resolution, but for the warning. -/
def mixedMachine : Machine :=
  (askedMachine.noting (.converted "lib/uv.lock" sbomFinding.sbom)).noting
    (.fellBack "." (forFallback allProjects [brokenFinding, sbomFinding, graphFinding]))

theorem run_accounts_mixed :
    ∃ ps own other, ps = own ++ other ∧ List.Forall₂ OfFinding [brokenFinding] own ∧
      List.Forall₂ OfOutput [badResult] other ∧
      mixed.run "." allProjects {} =
        (.ok [ResolvedProject.output ⟨sbomFinding, loneGraph "a"⟩,
            ResolvedProject.output ⟨sbomFinding, loneGraph "b"⟩,
            ResolvedProject.output ⟨graphFinding, loneGraph "c"⟩, goodResult],
          reported ps 5 mixedMachine) ∧
      ProblemProject.warning ps 5 =
        title ++ (ps.flatMap fun p => ("\n" : Text) ++ p.line) ++ (("\n" : Text) ++
          (Text.ofNat ps.length ++ "/" ++ Text.ofNat 5 ++ " projects failed")) ∧
      2 + 1 + ps.length = 5 := by
  have hanswers : InTurn (Answers "." allProjects.forSources) mixed.sources {}
      [[brokenFinding, sbomFinding], [graphFinding]] askedMachine := .cons rfl (.cons rfl .nil)
  have hgraphs : InTurn mixed.Gives [sbomFinding, graphFinding] askedMachine
      [[loneGraph "a", loneGraph "b"], [loneGraph "c"]]
      (askedMachine.noting (.converted "lib/uv.lock" sbomFinding.sbom)) :=
    .cons (.sbom rfl rfl rfl rfl) (.cons (.graph rfl) .nil)
  have hscalar : ∀ gs ∈ [[loneGraph "a", loneGraph "b"], [loneGraph "c"]], ∀ g ∈ gs, g.IsScalar := by
    decide +kernel
  exact run_accounts (List.cons_ne_nil _ _) rfl (Or.inl rfl) hanswers (fun hfast => nomatch hfast) hgraphs
    hscalar (.answered rfl)

/-- Without an organization nothing is asked, whatever the sources would find. -/
theorem run_without_organization (horg : r.organization = []) :
    r.run directory o m =
      (.error Failure.withoutOrganization,
        m.noting (.logged .error .failures "failed to determine org id")) := by
  rw [run, horg]
  rfl

/-- The same sources, converter and fallback, but no organization. -/
def nameless : Resolution := { mixed with organization := [] }

/-- A graph whose one package is named by half of a surrogate pair. -/
def halfGraph : DependencyGraph := loneGraph ([0xD800].filterMap CodePoint.ofNat?)

def halfFinding : Finding where
  lockFile := "requirements.txt"
  graph := some halfGraph

/-- The same converter and fallback, but one source, whose graph cannot be written. -/
def halved : Resolution := { mixed with sources := [⟨"pip", fun _ _ => pure [halfFinding]⟩] }

/-- The machine after that source was asked. -/
def halvedMachine : Machine := ({} : Machine).noting (.consulted "pip" "." allProjects.forSources)

theorem unwritable?_halved : unwritable? [⟨halfFinding, halfGraph⟩] allProjects = some halfGraph := by
  have hhalf : ¬ halfGraph.IsScalar := by decide +kernel
  show [halfGraph].find? (fun g => !decide g.IsScalar) = some halfGraph
  rw [List.find?_cons, decide_eq_false hhalf]
  rfl

/-- Sources, converter and fallback all return, and yet there are no outputs: once for want of an organization,
once because the graph that was found cannot be written. -/
theorem run_nameless_halved :
    (InTurn (Answers "." allProjects.forSources) nameless.sources {}
        [[brokenFinding, sbomFinding], [graphFinding]] askedMachine ∧
      (∀ f m, ∃ convert, nameless.convert = some convert ∧
        convert f m = (.ok [loneGraph "a", loneGraph "b"], m)) ∧
      (∀ o m, nameless.fallback "." o m = (.ok [goodResult, badResult], m)) ∧
      nameless.run "." allProjects {} = (.error Failure.withoutOrganization,
        ({} : Machine).noting (.logged .error .failures "failed to determine org id"))) ∧
    halved.organization ≠ [] ∧
      InTurn (Answers "." allProjects.forSources) halved.sources {} [[halfFinding]] halvedMachine ∧
      (∀ o m, halved.fallback "." o m = (.ok [goodResult, badResult], m)) ∧
      halved.run "." allProjects {} = (.error halfGraph.unwritten, halvedMachine) := by
  refine ⟨⟨.cons rfl (.cons rfl .nil), fun _ _ => ⟨_, rfl, rfl⟩, fun _ _ => rfl,
    run_without_organization rfl⟩, List.cons_ne_nil _ _, .cons rfl .nil, fun _ _ => rfl, ?_⟩
  exact (run_eq_error (List.cons_ne_nil _ _)).mpr (.writing rfl rfl unwritable?_halved)

end Resolution
end ManifestGraph
