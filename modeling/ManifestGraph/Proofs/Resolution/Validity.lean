/-
  Only graphs that pass the check leave a resolution. Resolved with the sources for uv, pipenv and pip, the
  service's converter and the fallback resolver (`Resolution.Shipped`), every output that is returned holds
  graphs that are read again and pass the check (`outputs_hold_documents`). They come from findings, which
  `ensures_collect` speaks of, or from reports that the fallback has checked.
-/
import ManifestGraph.Program
import ManifestGraph.Proofs.Fallback.Reports
import ManifestGraph.Proofs.Resolution.Accounts
import ManifestGraph.Proofs.Resolution.Combined
import ManifestGraph.Proofs.Resolution.Sources

namespace ManifestGraph

open DependencyGraph (Deliverable IsDocument)
open Fallback (MadeInto Resolver)

/-- What the output holds is read as graphs that pass the check: one, unless it is empty, or one in every
record of the line protocol. -/
def Output.HoldsDocuments (out : Output) : Prop :=
  match out.contentType with
  | .json => out.payload ≠ [] → IsDocument out.payload
  | .jsonLines => ∃ records, Record.ofLines out.payload = .ok records ∧ records ≠ [] ∧
      ∀ rec ∈ records, ∃ bs, rec.graph = some bs ∧ IsDocument bs
  | .other _ => False

/-! ## Outputs of one graph or of several -/

theorem ResolvedProject.holdsDocuments_output {p : ResolvedProject} (h : p.graph.Deliverable) :
    p.output.HoldsDocuments :=
  fun _ => h.isDocument_encode

theorem ResolvedProject.holdsDocuments_combined {ps : List ResolvedProject} {targetFile : Text}
    (hne : ps ≠ []) (h : ∀ p ∈ ps, p.graph.Deliverable) :
    (combined ps targetFile).HoldsDocuments := by
  refine ⟨_, ofLines_combined ps targetFile, mt List.map_eq_nil_iff.mp hne, ?_⟩
  refine List.forall_mem_map.mpr fun p hp => ⟨_, graph_line (h p hp).writable, ?_⟩
  exact ⟨p.graph, (h p hp).writable.decode_writeBytes, (h p hp).checked⟩

theorem Fallback.MadeInto.holdsDocuments {rec : Record} {out : Output} (h : MadeInto rec out) :
    out.HoldsDocuments := by
  rw [Output.HoldsDocuments, h.contentType]
  intro hpayload
  obtain ⟨bs, hgraph⟩ := Option.ne_none_iff_exists'.mp (h.payload_ne_nil.mp hpayload)
  rw [h.payload, hgraph]
  exact h.graph hgraph

namespace Resolution

variable {r : Resolution} {directory : Text} {o : ResolutionOptions} {m m' : Machine}
  {findings : List Finding} {projects : List ResolvedProject} {outputs further : List Output}

theorem holdsDocuments_outputsOf (h : ∀ p ∈ projects, p.graph.Deliverable) :
    ∀ out ∈ outputsOf projects o, out.HoldsDocuments := by
  unfold outputsOf
  split
  next => exact List.forall_mem_nil _
  next hne =>
    split
    next =>
      refine List.forall_mem_singleton.mpr (ResolvedProject.holdsDocuments_combined ?_ h)
      exact fun hnil => hne (by rw [hnil]; rfl)
    next =>
      exact List.forall_mem_map.mpr fun p hp => ResolvedProject.holdsDocuments_output (h p hp)

/-! ## Findings -/

theorem ensures_ask {s : Source} (hs : s.Solves) (o : SourceOptions) :
    (ask s directory o).Ensures fun found => ∀ f ∈ found, f.Solved :=
  fun _ _ _ h => hs directory o _ _ _ (ask_eq_ok.mp h)

theorem ensures_firstFinding {sources : List Source} (h : ∀ s ∈ sources, s.Solves) (o : SourceOptions) :
    (firstFinding directory o sources).Ensures fun found => ∀ f ∈ found, f.Solved := by
  induction sources with
  | nil => exact Run.ensures_pure (List.forall_mem_nil _)
  | cons s sources ih =>
    rw [List.forall_mem_cons] at h
    refine (ensures_ask h.1 o).bind fun found hfound => ?_
    split
    next => exact ih h.2
    next f _ =>
      split
      next => exact Run.ensures_throw _
      next => exact Run.ensures_pure (List.forall_mem_singleton.mpr (hfound f List.mem_cons_self))

theorem ensures_allFindings {sources : List Source} (h : ∀ s ∈ sources, s.Solves) (o : SourceOptions)
    (failFast : Bool) :
    (allFindings directory o failFast sources).Ensures fun found => ∀ f ∈ found, f.Solved := by
  intro m found m' hrun
  obtain ⟨answers, hanswers, rfl, _⟩ := allFindings_eq_ok.mp hrun
  intro f hf
  obtain ⟨found, hfound, hf⟩ := List.mem_flatten.mp hf
  obtain ⟨s, hs, _, _, hanswer⟩ := exists_of_mem_right hanswers.forall₂ hfound
  exact h s hs directory o _ _ _ hanswer f hf

theorem ensures_collect (h : ∀ s ∈ r.sources, s.Solves) :
    (r.collect directory o).Ensures fun found => ∀ f ∈ found, f.Solved := by
  unfold collect
  split
  next => exact ensures_allFindings h _ _
  next => exact ensures_firstFinding h _

theorem ensures_graphsOf {f : Finding} (hf : f.Solved) (herror : f.error = none) :
    (r.graphsOf f).Ensures fun gs => ∀ g ∈ gs, g.Deliverable := by
  intro m gs m' h
  obtain ⟨g, hgraph, hg⟩ := hf herror
  cases graphsOf_eq_ok.mp h with
  | graph hgraph' =>
    rw [hgraph] at hgraph'
    cases hgraph'
    exact List.forall_mem_singleton.mpr hg
  | sbom hnone =>
    rw [hgraph] at hnone
    cases hnone

theorem ensures_resolved (h : ∀ f ∈ findings, f.Solved) :
    (r.resolved findings).Ensures fun ps => ∀ p ∈ ps, p.graph.Deliverable := by
  induction findings with
  | nil => exact Run.ensures_pure (List.forall_mem_nil _)
  | cons f findings ih =>
    rw [List.forall_mem_cons] at h
    unfold resolved
    split
    next => exact ih h.2
    next herror =>
      refine (ensures_graphsOf h.1 herror).bind fun gs hgs => (ih h.2).bind fun ps hps => ?_
      exact Run.ensures_pure (List.forall_mem_append.mpr ⟨List.forall_mem_map.mpr hgs, hps⟩)

/-! ## The whole resolution -/

/-- One of the sources for uv, pipenv and pip. -/
inductive ShippedSource : Source → Prop where
  | uv (p : Uv.Projects) : ShippedSource p.source
  | pipenv (c : Pip.Client) (reportExclusions : Bool) :
      ShippedSource (Pipenv.pipfiles c reportExclusions).source
  | pip (c : Pip.Client) (reportExclusions : Bool) :
      ShippedSource (Pip.requirementsFiles c reportExclusions).source

theorem ShippedSource.solves {s : Source} (h : ShippedSource s) : s.Solves := by
  cases h with
  | uv p => exact p.solves_source
  | pipenv c reportExclusions => exact (Pipenv.resolves_pipfiles c reportExclusions).solves_source
  | pip c reportExclusions => exact (Pip.resolves_requirementsFiles c reportExclusions).solves_source

/-- A resolution with such sources, the converter that asks the service, and the fallback resolver. -/
structure Shipped (r : Resolution) : Prop where
  sources : ∀ s ∈ r.sources, ShippedSource s
  convert : ∃ service remoteUrl, r.convert = some (Conversion.converter service remoteUrl)
  fallback : ∃ resolver : Resolver, r.fallback = resolver.resolve

/-- The program resolves with these. -/
theorem shipped_resolution (s : Settings) : (Program.resolution s).Shipped where
  sources := List.forall_mem_cons.mpr ⟨.uv _, List.forall_mem_cons.mpr ⟨.pipenv _ _,
    List.forall_mem_singleton.mpr (.pip _ _)⟩⟩
  convert := ⟨_, _, rfl⟩
  fallback := ⟨_, rfl⟩

theorem Shipped.holdsDocuments_further (hr : r.Shipped)
    (h : r.Completes directory o findings m further m') : ∀ out ∈ further, out.HoldsDocuments := by
  obtain ⟨resolver, hfallback⟩ := hr.fallback
  cases h with
  | spared => exact List.forall_mem_nil _
  | asked _ h =>
    cases h with
    | nothing => exact List.forall_mem_nil _
    | answered h =>
      rw [hfallback] at h
      obtain ⟨_, _, records, _, _, _, hmade⟩ := Resolver.exists_records_of_resolve h
      intro out hout
      obtain ⟨rec, _, hrec⟩ := exists_of_mem_right hmade hout
      exact hrec.holdsDocuments

/-- Whatever the files, the programs and the service hold, every output of a resolution holds graphs that
are read again and pass the check. -/
theorem outputs_hold_documents (hr : r.Shipped) (h : r.run directory o m = (.ok outputs, m')) :
    ∀ out ∈ outputs, out.HoldsDocuments := by
  obtain ⟨_, findings, _, projects, _, further, _, hcollect, hresolved, _, hcompletes, rfl, _⟩ :=
    run_eq_ok.mp h
  have hsources : ∀ s ∈ r.sources, s.Solves := fun s hs => (hr.sources s hs).solves
  have hfindings := ensures_collect hsources _ _ _ hcollect
  have hprojects := ensures_resolved hfindings _ _ _ hresolved
  have hfurther := hr.holdsDocuments_further hcompletes
  exact List.forall_mem_append.mpr ⟨holdsDocuments_outputsOf hprojects,
    fun out hout => hfurther out (List.mem_of_mem_filter hout)⟩

/-- Settings for the members of a workspace, in one output, and for what the fallback finds beside them. -/
def workspaceSettings : Settings where
  org := "o"
  useSbomResolution := true
  allProjects := true
  file := "uv.lock"
  workspacePackages := true

def rootDocument : Bytes :=
  Utf8.encode "\x7b\"metadata\":\x7b\"component\":\x7b\"name\":\"w\"\x7d\x7d\x7d"

/-- An answer of the service with two graphs. -/
def twoGraphs : Bytes :=
  Utf8.encode "\x7b\"scanResults\":[\x7b\"facts\":[\x7b\"type\":\"depGraph\",\"data\":"
    ++ (loneGraph "a").encode ++ Utf8.encode "\x7d,\x7b\"type\":\"depGraph\",\"data\":"
    ++ (loneGraph "b").encode ++ Utf8.encode "\x7d]\x7d]\x7d"

/-- A report of the fallback with a graph. -/
def oneReport : Bytes :=
  Utf8.encode "\x7b\"normalisedTargetFile\":\"pom.xml\",\"depGraph\":" ++ (loneGraph "c").encode
    ++ Utf8.encode "\x7d\n"

def workspaceMachine : Machine where
  files := { tree := .directory [("uv.lock", .file [])] }
  programs := [("uv", [.ended 0 (Utf8.encode "uv 0.9.11") [], .ended 0 rootDocument []]),
    ("snyk", [.ended 0 oneReport []])]
  service := [.response 200 "OK" [] twoGraphs]

theorem outputs_hold_documents_workspace :
    (Program.resolution workspaceSettings).Shipped ∧
      ∃ outputs m', (Program.resolution workspaceSettings).run "." workspaceSettings.resolutionOptions
          workspaceMachine = (.ok outputs, m') ∧
        outputs.map (fun out => (out.contentType, out.payload.isEmpty)) =
          [(.jsonLines, false), (.json, false)] ∧
        ∀ out ∈ outputs, out.HoldsDocuments := by
  have hshipped := shipped_resolution workspaceSettings
  obtain ⟨outputs, hrun, hkinds⟩ := Run.exists_of_toOption
    (x := (Program.resolution workspaceSettings).run "." workspaceSettings.resolutionOptions)
    (m := workspaceMachine) (f := fun os => os.map fun out => (out.contentType, out.payload.isEmpty))
    (b := [(.jsonLines, false), (.json, false)]) (by decide +kernel)
  exact ⟨hshipped, outputs, _, hrun, hkinds, outputs_hold_documents hshipped hrun⟩

end Resolution
end ManifestGraph
