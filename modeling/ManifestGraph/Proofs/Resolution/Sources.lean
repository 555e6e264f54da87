/-
  What the sources find. A finding of a source that resolves manifests with pip, or exports projects with
  uv, has an error or a graph that can be written and passes the check (`Uv.Projects.solves_source`,
  `Pip.ManifestKind.solves_source`), whatever the files, the programs and the service hold.
-/
import ManifestGraph.Pipenv.Source
import ManifestGraph.Proofs.Conversion.Graphs
import ManifestGraph.Proofs.Pip.Depth
import ManifestGraph.Proofs.Pip.Writable
import ManifestGraph.Uv.Source

namespace ManifestGraph

/-- The finding has an error, or a graph that can be written and passes the check. -/
def Finding.Solved (f : Finding) : Prop := f.error = none → ∃ g, f.graph = some g ∧ g.Deliverable

theorem Finding.solved_of_error {f : Finding} {e : Failure} (h : f.error = some e) : f.Solved :=
  fun hnone => by rw [h] at hnone; cases hnone

theorem Finding.solved_of_graph {f : Finding} {g : DependencyGraph} (h : f.graph = some g)
    (hg : g.Deliverable) : f.Solved :=
  fun _ => ⟨g, h, hg⟩

/-- All findings of the source have an error or such a graph. -/
def Source.Solves (s : Source) : Prop :=
  ∀ directory o, (s.find directory o).Ensures fun findings => ∀ f ∈ findings, f.Solved

/-! ## Manifests resolved with pip -/

namespace Pip

variable {c : Client} {k : ManifestKind} {o : SourceOptions}

theorem writable_of_readReport {output : Bytes} {r : Report} (h : Client.readReport output = .ok r) :
    r.Writable := by
  unfold Client.readReport at h
  split at h
  next report hread => cases h; exact Report.yields_fit.of_readModel hread
  next => cases h

theorem Client.ensures_report (c : Client) (what constraints : List Text) :
    (c.report what constraints).Ensures Report.Writable := by
  refine Run.ensures_bind fun binary => Run.ensures_bind fun result => ?_
  cases result with
  | ok output => exact Run.ensures_ofExcept fun r h => writable_of_readReport h
  | error e => exact Run.ensures_throw _

theorem Client.ensures_reportOnFile (c : Client) (file : Text) :
    (c.reportOnFile file).Ensures Report.Writable := by
  unfold reportOnFile
  split
  next => exact Run.ensures_throw _
  next => exact c.ensures_report _ _

theorem Client.ensures_reportOnPackages (c : Client) (packages constraints : List Text) :
    (c.reportOnPackages packages constraints).Ensures Report.Writable := by
  unfold reportOnPackages
  split
  next => exact Run.ensures_throw _
  next => exact c.ensures_report _ _

namespace ManifestKind

/-- If the finding for every manifest has a property, so have all that are found below a directory. -/
theorem ensures_find {P : Finding → Prop} (directory : Text)
    (h : ∀ runtime file, (k.findingFor o runtime file).Ensures P) :
    (k.find directory o).Ensures fun findings => ∀ f ∈ findings, P f := by
  have hnothing : (pure [] : Run (List Finding)).Ensures fun findings => ∀ f ∈ findings, P f :=
    Run.ensures_pure (List.forall_mem_nil _)
  have hall : ∀ runtime files,
      (k.findingsFor o runtime files).Ensures fun findings => ∀ f ∈ findings, P f := by
    intro runtime files
    induction files with
    | nil => exact hnothing
    | cons file files ih =>
      refine (h runtime file).bind fun f hf => ih.bind fun fs hfs => ?_
      exact Run.ensures_pure (List.forall_mem_cons.mpr ⟨hf, hfs⟩)
  unfold find
  split
  next => exact Run.ensures_bind fun _ => hnothing
  next =>
    refine Run.ensures_bind fun m => Run.ensures_bind fun files => ?_
    split
    next => exact Run.ensures_bind fun _ => hnothing
    next =>
      refine Run.ensures_bind fun runtime => ?_
      cases runtime with
      | none => exact hnothing
      | some runtime => exact hall runtime files

/-- Whatever the kind makes of a manifest can be written and passes the check. -/
def Resolves (k : ManifestKind) : Prop :=
  ∀ file o, (k.resolve file o).Ensures DependencyGraph.Deliverable

theorem Resolves.ensures_findingFor (hk : k.Resolves) (runtime : Text) (file : FoundFile) :
    (k.findingFor o runtime file).Ensures Finding.Solved := by
  refine Run.ensures_bind fun _ => (Run.ensures_attempt (hk file o)).bind fun result hresult => ?_
  cases result with
  | ok g => exact Run.ensures_pure (Finding.solved_of_graph rfl (hresult g rfl))
  | error e =>
    dsimp only
    split
    next => exact Run.ensures_throw e
    next => exact Run.ensures_bind fun _ => Run.ensures_pure (Finding.solved_of_error rfl)

/-- A source solves its manifests if its kind resolves them. -/
theorem Resolves.solves_source (hk : k.Resolves) : k.source.Solves :=
  fun directory _ => ensures_find directory hk.ensures_findingFor

end ManifestKind

/-- If there is room for the graph of a report that can be written, it can be written and passes the check. -/
theorem ensures_graphOf {r : Report} {manager : Text} (hr : r.Writable) (hmanager : manager.isScalar = true) :
    (graphOf r manager).Ensures DependencyGraph.Deliverable := by
  refine Run.ensures_bind fun m => Run.ensures_ofExcept fun g hg => ?_
  rw [eq_toGraph_of_graphWithin hg]
  exact deliverable_toGraph hr hmanager

/-- Requirements files give graphs that can be written and pass the check. -/
theorem resolves_requirementsFiles (c : Client) (reportExclusions : Bool) :
    (requirementsFiles c reportExclusions).Resolves := by
  intro file o
  exact (c.ensures_reportOnFile file.path.toText).bind fun r hr =>
    ensures_graphOf hr (Text.isScalar_ofString _)

end Pip

namespace Pipenv

theorem ensures_report (c : Pip.Client) (file : Pipfile) (constraints : List Text) (dev : Bool) :
    (report c file constraints dev).Ensures Pip.Report.Writable := by
  refine Run.ensures_bind fun packages => ?_
  split
  next => exact Run.ensures_pure (List.forall_mem_nil _)
  next => exact c.ensures_reportOnPackages packages constraints

/-- No lock file is beside the Pipfile. -/
def unlocked (lockPath : Path) : Reason :=
  .inFamily .manifestNotFound ("Pipfile.lock not found at " ++ lockPath.toText
    ++ ". Run 'pipenv lock' to generate it.")

/-- The graph of a Pipfile with a lock file beside it. -/
def lockedGraph (c : Pip.Client) (file : FoundFile) (o : SourceOptions) (pipfile : Pipfile) :
    Run DependencyGraph := do
  let constraints ← constraintsAt (lockFileOf file.path) o.dev
  let r ← report c pipfile constraints o.dev
  let g ← Pip.graphOf r "pipenv"
  Run.log .info .pipenv ("Successfully built dependency graph from " ++ file.relative)
  return g

/-- Without a lock file the run ends before pip is asked. -/
theorem graphOf_eq (c : Pip.Client) (file : FoundFile) (o : SourceOptions) :
    graphOf c file o = Pipfile.read file.path >>= fun pipfile =>
      Run.isPresent (lockFileOf file.path) >>= fun found =>
        if found then lockedGraph c file o pipfile else Run.fail (unlocked (lockFileOf file.path)) := by
  refine bind_congr fun pipfile => bind_congr fun found => ?_
  cases found <;> rfl

/-- Pipfiles give graphs that can be written and pass the check. -/
theorem resolves_pipfiles (c : Pip.Client) (reportExclusions : Bool) :
    (pipfiles c reportExclusions).Resolves := by
  intro file o
  show (graphOf c file o).Ensures _
  rw [graphOf_eq]
  refine Run.ensures_bind fun pipfile => Run.ensures_bind fun found => ?_
  split
  next =>
    refine Run.ensures_bind fun constraints => ?_
    refine (ensures_report c pipfile constraints o.dev).bind fun r hr => ?_
    refine (Pip.ensures_graphOf hr (Text.isScalar_ofString _)).bind fun g hg => ?_
    exact Run.ensures_bind fun _ => Run.ensures_pure hg
  next => exact Run.ensures_throw _

end Pipenv

/-! ## Projects exported with uv -/

namespace Uv.Projects

variable {p : Projects} {o : SourceOptions}

/-- If the findings for every lock file have a property, so have all that are found below a directory. -/
theorem ensures_find {P : Finding → Prop} (directory : Text)
    (h : ∀ file, (p.findingsAt o file).Ensures fun findings => ∀ f ∈ findings, P f) :
    (p.find directory o).Ensures fun findings => ∀ f ∈ findings, P f := by
  have hall : ∀ files, (p.findingsIn o files).Ensures fun findings => ∀ f ∈ findings, P f := by
    intro files
    induction files with
    | nil => exact Run.ensures_pure (List.forall_mem_nil _)
    | cons file files ih =>
      refine (h file).bind fun here hhere => ih.bind fun further hfurther => ?_
      exact Run.ensures_pure (List.forall_mem_append.mpr ⟨hhere, hfurther⟩)
  unfold find
  split
  next => exact Run.ensures_bind fun _ => Run.ensures_pure (List.forall_mem_nil _)
  next => exact Run.ensures_bind fun m => Run.ensures_bind fun files => hall files

theorem ensures_findingsFor (p : Projects) (sbom : Bytes) (lockFile : Text) :
    (p.findingsFor sbom lockFile).Ensures fun findings => ∀ f ∈ findings, f.Solved := by
  refine (Run.ensures_ofExcept fun _ h => h).bind fun document hdocument => ?_
  refine (Run.ensures_ofExcept fun _ h => h).bind fun m hm => ?_
  have hwritable := Sbom.writable_metadata hdocument hm
  refine (Conversion.ensures_graphs p.service sbom hwritable p.remoteUrl).bind fun gs hgs => ?_
  refine Run.ensures_pure (List.forall_mem_map.mpr fun g hg => ?_)
  exact Finding.solved_of_graph rfl (hgs g hg)

theorem ensures_findingsAt (p : Projects) (file : FoundFile) :
    (p.findingsAt o file).Ensures fun findings => ∀ f ∈ findings, f.Solved := by
  refine Run.ensures_bind fun _ => Run.ensures_bind fun result => ?_
  cases result with
  | ok sbom => exact p.ensures_findingsFor sbom file.relative
  | error e =>
    dsimp only
    split
    next =>
      refine Run.ensures_bind fun _ => Run.ensures_pure (List.forall_mem_singleton.mpr ?_)
      exact Finding.solved_of_error rfl
    next => exact Run.ensures_throw e

/-- The source of uv projects solves its lock files. -/
theorem solves_source (p : Projects) : p.source.Solves :=
  fun directory _ => ensures_find directory p.ensures_findingsAt

end Uv.Projects
end ManifestGraph
