/-
  What the collaborators of a resolution leave behind. The sources, the converter and the fallback resolver
  write no file and print nothing; they start programs, ask the service and log, and leave the acts of the
  resolution to the resolution (`discreet_resolution`).
-/
import ManifestGraph.Program
import ManifestGraph.Proofs.Machine.Footprint
import ManifestGraph.Proofs.Resolution.Asking
import ManifestGraph.Proofs.Resolution.Sources

namespace ManifestGraph

open Run (keeps_pure keeps_throw keeps_get keeps_ofExcept keeps_note)

/-- What is exchanged with the outside is no act of a resolution. -/
theorem Event.isAct_of_isOutward {e : Event} (h : e.isOutward = true) : e.isAct = false := by
  cases e with
  | started args stdin directory => rfl
  | posted url parameters body headers => rfl
  | logged level topic message => exact decide_eq_false (of_decide_eq_true h)
  | consulted source directory o => cases h
  | converted lockFile sbom => cases h
  | fellBack directory o => cases h
  | printed content => cases h

theorem Run.Keeps.discreet {α : Type} {x : Run α} (h : x.Keeps Event.isOutward) : x.Discreet := by
  intro m
  obtain ⟨noted, hjournal, houtward⟩ := (h m).journal
  have hacts : noted.filter Event.isAct = [] :=
    List.filter_eq_nil_iff.mpr fun e he => Bool.eq_false_iff.mp (Event.isAct_of_isOutward (houtward e he))
  rw [Machine.acts, hjournal, List.filter_append, hacts, List.append_nil]
  rfl

/-! ## The service -/

namespace Conversion

theorem Service.keeps_failWith {α : Type} (e : Failure) : (failWith e : Run α).Keeps Event.isOutward :=
  (keeps_note rfl).bind fun _ => keeps_throw _

theorem Service.keeps_convert (s : Service) (sbom : Bytes) (remoteUrl : Text) :
    (s.convert sbom remoteUrl).Keeps Event.isOutward := by
  unfold convert
  refine (Run.keeps_post _ _ _ _).attempt_bind (fun reply => ?_) fun _ =>
    (keeps_note rfl).bind fun _ => keeps_failWith _
  cases reply with
  | unreachable message => exact keeps_failWith _
  | response status reason headers body =>
    dsimp only
    split
    next => exact keeps_failWith _
    next =>
      split
      next => exact keeps_failWith _
      next =>
        split
        next => exact keeps_pure _
        next => exact (keeps_note rfl).bind fun _ => keeps_failWith _

theorem keeps_graphs (s : Service) (sbom : Bytes) (metadata : Metadata) (remoteUrl : Text) :
    (graphs s sbom metadata remoteUrl).Keeps Event.isOutward :=
  (s.keeps_convert sbom remoteUrl).bind fun _ => (keeps_note rfl).bind fun _ => keeps_ofExcept _

theorem keeps_converter (s : Service) (remoteUrl : Text) (f : Finding) :
    (converter s remoteUrl f).Keeps Event.isOutward := by
  unfold converter
  split
  next => exact keeps_graphs _ _ _ _
  next => exact keeps_throw _

end Conversion

/-! ## The source of uv projects -/

namespace Uv

variable {o : SourceOptions}

namespace Client

theorem keeps_locate (c : Client) : c.locate.Keeps Event.isOutward := by
  refine (Run.keeps_find? _).bind fun found => ?_
  cases found with
  | some path => exact keeps_pure _
  | none => exact keeps_throw _

theorem keeps_version (binary : Text) : (version binary).Keeps Event.isOutward := by
  refine (Run.keeps_outputText _).attempt_bind (fun _ => keeps_ofExcept _) fun e => ?_
  dsimp only
  split <;> exact keeps_throw _

theorem keeps_execute (c : Client) (directory : Text) (args : List Text) :
    (c.execute directory args).Keeps Event.isOutward := by
  refine c.keeps_locate.bind fun binary => (keeps_version binary).bind fun _ => ?_
  exact (Run.keeps_output _ _ _).attempt_bind (fun _ => keeps_pure _) fun _ => keeps_throw _

theorem keeps_exportSbom (c : Client) (directory : Text) : (c.exportSbom directory o).Keeps Event.isOutward :=
  (c.keeps_execute _ _).bind fun _ => (keeps_ofExcept _).bind fun _ => keeps_pure _

end Client

namespace Projects

theorem keeps_findingsFor (p : Projects) (sbom : Bytes) (lockFile : Text) :
    (p.findingsFor sbom lockFile).Keeps Event.isOutward :=
  (keeps_ofExcept _).bind fun _ => (keeps_ofExcept _).bind fun _ =>
    (Conversion.keeps_graphs _ _ _ _).bind fun _ => keeps_pure _

theorem keeps_findingsAt (p : Projects) (file : FoundFile) : (p.findingsAt o file).Keeps Event.isOutward := by
  refine (keeps_note rfl).bind fun _ => (p.client.keeps_exportSbom _).attempt_bind
    (fun sbom => p.keeps_findingsFor sbom file.relative) fun e => ?_
  dsimp only
  split
  next => exact (keeps_note rfl).bind fun _ => keeps_pure _
  next => exact keeps_throw _

theorem keeps_findingsIn (p : Projects) (files : List FoundFile) :
    (p.findingsIn o files).Keeps Event.isOutward := by
  induction files with
  | nil => exact keeps_pure _
  | cons file files ih => exact (p.keeps_findingsAt file).bind fun _ => ih.bind fun _ => keeps_pure _

theorem keeps_find (p : Projects) (directory : Text) : (p.find directory o).Keeps Event.isOutward := by
  unfold find
  split
  next => exact (keeps_note rfl).bind fun _ => keeps_pure _
  next => exact keeps_get.bind fun _ => (keeps_ofExcept _).bind fun _ => p.keeps_findingsIn _

end Projects
end Uv

/-! ## Sources that resolve with pip -/

namespace Pip

variable {o : SourceOptions}

theorem keeps_firstVersion (commands : List Text) : (firstVersion commands).Keeps Event.isOutward := by
  induction commands with
  | nil => exact keeps_throw _
  | cons command commands ih =>
    refine (Run.keeps_outputText _).attempt_bind (fun _ => keeps_pure _) fun e => ?_
    dsimp only
    split
    next => exact ih
    next => exact keeps_throw _

namespace Client

theorem keeps_locate (c : Client) : c.locate.Keeps Event.isOutward := by
  refine (Run.keeps_find? _).bind fun found => ?_
  cases found with
  | some path => exact keeps_pure _
  | none => exact keeps_throw _

theorem keeps_report (c : Client) (what constraints : List Text) :
    (c.report what constraints).Keeps Event.isOutward :=
  c.keeps_locate.bind fun _ =>
    (Run.keeps_output _ _ _).attempt_bind (fun _ => keeps_ofExcept _) fun _ => keeps_throw _

theorem keeps_reportOnFile (c : Client) (file : Text) : (c.reportOnFile file).Keeps Event.isOutward := by
  unfold reportOnFile
  split
  next => exact keeps_throw _
  next => exact c.keeps_report _ _

theorem keeps_reportOnPackages (c : Client) (packages constraints : List Text) :
    (c.reportOnPackages packages constraints).Keeps Event.isOutward := by
  unfold reportOnPackages
  split
  next => exact keeps_throw _
  next => exact c.keeps_report _ _

end Client

namespace ManifestKind

variable {k : ManifestKind}

theorem keeps_findingFor (hk : ∀ file o, (k.resolve file o).Keeps Event.isOutward) (runtime : Text)
    (file : FoundFile) : (k.findingFor o runtime file).Keeps Event.isOutward := by
  refine (keeps_note rfl).bind fun _ => (hk file o).attempt_bind (fun _ => keeps_pure _) fun e => ?_
  dsimp only
  split
  next => exact keeps_throw _
  next => exact (keeps_note rfl).bind fun _ => keeps_pure _

theorem keeps_findingsFor (hk : ∀ file o, (k.resolve file o).Keeps Event.isOutward) (runtime : Text)
    (files : List FoundFile) : (k.findingsFor o runtime files).Keeps Event.isOutward := by
  induction files with
  | nil => exact keeps_pure _
  | cons file files ih => exact (keeps_findingFor hk runtime file).bind fun _ => ih.bind fun _ => keeps_pure _

theorem keeps_runtime? (k : ManifestKind) : k.runtime?.Keeps Event.isOutward := by
  refine (keeps_firstVersion _).attempt_bind (fun _ => keeps_pure _) fun e => ?_
  dsimp only
  split
  next => exact keeps_throw _
  next => exact (keeps_note rfl).bind fun _ => keeps_pure _

theorem keeps_find (hk : ∀ file o, (k.resolve file o).Keeps Event.isOutward) (directory : Text) :
    (k.find directory o).Keeps Event.isOutward := by
  unfold find
  split
  next => exact (keeps_note rfl).bind fun _ => keeps_pure _
  next =>
    refine keeps_get.bind fun _ => (keeps_ofExcept _).bind fun files => ?_
    split
    next => exact (keeps_note rfl).bind fun _ => keeps_pure _
    next =>
      refine k.keeps_runtime?.bind fun runtime => ?_
      cases runtime with
      | none => exact keeps_pure _
      | some runtime => exact keeps_findingsFor hk runtime files

end ManifestKind

theorem keeps_graphOf (r : Report) (manager : Text) : (graphOf r manager).Keeps Event.isOutward :=
  keeps_get.bind fun _ => keeps_ofExcept _

theorem keeps_requirementsFiles (c : Client) (reportExclusions : Bool) (file : FoundFile)
    (o : SourceOptions) : ((requirementsFiles c reportExclusions).resolve file o).Keeps Event.isOutward :=
  (c.keeps_reportOnFile _).bind fun _ => keeps_graphOf _ _

end Pip

namespace Pipenv

theorem Pipfile.keeps_read (p : Path) : (Pipfile.read p).Keeps Event.isOutward :=
  (Run.keeps_readFile p).attempt_bind (fun _ => keeps_ofExcept _) fun _ => keeps_throw _

theorem Lock.keeps_read (p : Path) : (Lock.read p).Keeps Event.isOutward :=
  (Run.keeps_readFile p).attempt_bind (fun _ => keeps_ofExcept _) fun _ => keeps_throw _

theorem keeps_constraintsAt (lockPath : Path) (dev : Bool) :
    (constraintsAt lockPath dev).Keeps Event.isOutward :=
  (Lock.keeps_read lockPath).attempt_bind (fun _ => keeps_pure _) fun _ =>
    (keeps_note rfl).bind fun _ => keeps_pure _

theorem keeps_report (c : Pip.Client) (file : Pipfile) (constraints : List Text) (dev : Bool) :
    (report c file constraints dev).Keeps Event.isOutward := by
  refine (keeps_ofExcept _).bind fun packages => ?_
  split
  next => exact keeps_pure _
  next => exact c.keeps_reportOnPackages packages constraints

theorem keeps_graphOf (c : Pip.Client) (file : FoundFile) (o : SourceOptions) :
    (graphOf c file o).Keeps Event.isOutward := by
  rw [graphOf_eq]
  refine (Pipfile.keeps_read _).bind fun pipfile => (Run.keeps_isPresent _).bind fun found => ?_
  split
  next =>
    refine (keeps_constraintsAt _ o.dev).bind fun constraints => ?_
    refine (keeps_report c pipfile constraints o.dev).bind fun r => ?_
    exact (Pip.keeps_graphOf _ _).bind fun _ => (keeps_note rfl).bind fun _ => keeps_pure _
  next => exact keeps_throw _

end Pipenv

/-! ## The fallback resolver -/

namespace Fallback

theorem keeps_errorsOf (r : Record) : (errorsOf r).Keeps Event.isOutward := by
  unfold errorsOf
  split
  next => exact keeps_pure _
  next =>
    split
    next => exact keeps_pure _
    next => exact keeps_throw _
    next => exact (keeps_note rfl).bind fun _ => keeps_pure _

theorem keeps_outputOf (r : Record) : (outputOf r).Keeps Event.isOutward := by
  unfold outputOf
  split
  next =>
    refine (keeps_ofExcept _).bind fun _ => (keeps_ofExcept _).bind fun _ => ?_
    exact (keeps_errorsOf r).bind fun _ => keeps_pure _
  next => exact (keeps_ofExcept _).bind fun _ => (keeps_errorsOf r).bind fun _ => keeps_pure _

theorem keeps_outputsOf (records : List Record) : (outputsOf records).Keeps Event.isOutward := by
  induction records with
  | nil => exact keeps_pure _
  | cons r records ih => exact (keeps_outputOf r).bind fun _ => ih.bind fun _ => keeps_pure _

namespace Resolver

theorem keeps_run (r : Resolver) (args : List Text) : (r.run args).Keeps Event.isOutward := by
  refine (keeps_note rfl).bind fun _ => (Run.keeps_output _ _ _).attempt_bind (fun _ => keeps_pure _)
    fun e => ?_
  dsimp only
  split <;> exact keeps_throw _

theorem keeps_resolve (r : Resolver) (directory : Text) (o : ResolutionOptions) :
    (r.resolve directory o).Keeps Event.isOutward := by
  refine (r.keeps_run _).bind fun output => (keeps_ofExcept _).bind fun records => ?_
  cases records with
  | nil => exact keeps_throw _
  | cons r records =>
    exact (keeps_outputsOf (r :: records)).bind fun _ => (keeps_note rfl).bind fun _ => keeps_pure _

end Resolver
end Fallback

/-! ## All of them -/

namespace Program

theorem keeps_sources (s : Settings) : ∀ source ∈ (resolution s).sources, ∀ directory o,
    (source.find directory o).Keeps Event.isOutward := by
  refine List.forall_mem_cons.mpr ⟨?_, List.forall_mem_cons.mpr ⟨?_, List.forall_mem_singleton.mpr ?_⟩⟩
  · exact fun directory _ => Uv.Projects.keeps_find _ directory
  · exact fun directory _ => Pip.ManifestKind.keeps_find (Pipenv.keeps_graphOf _) directory
  · exact fun directory _ => Pip.ManifestKind.keeps_find (Pip.keeps_requirementsFiles _ _) directory

/-- The collaborators of the program's resolution leave its acts to it. -/
theorem discreet_resolution (s : Settings) :
    (∀ source ∈ (resolution s).sources, source.Discreet) ∧
    (∀ convert, (resolution s).convert = some convert → ∀ f, (convert f).Discreet) ∧
    ∀ directory o, ((resolution s).fallback directory o).Discreet := by
  refine ⟨fun source hsource directory o => (keeps_sources s source hsource directory o).discreet, ?_,
    fun directory o => ((fallback s).keeps_resolve directory o).discreet⟩
  intro convert hconvert f
  cases hconvert
  exact (Conversion.keeps_converter s.service s.remoteRepoUrl f).discreet

end Program
end ManifestGraph
