/-
  What the sources fail with. A source that exports projects with uv, or resolves manifests with pip, fails
  without an exit code; the error of one of its findings may have one, and this is the status that uv, or
  pip, ended with (`Uv.Projects.failsFor_source`, `Pip.ManifestKind.failsFor_source`).
-/
import ManifestGraph.Proofs.Machine.Programs
import ManifestGraph.Proofs.Resolution.Sources

namespace ManifestGraph

open Failure (Unmarked)
open Run (IsForeign ReportsFor ofProgram reportsFor_of_unmarked)

/-- If the finding has an error, an exit code of it is the status of a program. -/
def Finding.FailsFor (programs : List Text) (f : Finding) : Prop :=
  ∀ e, f.error = some e → e.Attributed programs

theorem Finding.failsFor_of_none {programs : List Text} {f : Finding} (h : f.error = none) :
    f.FailsFor programs :=
  fun e he => by rw [h] at he; cases he

/-- The source fails without an exit code, and its findings only with the status of a program. -/
structure Source.FailsFor (s : Source) (programs : List Text) : Prop where
  raises : ∀ directory o, (s.find directory o).Raises Unmarked
  findings : ∀ directory o, (s.find directory o).Ensures fun findings => ∀ f ∈ findings, f.FailsFor programs

theorem Source.FailsFor.mono {s : Source} {programs others : List Text} (h : s.FailsFor programs)
    (hsub : programs ⊆ others) : s.FailsFor others where
  raises := h.raises
  findings directory o m findings m' hfind f hf e he :=
    (h.findings directory o m findings m' hfind f hf e he).mono hsub

/-! ## Looking for files -/

namespace Discovery

variable {fs : FileSystem} {root target : Path} {includes excludes : List Text} {e : Failure}

theorem unmarked_target (h : target? fs root target excludes = .error e) : e.Unmarked := by
  rcases Except.bind_eq_error.mp h with h | ⟨found, _, h⟩
  · exact (Run.isForeign_of_look h).unmarked
  · split at h
    next => cases h
    next => cases h

theorem unmarked_find {target : Text} (h : find fs root includes excludes target = .error e) :
    e.Unmarked := by
  rcases Except.bind_eq_error.mp h with h | ⟨tree, _, h⟩
  · rcases Except.bind_eq_error.mp h with h | ⟨found, _, h⟩
    · exact (Run.isForeign_of_look h).unmarked
    · split at h
      next => cases h
      next => cases h; exact Failure.unmarked_of rfl
  · split at h
    next => cases h
    next =>
      cases htarget : target? fs root (Path.ofText target) excludes with
      | ok file => rw [htarget] at h; cases h
      | error e' => rw [htarget] at h; cases h; exact unmarked_target htarget

end Discovery

/-! ## Converting an SBOM -/

namespace Conversion

theorem unmarked_graphsOf {response : Response} {metadata : Metadata} {e : Failure}
    (h : graphsOf response metadata = .error e) : e.Unmarked := by
  rcases exists_of_graphsOf_eq_error h with ⟨messages, rfl⟩ | ⟨fault, rfl⟩ <;> exact Failure.unmarked_of rfl

theorem Service.raises_failWith {α : Type} {e : Failure} (h : e.Unmarked) :
    (failWith e : Run α).Raises Unmarked :=
  (Run.raises_note _).bind fun _ => Run.raises_throw (h.caused rfl)

theorem Service.raises_convert (s : Service) (sbom : Bytes) (remoteUrl : Text) :
    (s.convert sbom remoteUrl).Raises Unmarked := by
  unfold convert
  refine (Run.raises_post _ _ _ _).attempt_bind (fun reply => ?_) fun e he => ?_
  · cases reply with
    | unreachable message => exact raises_failWith (Failure.unmarked_of rfl)
    | response status reason headers body =>
      dsimp only
      split
      next => exact raises_failWith (Failure.unmarked_of rfl)
      next =>
        split
        next => exact raises_failWith (Failure.unmarked_of rfl)
        next =>
          split
          next => exact Run.raises_pure _
          next => exact (Run.raises_note _).bind fun _ => raises_failWith (Failure.unmarked_of rfl)
  · exact (Run.raises_note _).bind fun _ => raises_failWith he.unmarked

theorem raises_graphs (s : Service) (sbom : Bytes) (metadata : Metadata) (remoteUrl : Text) :
    (graphs s sbom metadata remoteUrl).Raises Unmarked :=
  (s.raises_convert sbom remoteUrl).bind fun _ => (Run.raises_note _).bind fun _ =>
    Run.raises_ofExcept fun _ => unmarked_graphsOf

end Conversion

theorem Sbom.unmarked_decode {bs : Bytes} {e : Failure} (h : Sbom.decode bs = .error e) : e.Unmarked := by
  unfold decode at h
  split at h
  next => cases h; exact (Failure.unmarked_of rfl).caused rfl
  next =>
    split at h
    next => cases h; exact Failure.unmarked_of rfl
    next =>
      split at h
      next => cases h; exact Failure.unmarked_of rfl
      next => cases h

theorem Sbom.unmarked_metadata {sbom : Sbom} {e : Failure} (h : sbom.metadata = .error e) :
    e.Unmarked := by
  unfold metadata at h
  split at h
  next => cases h
  next => cases h; exact Failure.unmarked_of rfl

/-! ## Exporting with uv -/

namespace Uv

variable {o : SourceOptions}

theorem unmarked_checkVersion {binary output : Text} {e : Failure}
    (h : checkVersion binary output = .error e) : e.Unmarked := by
  unfold checkVersion at h
  split at h
  next =>
    split at h
    next => cases h; exact Failure.unmarked_of rfl
    next =>
      dsimp only at h
      split at h
      next => cases h; exact Failure.unmarked_of rfl
      next => cases h
  next => cases h; exact Failure.unmarked_of rfl

open Projects (concernsOne)

namespace Client

/-- Where uv is started. -/
def path (c : Client) : Text := "/bin/" ++ c.binary

theorem raises_locate (c : Client) : c.locate.Raises Unmarked :=
  Run.raises_located (fun _ => rfl) rfl (Failure.unmarked_of rfl)

theorem ensures_locate (c : Client) : c.locate.Ensures fun path => path = c.path :=
  Run.ensures_located (fun _ => rfl) rfl

theorem raises_version (binary : Text) : (version binary).Raises (ReportsFor concernsOne [binary]) := by
  refine (Run.raises_outputText binary ["--version"]).attempt_bind (fun output => ?_) fun e he => ?_
  · exact Run.raises_ofExcept fun e h => reportsFor_of_unmarked (unmarked_checkVersion h)
  · dsimp only
    split
    next => exact Run.raises_throw (he.caused rfl rfl)
    next hother =>
      exact Run.raises_throw (reportsFor_of_unmarked (he.unmarked (Bool.eq_false_iff.mpr hother)))

theorem reportsFor_failedCommand {programs : List Text} {e : Failure} (h : ReportsFor ofProgram programs e) :
    ReportsFor concernsOne programs (failedCommand e) := by
  unfold failedCommand
  dsimp only
  split
  next => exact h.caused rfl rfl
  next =>
    split
    next => exact h.caused rfl rfl
    next hother => exact reportsFor_of_unmarked (h.unmarked (Bool.eq_false_iff.mpr hother))

theorem raises_execute (c : Client) (directory : Text) (args : List Text) :
    (c.execute directory args).Raises (ReportsFor concernsOne [c.path]) := by
  refine (c.raises_locate.mono fun _ => reportsFor_of_unmarked).bind_ensured c.ensures_locate ?_
  rintro _ rfl
  refine (raises_version c.path).bind fun _ => ?_
  refine (Run.raises_output c.path args).attempt_bind (fun _ => Run.raises_pure _) fun e he => ?_
  exact Run.raises_throw (reportsFor_failedCommand he)

theorem raises_exportSbom (c : Client) (directory : Text) (o : SourceOptions) :
    (c.exportSbom directory o).Raises (ReportsFor concernsOne [c.path]) := by
  refine (c.raises_execute _ _).bind fun sbom => ?_
  refine (Run.raises_ofExcept fun e h => reportsFor_of_unmarked (Sbom.unmarked_decode h)).bind fun _ => ?_
  exact Run.raises_pure _

end Client

namespace Projects

variable {p : Projects}

theorem raises_findingsFor (p : Projects) (sbom : Bytes) (lockFile : Text) :
    (p.findingsFor sbom lockFile).Raises Unmarked :=
  (Run.raises_ofExcept fun _ => Sbom.unmarked_decode).bind fun _ =>
    (Run.raises_ofExcept fun _ => Sbom.unmarked_metadata).bind fun _ =>
      (Conversion.raises_graphs _ _ _ _).bind fun _ => Run.raises_pure _

theorem raises_findingsAt (p : Projects) (file : FoundFile) : (p.findingsAt o file).Raises Unmarked := by
  refine (Run.raises_note _).bind fun _ => ?_
  refine (p.client.raises_exportSbom _ o).attempt_bind (fun sbom => ?_) fun e he => ?_
  · exact p.raises_findingsFor sbom file.relative
  · dsimp only
    split
    next => exact (Run.raises_note _).bind fun _ => Run.raises_pure _
    next hother => exact Run.raises_throw (he.unmarked (Bool.eq_false_iff.mpr hother))

theorem ensures_failsFor_findingsAt (p : Projects) (file : FoundFile) :
    (p.findingsAt o file).Ensures fun findings => ∀ f ∈ findings, f.FailsFor [p.client.path] := by
  refine Run.ensures_bind fun _ => ?_
  refine (p.client.raises_exportSbom _ o).ensures_attempt_bind (fun sbom => ?_) fun e he => ?_
  · refine Run.ensures_bind fun document => Run.ensures_bind fun metadata => Run.ensures_bind fun gs => ?_
    exact Run.ensures_pure (List.forall_mem_map.mpr fun g _ => Finding.failsFor_of_none rfl)
  · dsimp only
    split
    next =>
      refine Run.ensures_bind fun _ => Run.ensures_pure (List.forall_mem_singleton.mpr ?_)
      intro e' he'
      cases he'
      exact he.attributed
    next => exact Run.ensures_throw e

theorem raises_findingsIn (p : Projects) (files : List FoundFile) :
    (p.findingsIn o files).Raises Unmarked := by
  induction files with
  | nil => exact Run.raises_pure _
  | cons file files ih =>
    exact (p.raises_findingsAt file).bind fun _ => ih.bind fun _ => Run.raises_pure _

theorem raises_find (p : Projects) (directory : Text) (o : SourceOptions) :
    (p.find directory o).Raises Unmarked := by
  unfold find
  split
  next => exact (Run.raises_note _).bind fun _ => Run.raises_pure _
  next =>
    refine Run.raises_get.bind fun m => Run.Raises.bind (Run.raises_ofExcept fun e h => ?_) fun files =>
      p.raises_findingsIn files
    unfold lockFiles at h
    split at h
    next => exact Discovery.unmarked_find h
    next => exact Discovery.unmarked_find h

/-- The source of uv projects fails without an exit code, its findings with the status of uv. -/
theorem failsFor_source (p : Projects) : p.source.FailsFor [p.client.path] where
  raises := p.raises_find
  findings directory _ := ensures_find directory p.ensures_failsFor_findingsAt

end Projects
end Uv

/-! ## Resolving with pip -/

namespace Pip

variable {o : SourceOptions}

/-- The failure is a structured error. -/
def isStructured (e : Failure) : Bool := e.fault.reason.catalog?.isSome

/-- A failure that is raised again, as it is no structured error. -/
theorem unmarked_of_unstructured {programs : List Text} {e : Failure}
    (h : ReportsFor isStructured programs e) (hnone : e.fault.reason.catalog? = none) : e.Unmarked :=
  h.unmarked (by rw [isStructured, hnone]; rfl)

theorem raises_firstVersion (commands : List Text) : (firstVersion commands).Raises Unmarked := by
  induction commands with
  | nil => exact Run.raises_throw (Failure.unmarked_of rfl)
  | cons command commands ih =>
    refine (Run.raises_outputText command ["--version"]).attempt_bind (fun _ => Run.raises_pure _)
      fun e he => ?_
    dsimp only
    split
    next => exact ih
    next hother => exact Run.raises_throw (he.unmarked (Bool.eq_false_iff.mpr hother))

namespace Client

/-- Where pip is started. -/
def path (c : Client) : Text := "/bin/" ++ c.binary

theorem raises_locate (c : Client) : c.locate.Raises Unmarked :=
  Run.raises_located (fun _ => rfl) rfl (Failure.unmarked_of rfl)

theorem ensures_locate (c : Client) : c.locate.Ensures fun path => path = c.path :=
  Run.ensures_located (fun _ => rfl) rfl

theorem unmarked_readReport {output : Bytes} {e : Failure} (h : readReport output = .error e) :
    e.Unmarked := by
  unfold readReport at h
  split at h
  next => cases h
  next => cases h; exact (Failure.unmarked_of rfl).caused rfl

theorem reportsFor_diagnosed {programs : List Text} {e : Failure} (h : ReportsFor ofProgram programs e) :
    ReportsFor isStructured programs (diagnosed e) := by
  unfold diagnosed
  split
  next => exact h.caused rfl rfl
  next =>
    split
    next => exact h.caused rfl rfl
    next hother => exact reportsFor_of_unmarked (h.unmarked (Bool.eq_false_iff.mpr hother))

theorem raises_report (c : Client) (what constraints : List Text) :
    (c.report what constraints).Raises (ReportsFor isStructured [c.path]) := by
  refine (c.raises_locate.mono fun _ => reportsFor_of_unmarked).bind_ensured c.ensures_locate ?_
  rintro _ rfl
  refine (Run.raises_output c.path _).attempt_bind (fun output => ?_) fun e he => ?_
  · exact Run.raises_ofExcept fun e h => reportsFor_of_unmarked (unmarked_readReport h)
  · exact Run.raises_throw (reportsFor_diagnosed he)

theorem raises_reportOnFile (c : Client) (file : Text) :
    (c.reportOnFile file).Raises (ReportsFor isStructured [c.path]) := by
  unfold reportOnFile
  split
  next => exact Run.raises_fail (reportsFor_of_unmarked (Failure.unmarked_of rfl))
  next => exact c.raises_report _ _

theorem raises_reportOnPackages (c : Client) (packages constraints : List Text) :
    (c.reportOnPackages packages constraints).Raises (ReportsFor isStructured [c.path]) := by
  unfold reportOnPackages
  split
  next => exact Run.raises_fail (reportsFor_of_unmarked (Failure.unmarked_of rfl))
  next => exact c.raises_report _ _

end Client

namespace ManifestKind

variable {k : ManifestKind} {programs : List Text}

/-- A manifest cannot be resolved for a structured error that may hand on the status of a program, or for
another fault that has no exit code. -/
def FailsFor (k : ManifestKind) (programs : List Text) : Prop :=
  ∀ file o, (k.resolve file o).Raises (ReportsFor isStructured programs)

theorem FailsFor.raises_findingFor (hk : k.FailsFor programs) (runtime : Text) (file : FoundFile) :
    (k.findingFor o runtime file).Raises Unmarked := by
  refine (Run.raises_note _).bind fun _ => (hk file o).attempt_bind (fun _ => Run.raises_pure _)
    fun e he => ?_
  dsimp only
  split
  next hnone => exact Run.raises_throw (unmarked_of_unstructured he hnone)
  next => exact (Run.raises_note _).bind fun _ => Run.raises_pure _

theorem FailsFor.ensures_findingFor (hk : k.FailsFor programs) (runtime : Text) (file : FoundFile) :
    (k.findingFor o runtime file).Ensures fun f => f.FailsFor programs := by
  refine Run.ensures_bind fun _ => (hk file o).ensures_attempt_bind (fun _ => ?_) fun e he => ?_
  · exact Run.ensures_pure (Finding.failsFor_of_none rfl)
  · dsimp only
    split
    next => exact Run.ensures_throw e
    next =>
      refine Run.ensures_bind fun _ => Run.ensures_pure fun e' he' => ?_
      cases he'
      exact he.attributed

theorem FailsFor.raises_findingsFor (hk : k.FailsFor programs) (runtime : Text) (files : List FoundFile) :
    (k.findingsFor o runtime files).Raises Unmarked := by
  induction files with
  | nil => exact Run.raises_pure _
  | cons file files ih =>
    exact (hk.raises_findingFor runtime file).bind fun _ => ih.bind fun _ => Run.raises_pure _

theorem unmarked_manifests {fs : FileSystem} {directory : Path} {e : Failure}
    (h : k.manifests fs directory o = .error e) : e.Unmarked := by
  unfold manifests at h
  split at h
  next => exact Discovery.unmarked_find h
  next =>
    split at h
    next => exact Discovery.unmarked_find h
    next => exact Discovery.unmarked_find h

theorem raises_runtime (k : ManifestKind) : k.runtime?.Raises Unmarked := by
  refine (raises_firstVersion interpreters).attempt_bind (fun _ => Run.raises_pure _) fun e he => ?_
  dsimp only
  split
  next => exact Run.raises_throw he
  next => exact (Run.raises_note _).bind fun _ => Run.raises_pure _

theorem FailsFor.raises_find (hk : k.FailsFor programs) (directory : Text) (o : SourceOptions) :
    (k.find directory o).Raises Unmarked := by
  unfold find
  split
  next => exact (Run.raises_note _).bind fun _ => Run.raises_pure _
  next =>
    refine Run.raises_get.bind fun m =>
      (Run.raises_ofExcept fun _ => unmarked_manifests).bind fun files => ?_
    split
    next => exact (Run.raises_note _).bind fun _ => Run.raises_pure _
    next =>
      refine k.raises_runtime.bind fun runtime => ?_
      cases runtime with
      | none => exact Run.raises_pure _
      | some runtime => exact hk.raises_findingsFor runtime files

/-- A source fails without an exit code, its findings with the status of what its manifests fail for. -/
theorem FailsFor.failsFor_source (hk : k.FailsFor programs) : k.source.FailsFor programs where
  raises := hk.raises_find
  findings directory _ := ensures_find directory hk.ensures_findingFor

end ManifestKind

/-- That there is no room for a graph has no exit code. -/
theorem raises_graphOf (r : Report) (manager : Text) : (graphOf r manager).Raises Unmarked :=
  Run.raises_get.bind fun _ => Run.raises_ofExcept fun _ h => by
    rw [eq_tooDeep_of_graphWithin h]
    exact Failure.unmarked_of rfl

theorem failsFor_requirementsFiles (c : Client) (reportExclusions : Bool) :
    (requirementsFiles c reportExclusions).FailsFor [c.path] :=
  fun file _ => (c.raises_reportOnFile file.path.toText).bind fun r =>
    (raises_graphOf r _).mono fun _ => reportsFor_of_unmarked

end Pip

namespace Pipenv

variable {e : Failure}

/-- The extras of an entry cannot be shown. -/
def unshowable : Failure := .of (.foreign .value Data.tooLongToShow)

theorem eq_unshowable_of_bracketedExtras {entry : Data} (h : bracketedExtras entry = .error e) :
    e = unshowable := by
  unfold bracketedExtras at h
  split at h
  next =>
    split at h
    next => cases h
    next => cases h; rfl
  next => cases h

theorem eq_unshowable_of_namedRequirement {name : Text} {entry : Data}
    (h : namedRequirement name entry = .error e) : e = unshowable := by
  rcases Except.bind_eq_error.mp h with h | ⟨extras, _, h⟩
  · exact eq_unshowable_of_bracketedExtras h
  · split at h
    next => cases h
    next => cases h

theorem eq_unshowable_of_requirement {name : Text} {entry : Data} (h : requirement name entry = .error e) :
    e = unshowable := by
  unfold requirement at h
  split at h
  next => cases h
  next =>
    dsimp only at h
    split at h
    next => cases h
    next =>
      split at h
      next => cases h
      next => split at h <;> cases h
      next => cases h
      next => exact eq_unshowable_of_namedRequirement h
  next => cases h

/-- Nothing else keeps a Pipfile from having requirements. -/
theorem eq_unshowable_of_requirements {file : Pipfile} {dev : Bool} (h : file.requirements dev = .error e) :
    e = unshowable := by
  rcases Except.bind_eq_error.mp h with h | ⟨found, _, h⟩
  · obtain ⟨⟨name, entry⟩, _, h⟩ := Except.exists_of_mapM_eq_error h
    exact eq_unshowable_of_requirement h
  · cases h

theorem unmarked_requirements {file : Pipfile} {dev : Bool} (h : file.requirements dev = .error e) :
    e.Unmarked := by
  rw [eq_unshowable_of_requirements h]
  exact Failure.unmarked_of rfl

theorem unmarked_failure (fault : Toml.Fault) : fault.failure.Unmarked := by
  cases fault with
  | impossibleDate why => exact (Failure.unmarked_of rfl).caused rfl
  | _ => exact Failure.unmarked_of rfl

theorem unmarked_decode {bs : Bytes} (h : Pipfile.decode bs = .error e) : e.Unmarked := by
  unfold Pipfile.decode at h
  split at h
  next => cases h; exact unmarked_failure .encoding
  next => cases h; exact unmarked_failure .longNumeral
  next => cases h; exact unmarked_failure .tooDeep
  next fault _ _ _ _ => cases h; exact (unmarked_failure fault).caused rfl
  next =>
    split at h
    next => cases h
    next => cases h; exact (Failure.unmarked_of rfl).caused rfl

theorem raises_read (p : Path) : (Pipfile.read p).Raises Unmarked := by
  refine (Run.raises_readFile p).attempt_bind (fun content => ?_) fun e he => ?_
  · exact Run.raises_ofExcept fun _ => unmarked_decode
  · exact Run.raises_throw (he.unmarked.caused rfl)

theorem raises_constraintsAt (lockPath : Path) (dev : Bool) : (constraintsAt lockPath dev).Raises Unmarked :=
  Run.Raises.attempt_bind (F := fun _ => True) (fun _ _ _ _ => trivial) (fun _ => Run.raises_pure _)
    fun _ _ => (Run.raises_note _).bind fun _ => Run.raises_pure _

theorem raises_report (c : Pip.Client) (file : Pipfile) (constraints : List Text) (dev : Bool) :
    (report c file constraints dev).Raises (ReportsFor Pip.isStructured [c.path]) := by
  refine (Run.raises_ofExcept fun e h => reportsFor_of_unmarked (unmarked_requirements h)).bind
    fun packages => ?_
  split
  next => exact Run.raises_pure _
  next => exact c.raises_reportOnPackages packages constraints

theorem failsFor_pipfiles (c : Pip.Client) (reportExclusions : Bool) :
    (pipfiles c reportExclusions).FailsFor [c.path] := by
  intro file o
  show (graphOf c file o).Raises _
  have hunmarked : ∀ {α : Type} {x : Run α}, x.Raises Unmarked →
      x.Raises (ReportsFor Pip.isStructured [c.path]) := fun hx => hx.mono fun _ => reportsFor_of_unmarked
  rw [graphOf_eq]
  refine (hunmarked (raises_read file.path)).bind fun pipfile => ?_
  refine ((Run.raises_isPresent _).mono fun e he => reportsFor_of_unmarked he.unmarked).bind fun found => ?_
  split
  next =>
    refine (hunmarked (raises_constraintsAt _ o.dev)).bind fun constraints => ?_
    refine (raises_report c pipfile constraints o.dev).bind fun r => ?_
    refine (hunmarked (Pip.raises_graphOf r "pipenv")).bind fun g => ?_
    exact (Run.raises_note _).bind fun _ => Run.raises_pure _
  next => exact Run.raises_fail (reportsFor_of_unmarked (Failure.unmarked_of rfl))

end Pipenv
end ManifestGraph
