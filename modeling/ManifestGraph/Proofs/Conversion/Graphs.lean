/-
  Graphs from SBOM documents. Every graph of a conversion can be written and passes the check
  (`ensures_graphs`): those that the service finds are read from its answer and checked, and the graph of
  the root alone is built from the metadata of the document.
-/
import ManifestGraph.Conversion.Graphs
import ManifestGraph.Proofs.Graph.RoundTrip
import ManifestGraph.Sbom

namespace ManifestGraph

/-! ## Metadata -/

/-- The texts that a root package is made of hold no lone halves. -/
structure Metadata.Writable (m : Metadata) : Prop where
  manager : m.manager.isScalar = true
  name : m.name.isScalar = true
  version : m.version.isScalar = true

namespace Sbom

variable {bs : Bytes} {document : Sbom} {m : Metadata}

/-- Name and version of the component hold no lone halves. -/
structure Component.Writable (c : Component) : Prop where
  name : c.name.isScalar = true
  version : c.version.isScalar = true

theorem Component.yields_fit : Yields Component.Writable Component.fit := by
  have hname := yields_fitText.withDefault ["name"] (show Text.isScalar [] = true from rfl)
  have hversion := yields_fitText.withDefault ["version"] (show Text.isScalar [] = true from rfl)
  exact yields_fitModel (((hname.map fun _ hname _ hversion _ _ => ⟨hname, hversion⟩).seq hversion).seq
    (membersYield_any _))

theorem yields_fit : Yields (fun s : Sbom => ∀ c, s.root = some c → c.Writable) fit := by
  have hcomponent := yields_fitModel (Component.yields_fit.optional ["component"])
  have hnone : ∀ c : Component, none = some c → c.Writable := fun _ h => (nomatch h)
  have hroot := hcomponent.withDefault ["metadata"] hnone
  exact yields_fitModel ((hroot.map fun _ hroot _ _ => hroot).seq (membersYield_any _))

theorem readModel_of_decode (h : decode bs = .ok document) : Json.readModel fit bs = .ok document := by
  unfold decode at h
  split at h
  next => cases h
  next hread =>
    rw [hread]
    split at h
    next => cases h
    next =>
      split at h
      next => cases h
      next => cases h; rfl

/-- The metadata of a document that was read. -/
theorem writable_metadata (h : decode bs = .ok document) (hm : document.metadata = .ok m) :
    m.Writable := by
  have hroot := yields_fit.of_readModel (readModel_of_decode h)
  unfold metadata at hm
  split at hm
  next root hsome =>
    cases hm
    exact ⟨Text.isScalar_ofString _, (hroot root hsome).name, (hroot root hsome).version⟩
  next => cases hm

end Sbom

namespace Conversion

variable {m : Metadata} {g : DependencyGraph} {gs : List DependencyGraph}

/-! ## Answers -/

/-- The graph of the fact, if it holds one, can be written. -/
def Fact.Writable (f : Fact) : Prop := ∀ g, f.graph? = some g → g.Writable

theorem Fact.yields_fit : Yields Fact.Writable Fact.fit := by
  intro n d f hd hfit
  unfold Fact.fit at hfit
  split at hfit
  next =>
    have hgraph := DependencyGraph.yields_fit.required ["data"]
    have hfact : ∀ g : DependencyGraph, g.Writable → (Fact.graph g).Writable := by
      intro g hg g' hg'
      rw [← Option.some.inj hg']
      exact hg
    exact yields_fitModel (hgraph.map hfact) n d f hd (Fit.under_eq_ok.mp hfit)
  next =>
    have hother : ∀ type : Text, True → ∀ data : Data, True → (Fact.other type data).Writable :=
      fun _ _ _ _ _ h => (nomatch h)
    exact yields_fitModel (((membersYield_any _).map hother).seq (membersYield_any _)) n d f hd
      (Fit.under_eq_ok.mp hfit)

/-- The graphs of the scan can be written. -/
def Scan.Writable (s : Scan) : Prop := ∀ g ∈ s.graphs, g.Writable

theorem Scan.yields_fit : Yields Scan.Writable Scan.fit := by
  have hfacts := Fact.yields_fit.list.withDefault ["facts"] (List.forall_mem_nil _)
  have hscan : ∀ name : Text, True → ∀ policy, True → ∀ facts : List Fact, (∀ f ∈ facts, f.Writable) →
      ∀ remoteUrl, True → ∀ identity, True → ∀ targetReference, True →
        (Scan.mk name policy facts remoteUrl identity targetReference).Writable := by
    intro _ _ _ _ facts hfacts _ _ _ _ _ _ g hg
    obtain ⟨f, hf, hgraph⟩ := List.mem_filterMap.mp hg
    exact hfacts f hf g hgraph
  exact yields_fitModel (((((((membersYield_any _).map hscan).seq (membersYield_any _)).seq hfacts).seq
    (membersYield_any _)).seq (membersYield_any _)).seq (membersYield_any _))

/-- All graphs of the answer can be written. -/
def Response.Writable (r : Response) : Prop := ∀ s ∈ r.scans, s.Writable

/-- The graphs of an answer that was read can be written. -/
theorem Response.yields_fit : Yields Response.Writable Response.fit := by
  have hscans := Scan.yields_fit.list.withDefault ["scanResults", "scan_results"]
    (List.forall_mem_nil _)
  exact yields_fitModel ((hscans.map fun _ hscans _ _ => hscans).seq (membersYield_any _))

theorem Service.ensures_failWith (e : Failure) (P : α → Prop) :
    (Service.failWith e : Run α).Ensures P :=
  Run.ensures_bind fun _ => Run.ensures_throw _

theorem Service.ensures_convert (s : Service) (sbom : Bytes) (remoteUrl : Text) :
    (s.convert sbom remoteUrl).Ensures Response.Writable := by
  refine Run.ensures_bind fun reply => ?_
  rcases reply with e | ⟨status, reason, headers, body⟩ | message
  · exact Run.ensures_bind fun _ => ensures_failWith _ _
  · dsimp only
    split
    next => exact ensures_failWith _ _
    next =>
      split
      next => exact ensures_failWith _ _
      next =>
        split
        next response hread => exact Run.ensures_pure (Response.yields_fit.of_readModel hread)
        next => exact Run.ensures_bind fun _ => ensures_failWith _ _
  · exact ensures_failWith _ _

/-! ## Graphs -/

theorem checkAll_eq_ok : checkAll gs = .ok () ↔ ∀ g ∈ gs, g.check = .ok () := by
  induction gs with
  | nil => exact ⟨fun _ => List.forall_mem_nil _, fun _ => rfl⟩
  | cons g gs ih =>
    rw [checkAll, Except.bind_eq_ok, List.forall_mem_cons, ih]
    exact ⟨fun ⟨_, hg, hgs⟩ => ⟨hg, hgs⟩, fun ⟨hg, hgs⟩ => ⟨(), hg, hgs⟩⟩

/-- The graphs of an answer. -/
def Response.graphs (r : Response) : List DependencyGraph := r.scans.flatMap Scan.graphs

theorem graphsOf_eq (response : Response) (m : Metadata) :
    graphsOf response m = checkAll response.graphs >>= fun _ =>
      if response.graphs.isEmpty then rootOnly m >>= fun g => .ok [g] else .ok response.graphs := rfl

/-- The graphs of an answer are taken if all of them pass the check; the root stands alone only if there are
none. -/
theorem graphsOf_eq_ok {response : Response} : graphsOf response m = .ok gs ↔
    (response.graphs ≠ [] ∧ gs = response.graphs ∧ ∀ g ∈ gs, g.check = .ok ()) ∨
      (response.graphs = [] ∧ ∃ g, rootOnly m = .ok g ∧ gs = [g]) := by
  rw [graphsOf_eq, Except.bind_eq_ok]
  cases hgraphs : response.graphs with
  | nil =>
    constructor
    · rintro ⟨_, _, h⟩
      obtain ⟨g, hroot, h⟩ := Except.bind_eq_ok.mp h
      cases h
      exact Or.inr ⟨rfl, g, hroot, rfl⟩
    · rintro (⟨hne, _⟩ | ⟨_, g, hroot, rfl⟩)
      · exact absurd rfl hne
      · exact ⟨(), rfl, Except.bind_eq_ok.mpr ⟨g, hroot, rfl⟩⟩
  | cons g rest =>
    constructor
    · rintro ⟨_, hcheck, h⟩
      cases h
      exact Or.inl ⟨List.cons_ne_nil g rest, rfl, checkAll_eq_ok.mp hcheck⟩
    · rintro (⟨_, rfl, hcheck⟩ | ⟨hnil, _⟩)
      · exact ⟨(), checkAll_eq_ok.mpr hcheck, rfl⟩
      · cases hnil

theorem exists_of_checkAll_eq_error {e : Failure} (h : checkAll gs = .error e) :
    ∃ g ∈ gs, g.check = .error e := by
  induction gs with
  | nil => cases h
  | cons g gs ih =>
    rcases Except.bind_eq_error.mp h with h | ⟨_, _, h⟩
    · exact ⟨g, List.mem_cons_self, h⟩
    · obtain ⟨g', hg', h⟩ := ih h
      exact ⟨g', List.mem_cons_of_mem g hg', h⟩

theorem exists_of_rootOnly_eq_error {e : Failure} (h : rootOnly m = .error e) :
    ∃ fault, e = .of (.resolution fault) := by
  unfold rootOnly at h
  split at h
  next => cases h; exact ⟨_, rfl⟩
  next =>
    split at h
    next => cases h; exact ⟨_, rfl⟩
    next => cases h

/-- An answer gives no graphs if one of its graphs does not pass the check, or if it has none and the metadata
do not name a root. -/
theorem exists_of_graphsOf_eq_error {response : Response} {e : Failure}
    (h : graphsOf response m = .error e) :
    (∃ messages, e = .of (.graphInvalid messages)) ∨ ∃ fault, e = .of (.resolution fault) := by
  rw [graphsOf_eq] at h
  rcases Except.bind_eq_error.mp h with h | ⟨_, _, h⟩
  · obtain ⟨g, _, h⟩ := exists_of_checkAll_eq_error h
    exact Or.inl (DependencyGraph.exists_of_check_eq_error h)
  · split at h
    next =>
      rcases Except.bind_eq_error.mp h with h | ⟨g, _, h⟩
      · exact Or.inr (exists_of_rootOnly_eq_error h)
      · cases h
    next => cases h

/-- The graph of a root with writable metadata. -/
theorem deliverable_rootOnly (hm : m.Writable) (h : rootOnly m = .ok g) : g.Deliverable := by
  unfold rootOnly at h
  split at h
  next => cases h
  split at h
  next => cases h
  cases h
  have hroot : PackageInfo.Writable
      { name := m.name, version := if m.version.isEmpty then none else some m.version } := by
    refine ⟨hm.name, fun t ht => ?_, fun _ ht => nomatch ht⟩
    dsimp only at ht
    split at ht
    next => cases ht
    next => cases ht; exact hm.version
  have hwritable := GraphBuilder.writable_start (PackageManager.writable_named hm.manager) hroot
  exact ⟨hwritable.build, DependencyGraph.check_of_valid (GraphBuilder.sound_start _ _).valid_build⟩

theorem deliverable_graphsOf {response : Response} (hr : response.Writable) (hm : m.Writable)
    (h : graphsOf response m = .ok gs) : ∀ g ∈ gs, g.Deliverable := by
  rcases graphsOf_eq_ok.mp h with ⟨_, rfl, hcheck⟩ | ⟨_, g, hroot, rfl⟩
  · intro g hg
    obtain ⟨s, hs, hmem⟩ := List.mem_flatMap.mp hg
    exact ⟨hr s hs g hmem, hcheck g hg⟩
  · exact List.forall_mem_singleton.mpr (deliverable_rootOnly hm hroot)

/-- All graphs that an SBOM is converted to can be written and pass the check. -/
theorem ensures_graphs (s : Service) (sbom : Bytes) (hm : m.Writable) (remoteUrl : Text) :
    (graphs s sbom m remoteUrl).Ensures fun gs => ∀ g ∈ gs, g.Deliverable := by
  refine (s.ensures_convert sbom remoteUrl).bind fun response hr => Run.ensures_bind fun _ => ?_
  exact Run.ensures_ofExcept fun gs h => deliverable_graphsOf hr hm h

end Conversion
end ManifestGraph
