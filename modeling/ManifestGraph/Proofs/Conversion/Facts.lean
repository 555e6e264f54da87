/-
  The graphs of a conversion beside the answer as it is written. An answer is a document with scans in it, and
  facts in each of those; the facts that tell of a graph are the `graphFacts` of the document. They are taken
  over in order and as a whole, and the data of all other facts is overlooked, as is shown by comparing a
  document with what is left of it without that data (`Response.bare`). The main result is
  `graphs_taken_over`.
-/
import ManifestGraph.Proofs.Conversion.Status
import ManifestGraph.Proofs.Data.Agree
import ManifestGraph.Proofs.Data.Related
import ManifestGraph.Proofs.Json.Documents

namespace ManifestGraph

open Fit (Agree)

/-- The items of the list under the first of some names that a record has. -/
def Data.itemsAt (names : List Text) (d : Data) : List Data :=
  ((names.findSome? fun name => d.get? name).bind items?).getD []

namespace Members

variable {α : Type} {ms : Members} {name : Text} {names : List Text} {fit : Data → Fit α} {a : α}
  {as : List α}

theorem get?_record : Data.get? name (.record ms) = List.lookup name (lastOfEach ms) :=
  lookup_lastOfEach.symm

theorem find?_eq (ms : Members) (names : List Text) :
    (ms.find? names).map Prod.snd = names.findSome? fun name => List.lookup name ms := by
  induction names with
  | nil => rfl
  | cons name names ih =>
    rw [find?, List.findSome?_cons, ← ih]
    cases List.lookup name ms <;> rfl

theorem required_lastOfEach_eq_ok : required (lastOfEach ms) [name] fit = .ok a ↔
    ∃ d, Data.get? name (.record ms) = some d ∧ fit d = .ok a := by
  rw [required_eq_ok, find?_singleton, get?_record]
  cases List.lookup name (lastOfEach ms) <;> simp

/-- A list that fits is made of the items that are written there. -/
theorem forall₂_of_withDefault (h : withDefault (lastOfEach ms) names [] (Data.fitList fit) = .ok as) :
    List.Forall₂ (fun d a => fit d = .ok a) (Data.itemsAt names (.record ms)) as := by
  have hget : (names.findSome? fun name => Data.get? name (.record ms)) =
      (find? (lastOfEach ms) names).map Prod.snd := by
    rw [find?_eq]
    exact congrArg (names.findSome? ·) (funext fun name => get?_record)
  rw [Data.itemsAt, hget]
  rcases withDefault_eq_ok.mp h with ⟨hnone, rfl⟩ | ⟨⟨name, d⟩, hfound, hlist⟩
  · rw [hnone]
    exact .nil
  · rw [hfound]
    cases d with
    | list ds => exact Fit.items_eq_ok.mp hlist
    | _ => cases hlist

end Members

namespace Conversion

variable {d d' : Data} {ds : List Data} {body body' : Bytes} {metadata : Metadata} {g : DependencyGraph}
  {gs : List DependencyGraph} {response : Response} {scan : Scan} {scans : List Scan} {fact : Fact}
  {facts : List Fact} {m m' : Machine} {reason : Text} {fields : List (Text × Text)}
  {rest : List ServiceReply} {e : Failure}

/-! ## What is written -/

/-- The scans of an answer. -/
def scansIn (d : Data) : List Data := d.itemsAt ["scanResults", "scan_results"]

/-- The facts of a scan. -/
def factsIn (scan : Data) : List Data := scan.itemsAt ["facts"]

/-- The facts of an answer that tell of a graph, in order. -/
def graphFacts (d : Data) : List Data := ((scansIn d).flatMap factsIn).filter Fact.isGraph

/-- The data of a fact is a graph document. -/
def Tells (fact : Data) (g : DependencyGraph) : Prop :=
  ∃ data, fact.get? "data" = some data ∧ DependencyGraph.fit data = .ok g

/-- A fact tells of one graph at most. -/
theorem Tells.eq {fact : Data} {g g' : DependencyGraph} (h : Tells fact g) (h' : Tells fact g') : g = g' := by
  obtain ⟨data, hdata, hfit⟩ := h
  obtain ⟨data', hdata', hfit'⟩ := h'
  cases hdata.symm.trans hdata'
  cases hfit.symm.trans hfit'
  rfl

theorem Fact.fit_eq_ok (h : Fact.fit d = .ok fact) :
    (Fact.isGraph d = true ∧ ∃ g, fact.graph? = some g ∧ Tells d g) ∨
      (Fact.isGraph d = false ∧ fact.graph? = none) := by
  unfold Fact.fit at h
  split at h
  next hgraph =>
    have hfit := Fit.under_eq_ok.mp h
    cases d with
    | record ms =>
      obtain ⟨g, hg, rfl⟩ := Fit.exists_of_map hfit
      exact Or.inl ⟨hgraph, g, rfl, Members.required_lastOfEach_eq_ok.mp hg⟩
    | _ => cases hfit
  next hother =>
    have hfit := Fit.under_eq_ok.mp h
    refine Or.inr ⟨Bool.eq_false_iff.mpr hother, ?_⟩
    cases d with
    | record ms =>
      obtain ⟨_, _, htype, _, rfl⟩ := Fit.exists_of_seq hfit
      obtain ⟨_, _, rfl⟩ := Fit.exists_of_map htype
      rfl
    | _ => cases hfit

/-- The graphs of some facts are those that are told of. -/
theorem forall₂_tells (h : List.Forall₂ (fun d f => Fact.fit d = .ok f) ds facts) :
    List.Forall₂ Tells (ds.filter Fact.isGraph) (facts.filterMap Fact.graph?) := by
  induction h with
  | nil => exact .nil
  | @cons d f ds facts hfit _ ih =>
    rcases Fact.fit_eq_ok hfit with ⟨hgraph, g, hg, htells⟩ | ⟨hother, hnone⟩
    · rw [List.filter_cons_of_pos hgraph, List.filterMap_cons_some hg]
      exact .cons htells ih
    · rw [List.filter_cons_of_neg (Bool.eq_false_iff.mp hother), List.filterMap_cons_none hnone]
      exact ih

theorem Scan.forall₂_facts (h : Scan.fit d = .ok scan) :
    List.Forall₂ (fun d f => Fact.fit d = .ok f) (factsIn d) scan.facts := by
  cases d with
  | record ms =>
    obtain ⟨_, _, hidentity, _, rfl⟩ := Fit.exists_of_seq h
    obtain ⟨_, _, htarget, _, rfl⟩ := Fit.exists_of_seq hidentity
    obtain ⟨_, _, hlist, _, rfl⟩ := Fit.exists_of_seq htarget
    obtain ⟨_, _, hpolicy, hfacts, rfl⟩ := Fit.exists_of_seq hlist
    obtain ⟨_, _, hname, _, rfl⟩ := Fit.exists_of_seq hpolicy
    obtain ⟨_, _, rfl⟩ := Fit.exists_of_map hname
    exact Members.forall₂_of_withDefault hfacts
  | _ => cases h

theorem forall₂_tells_scans (h : List.Forall₂ (fun d s => Scan.fit d = .ok s) ds scans) :
    List.Forall₂ Tells ((ds.flatMap factsIn).filter Fact.isGraph) (scans.flatMap Scan.graphs) := by
  induction h with
  | nil => exact .nil
  | cons hfit _ ih =>
    rw [List.flatMap_cons, List.flatMap_cons, List.filter_append]
    exact List.rel_append (forall₂_tells (Scan.forall₂_facts hfit)) ih

/-- The graphs of an answer are those that it tells of, one by one. -/
theorem Response.forall₂_graphs (h : Response.fit d = .ok response) :
    List.Forall₂ Tells (graphFacts d) response.graphs := by
  cases d with
  | record ms =>
    obtain ⟨_, _, hlist, _, rfl⟩ := Fit.exists_of_seq h
    obtain ⟨_, hscans, rfl⟩ := Fit.exists_of_map hlist
    exact forall₂_tells_scans (Members.forall₂_of_withDefault hscans)
  | _ => cases h

/-! ## What is overlooked -/

/-- A fact without its data, unless it tells of a graph. -/
def Fact.bare (d : Data) : Data := if Fact.isGraph d then d else d.without "data"

/-- A scan without the data of its other facts. -/
def Scan.bare : Data → Data := Data.mapAt ["facts"] (Data.mapItems Fact.bare)

/-- An answer without the data of its other facts. -/
def Response.bare : Data → Data := Data.mapAt ["scanResults", "scan_results"] (Data.mapItems Scan.bare)

theorem Fact.isGraph_without (d : Data) : Fact.isGraph (d.without "data") = Fact.isGraph d := by
  cases d with
  | record ms =>
    have hlookup : Data.get? "type" (Data.without "data" (.record ms)) = Data.get? "type" (.record ms) := by
      rw [Data.without, Members.get?_record, Members.get?_record, Members.lookup_without]
      exact if_neg (by decide)
    rw [isGraph, isGraph, hlookup]
  | _ => rfl

/-- Any data fits. -/
theorem exists_withDefault_fitAny (ms : Members) (names : List Text) (absent : Data) :
    ∃ d, ms.withDefault names absent Data.fitAny = .ok d := by
  unfold Members.withDefault
  cases ms.find? names with
  | none => exact ⟨absent, rfl⟩
  | some m => exact ⟨m.2.settled, rfl⟩

theorem Fact.agree_fit (d : Data) :
    Agree (fun f f' => f.graph? = f'.graph?) (Fact.fit (Fact.bare d)) (Fact.fit d) := by
  rw [bare]
  by_cases hgraph : isGraph d = true
  · rw [if_pos hgraph]
    exact (Fit.agree_of_eq rfl).mono fun _ _ h => congrArg graph? h
  rw [if_neg hgraph, fit, fit, isGraph_without, if_neg hgraph, if_neg hgraph]
  refine Agree.under ?_ _
  cases d with
  | record ms =>
    -- any data fits and gives no graph, so that only the types are left to compare
    have htype : ∀ name ∈ ([("type" : Text)]), List.lookup name (lastOfEach (ms.filter fun m => m.1 ≠ "data")) =
        List.lookup name (lastOfEach ms) := fun name hname =>
      (Members.lookup_without name "data" ms).trans (if_neg (List.mem_singleton.mp hname ▸ by decide))
    have hdata : Agree (fun _ _ => True)
        (Members.withDefault (lastOfEach (ms.filter fun m => m.1 ≠ "data")) ["data"] .null Data.fitAny)
        (Members.withDefault (lastOfEach ms) ["data"] .null Data.fitAny) := by
      obtain ⟨_, hleft⟩ := exists_withDefault_fitAny (lastOfEach (ms.filter fun m => m.1 ≠ "data")) ["data"] .null
      obtain ⟨_, hright⟩ := exists_withDefault_fitAny (lastOfEach ms) ["data"] .null
      rw [hleft, hright]
      exact .ok trivial
    refine Agree.seq ?_ hdata
    exact (Members.agree_withDefault_same htype).map fun _ _ _ _ _ _ => rfl
  | _ => exact .bad _

theorem Scan.agree_fit (d : Data) :
    Agree (fun s s' => s.graphs = s'.graphs) (Scan.fit (Scan.bare d)) (Scan.fit d) := by
  cases d with
  | record ms =>
    have hfacts := Members.agree_mapAt ms ["facts"] List.Forall₂.nil (Data.agree_fitList Fact.agree_fit)
    refine Agree.seq ?_ (Members.agree_mapAt_same (by decide))
    refine Agree.seq ?_ (Members.agree_mapAt_same (by decide))
    refine Agree.seq ?_ (Members.agree_mapAt_same (by decide))
    refine Agree.seq ?_ hfacts
    refine Agree.seq ?_ (Members.agree_mapAt_same (by decide))
    refine Agree.map (Members.agree_mapAt_same (by decide)) ?_
    intro name name' _ policy policy' _ facts facts' hsame remoteUrl remoteUrl' _ identity identity' _
      reference reference' _
    exact filterMap_eq_of_forall₂ hsame
  | _ => exact .bad _

/-- An answer has the same graphs without the data of its other facts, or is wrong in the same places. -/
theorem Response.agree_fit (d : Data) :
    Agree (fun r r' => r.graphs = r'.graphs) (Response.fit (Response.bare d)) (Response.fit d) := by
  cases d with
  | record ms =>
    have hscans := Members.agree_mapAt ms ["scanResults", "scan_results"] List.Forall₂.nil
      (Data.agree_fitList Scan.agree_fit)
    refine Agree.seq ?_ (Members.agree_mapAt_same (by decide))
    refine Agree.map hscans ?_
    intro scans scans' hsame warnings warnings' _
    exact flatMap_eq_of_forall₂ hsame
  | _ => exact .bad _

theorem graphsOf_congr {response' : Response} (h : response.graphs = response'.graphs) :
    graphsOf response metadata = graphsOf response' metadata := by
  unfold graphsOf
  unfold Response.graphs at h
  rw [h]

theorem conclusion_of_document (hd : Json.readStrict body = some d) :
    conclusion metadata body = match Response.fit d with
      | .ok response => graphsOf response metadata
      | .bad misfits => .error (Failure.of (.misfit misfits)).whileConverting := by
  unfold conclusion Response.decode Json.readModel
  rw [hd]
  dsimp only
  cases Response.fit d <;> rfl

/-- A conversion ends in the same way for two answers that are the same without the data of their other
facts. -/
theorem conclusion_of_bare (hd : Json.readStrict body = some d) (hd' : Json.readStrict body' = some d')
    (h : Response.bare d = Response.bare d') : conclusion metadata body = conclusion metadata body' := by
  have hgraphs : (Response.fit d).map Response.graphs = (Response.fit d').map Response.graphs := by
    rw [← (Response.agree_fit d).map_eq, ← (Response.agree_fit d').map_eq, h]
  rw [conclusion_of_document hd, conclusion_of_document hd']
  cases hfit : Response.fit d with
  | ok response =>
    cases hfit' : Response.fit d' with
    | ok response' =>
      rw [hfit, hfit'] at hgraphs
      exact graphsOf_congr (Fit.ok.inj hgraphs)
    | bad misfits' => rw [hfit, hfit'] at hgraphs; cases hgraphs
  | bad misfits =>
    cases hfit' : Response.fit d' with
    | ok response' => rw [hfit, hfit'] at hgraphs; cases hgraphs
    | bad misfits' => rw [hfit, hfit'] at hgraphs; cases hgraphs; rfl

/-! ## Graphs of an answer -/

/-- The document is an answer of the service. -/
def IsAnswer (d : Data) : Prop := ∃ response, Response.fit d = .ok response

/-- The graph of nothing but the root that the metadata describes. -/
def loneRoot (metadata : Metadata) : DependencyGraph :=
  let version := if metadata.version.isEmpty then none else some metadata.version
  let info : PackageInfo := { name := metadata.name, version }
  { schema := "1.3.0"
    manager := { name := metadata.manager }
    packages := [{ id := info.id, info }]
    root := "root-node"
    nodes := [{ id := "root-node", package := info.id }] }

theorem rootOnly_of_named (hmanager : metadata.manager ≠ []) (hname : metadata.name ≠ []) :
    rootOnly metadata = .ok (loneRoot metadata) := by
  rw [rootOnly, List.isEmpty_eq_false_iff.mpr hmanager, List.isEmpty_eq_false_iff.mpr hname]
  rfl

theorem rootOnly_of_nameless (h : metadata.manager = [] ∨ metadata.name = []) :
    ∃ fault, rootOnly metadata = .error (.of (.resolution fault)) := by
  rw [rootOnly]
  split
  next => exact ⟨_, rfl⟩
  next hmanager =>
    have hname := h.resolve_left fun hnone => hmanager (List.isEmpty_iff.mpr hnone)
    rw [if_pos (List.isEmpty_iff.mpr hname)]
    exact ⟨_, rfl⟩

theorem failsConversion_of_not_isAnswer (metadata : Metadata) (hd : Json.readStrict body = some d)
    (h : ¬ IsAnswer d) : FailsConversion (conclusion metadata body) := by
  rw [conclusion_of_document hd]
  cases hfit : Response.fit d with
  | ok response => exact absurd ⟨response, hfit⟩ h
  | bad misfits => exact ⟨_, rfl, Failure.isOfConversion_whileConverting _⟩

theorem conclusion_of_answer (hd : Json.readStrict body = some d) (h : Response.fit d = .ok response) :
    conclusion metadata body = graphsOf response metadata := by
  rw [conclusion_of_document hd, h]

/-- An answer has graphs exactly if there are facts that tell of them. -/
theorem graphs_eq_nil_iff (h : Response.fit d = .ok response) : response.graphs = [] ↔ graphFacts d = [] := by
  have hlength := (Response.forall₂_graphs h).length_eq
  rw [← List.length_eq_zero_iff, ← List.length_eq_zero_iff, hlength]

/-- If there are facts that tell of graphs, these are the result, provided that they pass the check. -/
theorem conclusion_of_graphFacts (hd : Json.readStrict body = some d) (hfacts : graphFacts d ≠ []) :
    conclusion metadata body = .ok gs ↔
      IsAnswer d ∧ List.Forall₂ Tells (graphFacts d) gs ∧ ∀ g ∈ gs, g.check = .ok () := by
  constructor
  · intro h
    by_cases hanswer : IsAnswer d
    · obtain ⟨response, hfit⟩ := hanswer
      rw [conclusion_of_answer hd hfit] at h
      rcases graphsOf_eq_ok.mp h with ⟨_, rfl, hcheck⟩ | ⟨hnil, _⟩
      · exact ⟨⟨response, hfit⟩, Response.forall₂_graphs hfit, hcheck⟩
      · exact absurd ((graphs_eq_nil_iff hfit).mp hnil) hfacts
    · obtain ⟨e, he, _⟩ := failsConversion_of_not_isAnswer metadata hd hanswer
      cases he.symm.trans h
  · rintro ⟨⟨response, hfit⟩, htells, hcheck⟩
    -- there is only one list of graphs that the facts tell of, and the answer has it
    have hunique : Relator.RightUnique Tells := fun _ _ _ h h' => h.eq h'
    obtain rfl := List.right_unique_forall₂' hunique htells (Response.forall₂_graphs hfit)
    rw [conclusion_of_answer hd hfit]
    exact graphsOf_eq_ok.mpr (Or.inl ⟨mt (graphs_eq_nil_iff hfit).mp hfacts, rfl, hcheck⟩)

/-- The metadata has no part in the result if there are facts that tell of graphs. -/
theorem conclusion_congr_metadata (metadata' : Metadata) (hd : Json.readStrict body = some d)
    (hfacts : graphFacts d ≠ []) : conclusion metadata' body = conclusion metadata body := by
  rw [conclusion_of_document hd, conclusion_of_document hd]
  cases hfit : Response.fit d with
  | bad misfits => rfl
  | ok response =>
    have hne : response.graphs.isEmpty = false :=
      List.isEmpty_eq_false_iff.mpr (mt (graphs_eq_nil_iff hfit).mp hfacts)
    dsimp only
    rw [graphsOf_eq, graphsOf_eq, hne]
    rfl

/-- If no fact tells of a graph, the result is the graph of the root, which the metadata must name. -/
theorem conclusion_of_no_graphFacts (hd : Json.readStrict body = some d) (hanswer : IsAnswer d)
    (hfacts : graphFacts d = []) :
    conclusion metadata body = (rootOnly metadata).map fun g => [g] := by
  obtain ⟨response, hfit⟩ := hanswer
  rw [conclusion_of_answer hd hfit, graphsOf_eq, (graphs_eq_nil_iff hfit).mpr hfacts]
  cases rootOnly metadata <;> rfl

/-- A fact that tells of no graph, or of one that does not pass the check, lets the conversion fail. -/
theorem exists_error_of_graphFact {fact : Data} (metadata : Metadata) (hd : Json.readStrict body = some d)
    (hfact : fact ∈ graphFacts d) (h : ∀ g, Tells fact g → g.check ≠ .ok ()) :
    ∃ e, conclusion metadata body = .error e := by
  cases hresult : conclusion metadata body with
  | error e => exact ⟨e, rfl⟩
  | ok gs =>
    obtain ⟨_, htells, hcheck⟩ := (conclusion_of_graphFacts hd (List.ne_nil_of_mem hfact)).mp hresult
    obtain ⟨g, hg, hfactTells⟩ := exists_of_mem_left htells hfact
    exact absurd (hcheck g hg) (h g hfactTells)

/-- For a response with the status 200, whose body is a document: if there are facts that tell of graphs, the
result is what they tell of, one by one and in order, and all of it passes the check; the metadata has no part
in it. One such fact that tells of no graph, or of one that does not pass the check, lets the conversion
fail. If no fact tells of a graph, the result is the graph of the root alone, and there is none without a
package manager and a name. Answers that are the same without the data of their other facts have the same
result. A body that is no document, or no answer, is a failure of the conversion. -/
theorem graphs_taken_over (s : Service) (sbom : Bytes) (metadata : Metadata) (remoteUrl : Text)
    (hreply : nextOutcome? m.service = some (.response 200 reason fields body, rest)) :
    (Json.readStrict body = none → FailsConversion (graphs s sbom metadata remoteUrl m).1) ∧
    ∀ d, Json.readStrict body = some d →
      (¬ IsAnswer d → FailsConversion (graphs s sbom metadata remoteUrl m).1) ∧
      (graphFacts d ≠ [] →
        (∀ gs, (graphs s sbom metadata remoteUrl m).1 = .ok gs ↔
          IsAnswer d ∧ List.Forall₂ Tells (graphFacts d) gs ∧ ∀ g ∈ gs, g.check = .ok ()) ∧
        ∀ metadata', (graphs s sbom metadata' remoteUrl m).1 = (graphs s sbom metadata remoteUrl m).1) ∧
      (∀ fact ∈ graphFacts d, (∀ g, Tells fact g → g.check ≠ .ok ()) →
        ∃ e, (graphs s sbom metadata remoteUrl m).1 = .error e) ∧
      (IsAnswer d → graphFacts d = [] →
        (metadata.manager ≠ [] → metadata.name ≠ [] →
          (graphs s sbom metadata remoteUrl m).1 = .ok [loneRoot metadata]) ∧
        (metadata.manager = [] ∨ metadata.name = [] →
          ∃ fault, (graphs s sbom metadata remoteUrl m).1 = .error (.of (.resolution fault)))) ∧
      ∀ m' reason' fields' body' rest' d',
        nextOutcome? m'.service = some (.response 200 reason' fields' body', rest') →
        Json.readStrict body' = some d' → Response.bare d' = Response.bare d →
          (graphs s sbom metadata remoteUrl m').1 = (graphs s sbom metadata remoteUrl m).1 := by
  have hresult : ∀ metadata, (graphs s sbom metadata remoteUrl m).1 = conclusion metadata body :=
    fun metadata => (graphs_of_accepted s sbom metadata remoteUrl hreply (by decide)).1
  rw [hresult metadata]
  refine ⟨fun hnone => ?_, fun d hd => ⟨failsConversion_of_not_isAnswer metadata hd, fun hfacts => ⟨fun gs => ?_,
    fun metadata' => ?_⟩, fun fact hfact h => ?_, fun hanswer hfacts => ⟨fun hmanager hname => ?_,
    fun hnameless => ?_⟩, fun m' reason' fields' body' rest' d' hreply' hd' hbare => ?_⟩⟩
  · rw [failsConversion_conclusion, Response.decode, Json.readModel, hnone]
    exact ⟨_, rfl⟩
  · exact conclusion_of_graphFacts hd hfacts
  · rw [hresult metadata']
    exact conclusion_congr_metadata metadata' hd hfacts
  · exact exists_error_of_graphFact metadata hd hfact h
  · rw [conclusion_of_no_graphFacts hd hanswer hfacts, rootOnly_of_named hmanager hname]
    rfl
  · obtain ⟨fault, hfault⟩ := rootOnly_of_nameless hnameless
    rw [conclusion_of_no_graphFacts hd hanswer hfacts, hfault]
    exact ⟨fault, rfl⟩
  · rw [(graphs_of_accepted s sbom metadata remoteUrl hreply' (by decide)).1]
    exact conclusion_of_bare hd' hd hbare

/-- A scan with one fact of another type. -/
def otherScan (data : Data) : Data :=
  .record [("facts", .list [.record [("type", .text "testedFiles"), ("data", data)]])]

/-- An answer with two scans, the second of which tells of a graph. -/
def mixedAnswer (data : Data) : Data :=
  .record [("scanResults", .list [otherScan data,
    .record [("facts", .list [
      .record [("type", .text graphType), ("data", (loneRoot loneProject).toData)]])]])]

/-- A machine whose service gives the answer with the status 200. -/
def answering (d : Data) : Machine where
  service := [.response 200 "OK" [] (Json.writeBytes Json.Style.compactAscii d)]

open Json (Legible LegibleMembers lenient strict)

section Legible

variable {dialect : Json.Dialect} {n : Nat}

theorem legible_scan {type : Text} {data : Data} (htype : type.isScalar = true)
    (h : Legible dialect n data) :
    Legible dialect (n + 3) (.record [("facts", .list [.record [("type", .text type), ("data", data)]])]) := by
  have hfact : Legible dialect (n + 1) (.record [("type", .text type), ("data", data)]) :=
    LegibleMembers.toRecord (.cons rfl (.text (Or.inr htype)) (.cons rfl h .nil))
  exact LegibleMembers.toRecord (.cons rfl (.list (List.forall_mem_singleton.mpr hfact)) .nil)

theorem legible_answer {scans : List Data} (h : ∀ scan ∈ scans, Legible dialect n scan) :
    Legible dialect (n + 2) (.record [("scanResults", .list scans)]) :=
  LegibleMembers.toRecord (.cons rfl (.list h) .nil)

end Legible

theorem deliverable_loneRoot : (loneRoot loneProject).Deliverable :=
  deliverable_rootOnly ⟨rfl, rfl, rfl⟩ (rootOnly_of_named (List.cons_ne_nil _ _) (List.cons_ne_nil _ _))

/-- The body of the answer is read as the answer. -/
theorem readStrict_mixedAnswer {data : Data} (h : Legible strict 8 data) :
    Json.readStrict (Json.writeBytes Json.Style.compactAscii (mixedAnswer data)) = some (mixedAnswer data) := by
  have hgraph : Legible strict 8 (loneRoot loneProject).toData :=
    (DependencyGraph.legible_toData (Or.inr deliverable_loneRoot.writable)).mono (by decide)
  have hanswer : Legible strict 13 (mixedAnswer data) := legible_answer
    (List.forall_mem_cons.mpr ⟨legible_scan rfl h, List.forall_mem_singleton.mpr (legible_scan rfl hgraph)⟩)
  exact Json.readStrict_writeBytes Json.lays_compactAscii Json.plain_compactAscii (hanswer.mono (by decide))

/-- Data that looks like a graph, and data that does not, in a fact of another type. -/
theorem graphs_taken_over_mixed :
    ∃ gs, (graphs remoteService [] loneProject [] (answering (mixedAnswer .null))).1 = .ok gs ∧
      List.Forall₂ Tells (graphFacts (mixedAnswer .null)) gs ∧ (∀ g ∈ gs, g.check = .ok ()) ∧
      (graphs remoteService [] loneProject []
        (answering (mixedAnswer (.list [(loneRoot loneProject).toData])))).1 = .ok gs := by
  have hgraphLike : Legible strict 8 (.list [(loneRoot loneProject).toData]) := .list
    (List.forall_mem_singleton.mpr (DependencyGraph.legible_toData (Or.inr deliverable_loneRoot.writable)))
  have hread := readStrict_mixedAnswer (.null 8)
  have hfacts : graphFacts (mixedAnswer .null) ≠ [] := List.cons_ne_nil _ _
  obtain ⟨gs, hgs, _⟩ := Except.exists_of_toOption
    (x := (graphs remoteService [] loneProject [] (answering (mixedAnswer .null))).1) (f := List.length)
    (b := 1) (by decide +kernel)
  obtain ⟨_, hresult, _, _, hoverlooked⟩ := (graphs_taken_over remoteService [] loneProject []
    (m := answering (mixedAnswer .null)) rfl).2 _ hread
  obtain ⟨_, htells, hcheck⟩ := ((hresult hfacts).1 gs).mp hgs
  refine ⟨gs, hgs, htells, hcheck, ?_⟩
  exact (hoverlooked _ _ _ _ _ _ rfl (readStrict_mixedAnswer hgraphLike) rfl).trans hgs

/-- An answer with one scan, which tells of no graph. -/
def otherAnswer (data : Data) : Data := .record [("scanResults", .list [otherScan data])]

/-- One half of a pair of surrogates. -/
def loneHalf : Data := .text [.surrogate 0]

/-- A lone half in the data of a fact of another type makes the service's answer unreadable, although it
differs in nothing but that data from one that is read. -/
theorem graphs_of_loneHalf :
    (∃ d d', Json.readLenient (Json.writeBytes Json.Style.compactAscii (otherAnswer .null)) = .ok d ∧
      Json.readLenient (Json.writeBytes Json.Style.compactAscii (otherAnswer loneHalf)) = .ok d' ∧
      Response.bare d' = Response.bare d ∧ graphFacts d' = []) ∧
    (graphs remoteService [] loneProject [] (answering (otherAnswer .null))).1 = .ok [loneRoot loneProject] ∧
    FailsConversion (graphs remoteService [] loneProject [] (answering (otherAnswer loneHalf))).1 := by
  have hfree : ∀ {data}, Legible lenient 1 data → Json.readLenient
      (Json.writeBytes Json.Style.compactAscii (otherAnswer data)) = .ok (otherAnswer data).joined.settled := by
    intro data h
    have hanswer : Legible lenient 6 (otherAnswer data) :=
      legible_answer (List.forall_mem_singleton.mpr (legible_scan rfl h))
    exact Json.readLenient_writeBytes Json.lays_compactAscii Json.plain_compactAscii (hanswer.mono (by decide))
  have hread : Json.readStrict (Json.writeBytes Json.Style.compactAscii (otherAnswer .null)) =
      some (otherAnswer .null) := by
    have hanswer : Legible strict 6 (otherAnswer .null) :=
      legible_answer (List.forall_mem_singleton.mpr (legible_scan rfl (.null 1)))
    exact Json.readStrict_writeBytes Json.lays_compactAscii Json.plain_compactAscii (hanswer.mono (by decide))
  have hrefused : Json.readStrict (Json.writeBytes Json.Style.compactAscii (otherAnswer loneHalf)) = none :=
    Option.isNone_iff_eq_none.mp (by decide +kernel)
  refine ⟨⟨_, _, hfree (.null 1), hfree (.text (Or.inl rfl)), rfl, rfl⟩, ?_, ?_⟩
  · rw [(graphs_of_accepted remoteService [] loneProject [] (m := answering (otherAnswer .null)) rfl
      (by decide)).1, conclusion_of_no_graphFacts hread ⟨_, rfl⟩ rfl,
      rootOnly_of_named (List.cons_ne_nil _ _) (List.cons_ne_nil _ _)]
    rfl
  · rw [(graphs_of_accepted remoteService [] loneProject [] (m := answering (otherAnswer loneHalf)) rfl
      (by decide)).1, failsConversion_conclusion, Response.decode, Json.readModel, hrefused]
    exact ⟨_, rfl⟩

end Conversion
end ManifestGraph
