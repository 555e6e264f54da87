/-
  Graph documents. A graph that is written and read again is the same, but for labels with repeated keys,
  of which the last counts (`decode_encode`); it can be read again only if it holds no lone halves
  (`isScalar_of_decode_encode`). A record that is read as a graph still is after it was settled
  (`DependencyGraph.settles_fit`).
-/
import ManifestGraph.Graph.Document
import ManifestGraph.Proofs.Graph.Writable
import ManifestGraph.Proofs.Json.Model

namespace ManifestGraph

open Json (Legible LegibleMembers Dialect)

/-! ## Settled documents -/

section Settled

theorem settles_fitName (names : List Text) :
    Settles (Data.fitModel fun ms => ms.required names Data.fitText) :=
  settles_fitModel (settles_fitText.required names)

theorem settles_optionalText : Settles (Data.fitOption Data.fitText) := settles_fitText.option

theorem PackageManager.settles_fit : Settles PackageManager.fit := by
  have hname := settles_fitText.required ["name"]
  have hversion := settles_optionalText.withDefault ["version"] none
  have hrepositories := (settles_fitName ["alias"]).tuple.option.withDefault ["repositories"] none
  exact settles_fitModel ((hname.map.seq hversion).seq hrepositories)

theorem PackageInfo.settles_fit : Settles PackageInfo.fit := by
  have hname := settles_fitText.required ["name"]
  have hversion := settles_optionalText.withDefault ["version"] none
  have hpurl := settles_optionalText.withDefault ["purl", "package_url"] none
  exact settles_fitModel ((hname.map.seq hversion).seq hpurl)

theorem Package.settles_fit : Settles Package.fit :=
  settles_fitModel ((settles_fitText.required ["id"]).map.seq
    (PackageInfo.settles_fit.required ["info"]))

theorem Provenance.settles_fit : Settles Provenance.fit := by
  have htype := settles_fitText.required ["type"]
  have hlocation := settles_fitText.required ["location"]
  have hproperty := (settles_fitName ["name"]).option.withDefault ["property"] none
  exact settles_fitModel ((htype.map.seq hlocation).seq hproperty)

theorem NodeInfo.settles_fit : Settles NodeInfo.fit := by
  have hprovenance := Provenance.settles_fit.option.withDefault
    ["versionProvenance", "version_provenance"] none
  have hlabels := settles_fitText.mapping.option.withDefault ["labels"] none
  exact settles_fitModel (hprovenance.map.seq hlabels)

theorem Node.settles_fit : Settles Node.fit := by
  have hid := settles_fitText.required ["nodeId", "node_id"]
  have hpackage := settles_fitText.required ["pkgId", "pkg_id"]
  have hinfo := NodeInfo.settles_fit.option.withDefault ["info"] none
  have hchildren := (settles_fitName ["nodeId", "node_id"]).tuple.withDefault ["deps"] []
  exact settles_fitModel (((hid.map.seq hpackage).seq hinfo).seq hchildren)

/-- A record that is read as a graph is read as the same graph after it was settled. -/
theorem DependencyGraph.settles_fit : Settles DependencyGraph.fit := by
  have hroot := settles_fitText.required ["rootNodeId", "root_node_id"]
  have hnodes := Node.settles_fit.tuple.withDefault ["nodes"] []
  have hgraph : Settles DependencyGraph.fitNodes := settles_fitModel (hroot.map.seq hnodes)
  have hschema := settles_fitText.required ["schemaVersion", "schema_version"]
  have hmanager := PackageManager.settles_fit.required ["pkgManager", "pkg_manager"]
  have hpackages := Package.settles_fit.tuple.withDefault ["pkgs"] []
  exact settles_fitModel ((((hschema.map.seq hmanager).seq hpackages).seq
    (hgraph.required ["graph"])).seq (settles_noOthers DependencyGraph.memberNames))

end Settled

/-! ## Reading what was written as a record -/

/-- What is known of a node, with every label once. -/
def NodeInfo.settled (i : NodeInfo) : NodeInfo := { i with labels := i.labels.map lastOfEach }

/-- The node with every label once. -/
def Node.settled (n : Node) : Node := { n with info := n.info.map NodeInfo.settled }

/-- The graph with every label of a node once. -/
def DependencyGraph.settled (g : DependencyGraph) : DependencyGraph :=
  { g with nodes := g.nodes.map Node.settled }

theorem fitNames (name : Text) (others : List Text) (names : List Text) :
    Data.fitTuple (Data.fitModel fun ms => ms.required (name :: others) Data.fitText)
      (.list (names.map fun t => .record [(name, .text t)])) = .ok names := by
  have hone : ∀ t : Text, Data.fitModel (fun ms => ms.required (name :: others) Data.fitText)
      (.record [(name, .text t)]) = .ok t := by
    intro t
    show Members.required [(name, .text t)] (name :: others) Data.fitText = _
    rw [Members.required, Members.find?, List.lookup_cons_self]
    rfl
  rw [Data.fitTuple, Fit.items_map fun t _ => hone t, List.map_id']

/-- A member that is there only if it has a value is read back. -/
theorem fitOption_map {fit : Data → Fit α} {f : β → Data} {h : β → α} (x : Option β)
    (hfit : ∀ b, fit (f b) = .ok (h b)) (hnull : ∀ b, f b ≠ .null) :
    Data.fitOption fit ((x.map f).getD .null) = .ok (x.map h) := by
  cases x with
  | none => rfl
  | some b =>
    have hsome : Data.fitOption fit (f b) = (fit (f b)).map some := by
      have hne := hnull b
      cases hd : f b with
      | null => exact absurd hd hne
      | _ => rfl
    rw [Option.map_some, Option.getD_some, hsome, hfit b]
    rfl

theorem PackageManager.fit_toData (m : PackageManager) : PackageManager.fit m.toData = .ok m := by
  obtain ⟨name, version, repositories⟩ := m
  have hfit : PackageManager.fit (toData ⟨name, version, repositories⟩) =
      Fit.ok (mk name version) <*> (Data.fitOption (Data.fitTuple
        (Data.fitModel fun ms => ms.required ["alias"] Data.fitText))
          ((repositories.map fun names => .list (names.map fun t => .record [("alias", .text t)])).getD
            .null)).under (.key "repositories") := by
    cases version <;> cases repositories <;> rfl
  rw [hfit, fitOption_map repositories (fitNames "alias" []) fun _ h => (nomatch h), Option.map_id']
  rfl

theorem PackageInfo.fit_toData (p : PackageInfo) : PackageInfo.fit p.toData = .ok p := by
  obtain ⟨name, version, purl⟩ := p
  cases version <;> cases purl <;> rfl

theorem Package.fit_toData (p : Package) : Package.fit p.toData = .ok p := by
  have hfit : Package.fit p.toData =
      Fit.ok (mk p.id) <*> (PackageInfo.fit p.info.toData).under (.key "info") := rfl
  rw [hfit, PackageInfo.fit_toData]
  rfl

theorem Provenance.fit_toData (p : Provenance) : Provenance.fit p.toData = .ok p := by
  obtain ⟨type, location, property⟩ := p
  cases property <;> rfl

theorem fitLabels (labels : List (Text × Text)) :
    Data.fitMapping Data.fitText (.record (labels.map fun l => (l.1, .text l.2))) =
      .ok (lastOfEach labels) := by
  have hentries : Fit.entries Data.fitText (labels.map fun l => (l.1, .text l.2)) = .ok labels := by
    rw [Fit.entries_eq_ok, List.forall₂_map_left_iff]
    exact List.forall₂_same.mpr fun l _ => ⟨rfl, rfl⟩
  rw [Data.fitMapping, hentries]
  rfl

theorem NodeInfo.fit_toData (i : NodeInfo) : NodeInfo.fit i.toData = .ok i.settled := by
  obtain ⟨provenance, labels⟩ := i
  have hfit : NodeInfo.fit (toData ⟨provenance, labels⟩) =
      mk <$> ((Data.fitOption Provenance.fit ((provenance.map Provenance.toData).getD .null)).under
          (.key "versionProvenance"))
        <*> ((Data.fitOption (Data.fitMapping Data.fitText)
          ((labels.map fun labels => .record (labels.map fun l => (l.1, .text l.2))).getD .null)).under
            (.key "labels")) := by
    cases provenance <;> cases labels <;> rfl
  rw [hfit, fitOption_map provenance Provenance.fit_toData fun _ h => (nomatch h), Option.map_id',
    fitOption_map labels fitLabels fun _ h => (nomatch h)]
  rfl

theorem Node.fit_toData (n : Node) : Node.fit n.toData = .ok n.settled := by
  obtain ⟨id, package, info, children⟩ := n
  have hfit : Node.fit (toData ⟨id, package, info, children⟩) =
      Fit.ok (mk id package)
        <*> ((Data.fitOption NodeInfo.fit ((info.map NodeInfo.toData).getD .null)).under (.key "info"))
        <*> ((Data.fitTuple (Data.fitModel fun ms => ms.required ["nodeId", "node_id"] Data.fitText)
          (.list (children.map fun t => .record [("nodeId", .text t)]))).under (.key "deps")) := by
    cases info <;> rfl
  rw [hfit, fitOption_map info NodeInfo.fit_toData fun _ h => (nomatch h),
    fitNames "nodeId" ["node_id"] children]
  rfl

/-- A graph that was written as a record is read back, with every label once. -/
theorem DependencyGraph.fit_toData (g : DependencyGraph) : fit g.toData = .ok g.settled := by
  obtain ⟨schema, manager, packages, root, nodes⟩ := g
  have hnodes : fitNodes (.record [("rootNodeId", .text root), ("nodes", .list (nodes.map Node.toData))]) =
      Fit.ok (Prod.mk root) <*> (Fit.items Node.fit 0 (nodes.map Node.toData)).under (.key "nodes") := rfl
  have hfit : fit (toData ⟨schema, manager, packages, root, nodes⟩) =
      Fit.ok (fun manager packages (nodes : Text × List Node) (_ : PUnit) =>
          ⟨schema, manager, packages, nodes.1, nodes.2⟩)
        <*> (PackageManager.fit manager.toData).under (.key "pkgManager")
        <*> (Fit.items Package.fit 0 (packages.map Package.toData)).under (.key "pkgs")
        <*> (fitNodes (.record [("rootNodeId", .text root), ("nodes", .list (nodes.map Node.toData))])).under
          (.key "graph")
        <*> .ok ⟨⟩ := rfl
  rw [hfit, hnodes, manager.fit_toData, Fit.items_map fun p _ => Package.fit_toData p,
    Fit.items_map fun n _ => Node.fit_toData n, List.map_id']
  rfl

/-! ## Reading what was written as bytes -/

section Legible

variable {d : Dialect} {n : Nat} {name t : Text} {v : Data}

theorem legible_member (hname : name.isScalar = true) (h : Legible d n v) :
    LegibleMembers d n (member name v) := .cons hname h .nil

theorem legible_optionalMember {x : Option Data} (hname : name.isScalar = true)
    (h : ∀ v, x = some v → Legible d n v) : LegibleMembers d n (optionalMember name x) := by
  cases x with
  | none => exact .nil
  | some v => exact .cons hname (h v rfl) .nil

theorem legible_optionalText {x : Option Text} (hname : name.isScalar = true)
    (h : ∀ t, x = some t → d.Allows t) : LegibleMembers d n (optionalMember name (x.map .text)) := by
  refine legible_optionalMember hname fun v hv => ?_
  obtain ⟨t, ht, rfl⟩ := Option.map_eq_some_iff.mp hv
  exact .text (h t ht)

theorem legible_names {names : List Text} (hname : name.isScalar = true)
    (h : ∀ t ∈ names, d.Allows t) :
    Legible d 2 (.list (names.map fun t => .record [(name, .text t)])) :=
  .listMap fun t ht => LegibleMembers.toRecord (.cons hname (.text (h t ht)) .nil)

theorem PackageManager.legible_toData {m : PackageManager} (h : d.halves = true ∨ m.Writable) :
    Legible d 3 m.toData := by
  have hversion : ∀ t, m.version = some t → d.Allows t := fun t ht => h.imp_right (·.version t ht)
  refine LegibleMembers.toRecord (.append (.append
    (legible_member (by decide) (.text (h.imp_right (·.name))))
    (legible_optionalText (by decide) hversion)) (legible_optionalMember (by decide) fun v hv => ?_))
  obtain ⟨names, hnames, rfl⟩ := Option.map_eq_some_iff.mp hv
  exact legible_names (by decide) fun t ht => h.imp_right (·.repositories names hnames t ht)

theorem PackageInfo.legible_toData {p : PackageInfo} (h : d.halves = true ∨ p.Writable) :
    Legible d 1 p.toData := by
  have hversion : ∀ t, p.version = some t → d.Allows t := fun t ht => h.imp_right (·.version t ht)
  have hpurl : ∀ t, p.purl = some t → d.Allows t := fun t ht => h.imp_right (·.purl t ht)
  exact LegibleMembers.toRecord (.append (.append
    (legible_member (by decide) (.text (h.imp_right (·.name))))
    (legible_optionalText (by decide) hversion)) (legible_optionalText (by decide) hpurl))

theorem Package.legible_toData {p : Package} (h : d.halves = true ∨ p.Writable) :
    Legible d 2 p.toData :=
  LegibleMembers.toRecord (.cons (by decide) (.text (h.imp_right (·.id)))
    (.cons (by decide) (PackageInfo.legible_toData (h.imp_right (·.info))) .nil))

theorem Provenance.legible_toData {p : Provenance} (h : d.halves = true ∨ p.Writable) :
    Legible d 2 p.toData := by
  refine LegibleMembers.toRecord (.append (.append
    (legible_member (by decide) (.text (h.imp_right (·.type))))
    (legible_member (by decide) (.text (h.imp_right (·.location)))))
    (legible_optionalMember (by decide) fun v hv => ?_))
  obtain ⟨name, hname, rfl⟩ := Option.map_eq_some_iff.mp hv
  exact LegibleMembers.toRecord (.cons (by decide) (.text (h.imp_right (·.property name hname))) .nil)

theorem legible_labels {labels : List (Text × Text)}
    (h : ∀ l ∈ labels, d.Allows l.1 ∧ d.Allows l.2) :
    Legible d 1 (.record (labels.map fun l => (l.1, .text l.2))) := by
  refine LegibleMembers.toRecord fun m hm => ?_
  obtain ⟨l, hl, rfl⟩ := List.mem_map.mp hm
  exact ⟨(h l hl).1, .text (h l hl).2⟩

theorem NodeInfo.legible_toData {i : NodeInfo} (h : d.halves = true ∨ i.Writable) :
    Legible d 3 i.toData := by
  refine LegibleMembers.toRecord (.append (legible_optionalMember (by decide) fun v hv => ?_)
    (legible_optionalMember (by decide) fun v hv => ?_))
  · obtain ⟨p, hp, rfl⟩ := Option.map_eq_some_iff.mp hv
    exact Provenance.legible_toData (h.imp_right (·.provenance p hp))
  · obtain ⟨labels, hlabels, rfl⟩ := Option.map_eq_some_iff.mp hv
    have htexts : ∀ l ∈ labels, d.Allows l.1 ∧ d.Allows l.2 := by
      intro l hl
      exact ⟨h.imp_right fun h => ((h.labels labels hlabels).texts l hl).1,
        h.imp_right fun h => ((h.labels labels hlabels).texts l hl).2⟩
    exact (legible_labels htexts).mono (by decide)

theorem Node.legible_toData {n : Node} (h : d.halves = true ∨ n.Writable) :
    Legible d 4 n.toData := by
  have hchildren : ∀ t ∈ n.children, d.Allows t := fun t ht => h.imp_right (·.children t ht)
  refine LegibleMembers.toRecord (.append (.append (.append
    (legible_member (by decide) (.text (h.imp_right (·.id))))
    (legible_member (by decide) (.text (h.imp_right (·.package)))))
    (legible_optionalMember (by decide) fun v hv => ?_))
    (legible_member (by decide) ((legible_names (by decide) hchildren).mono (by decide))))
  obtain ⟨i, hi, rfl⟩ := Option.map_eq_some_iff.mp hv
  exact NodeInfo.legible_toData (h.imp_right (·.info i hi))

/-- A graph is written in few levels of containers; without lone halves, if it can be written. -/
theorem DependencyGraph.legible_toData {g : DependencyGraph} (h : d.halves = true ∨ g.Writable) :
    Legible d 7 g.toData := by
  have hmanager : Legible d 6 g.manager.toData :=
    (PackageManager.legible_toData (h.imp_right (·.manager))).mono (by decide)
  have hpackages : Legible d 6 (.list (g.packages.map Package.toData)) :=
    .listMap fun p hp => (Package.legible_toData (h.imp_right (·.packages p hp))).mono (by decide)
  have hnodes : Legible d 5 (.list (g.nodes.map Node.toData)) :=
    .listMap fun n hn => Node.legible_toData (h.imp_right (·.nodes n hn))
  have hgraph := LegibleMembers.toRecord (.cons (t := "rootNodeId") (by decide)
    (.text (h.imp_right (·.root))) (.cons (t := "nodes") (by decide) hnodes .nil))
  exact LegibleMembers.toRecord (.cons (by decide) (.text (h.imp_right (·.schema)))
    (.cons (by decide) hmanager (.cons (by decide) hpackages (.cons (by decide) hgraph .nil))))

end Legible

namespace DependencyGraph

variable {g g' : DependencyGraph} {bs : Bytes}

/-- No text of the graph holds a lone half, so the graph can be written in UTF-8. -/
def IsScalar (g : DependencyGraph) : Prop := (Json.write Json.Style.compact g.toData).isScalar = true

instance : Decidable g.IsScalar := inferInstanceAs (Decidable (_ = true))

theorem write_of_isScalar (h : g.IsScalar) : g.write = .ok g.encode := if_pos h

theorem write_of_not_isScalar (h : ¬ g.IsScalar) : g.write = .error g.unwritten := if_neg h

theorem decode_eq_ok : decode bs = .ok g ↔ ∃ d, Json.readStrict bs = some d ∧ fit d = .ok g := by
  rw [← Json.readModel_eq_ok, decode]
  cases Json.readModel fit bs with
  | ok g' => exact ⟨fun h => by cases h; rfl, fun h => by cases h; rfl⟩
  | error ms => exact ⟨fun h => (nomatch h), fun h => (nomatch h)⟩

/-- A graph without lone halves is read back as it was written, with every label once. -/
theorem decode_encode (h : g.IsScalar) : decode g.encode = .ok g.settled := by
  have hlegible : Legible Json.loose Json.strict.maxDepth g.toData :=
    (legible_toData (Or.inl rfl)).mono (by decide)
  refine decode_eq_ok.mpr ⟨g.toData, ?_, g.fit_toData⟩
  exact Json.readStrict_write Json.lays_compact rfl hlegible h

/-- A graph that is read back had no lone halves. -/
theorem isScalar_of_decode_encode (h : decode g.encode = .ok g') : g.IsScalar := by
  obtain ⟨d, hread, _⟩ := decode_eq_ok.mp h
  exact Json.isScalar_of_readStrict hread

end DependencyGraph
end ManifestGraph
