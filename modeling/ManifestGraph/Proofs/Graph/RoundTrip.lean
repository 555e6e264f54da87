/-
  Graph documents are read back as they were written. A graph that was read holds no lone halves and no
  label twice (`DependencyGraph.writable_of_decode`), as does one that was built of such parts
  (`GraphBuilder.Writable.build`), and such a graph is read back unchanged
  (`DependencyGraph.Writable.decode_encode`). So a document that is read and written is in a form that
  reading and writing keeps.
-/
import ManifestGraph.Proofs.Graph.Document
import ManifestGraph.Proofs.Machine

namespace ManifestGraph

/-! ## What is read can be written -/

section Reading

theorem yields_fitName (names : List Text) :
    Yields (fun t : Text => t.isScalar = true)
      (Data.fitModel fun ms => ms.required names Data.fitText) :=
  yields_fitModel (yields_fitText.required names)

theorem PackageManager.yields_fit : Yields PackageManager.Writable PackageManager.fit := by
  have hname := yields_fitText.required ["name"]
  have hversion := yields_fitText.optional ["version"]
  have hrepositories := (yields_fitName ["alias"]).tuple.optional ["repositories"]
  refine yields_fitModel (((hname.map ?_).seq hversion).seq hrepositories)
  exact fun _ hname _ hversion _ hrepositories => ⟨hname, hversion, hrepositories⟩

theorem PackageInfo.yields_fit : Yields PackageInfo.Writable PackageInfo.fit := by
  have hname := yields_fitText.required ["name"]
  have hversion := yields_fitText.optional ["version"]
  have hpurl := yields_fitText.optional ["purl", "package_url"]
  refine yields_fitModel (((hname.map ?_).seq hversion).seq hpurl)
  exact fun _ hname _ hversion _ hpurl => ⟨hname, hversion, hpurl⟩

theorem Package.yields_fit : Yields Package.Writable Package.fit := by
  have hid := yields_fitText.required ["id"]
  have hinfo := PackageInfo.yields_fit.required ["info"]
  exact yields_fitModel ((hid.map fun _ hid _ hinfo => ⟨hid, hinfo⟩).seq hinfo)

theorem Provenance.yields_fit : Yields Provenance.Writable Provenance.fit := by
  have htype := yields_fitText.required ["type"]
  have hlocation := yields_fitText.required ["location"]
  have hproperty := (yields_fitName ["name"]).optional ["property"]
  refine yields_fitModel (((htype.map ?_).seq hlocation).seq hproperty)
  exact fun _ htype _ hlocation _ hproperty => ⟨htype, hlocation, hproperty⟩

theorem NodeInfo.yields_fit : Yields NodeInfo.Writable NodeInfo.fit := by
  have hprovenance := Provenance.yields_fit.optional ["versionProvenance", "version_provenance"]
  have hlabels := yields_fitText.mapping.optional ["labels"]
  refine yields_fitModel ((hprovenance.map ?_).seq hlabels)
  exact fun _ hprovenance _ hlabels => ⟨hprovenance, fun ls h => ⟨(hlabels ls h).1, (hlabels ls h).2⟩⟩

theorem Node.yields_fit : Yields Node.Writable Node.fit := by
  have hid := yields_fitText.required ["nodeId", "node_id"]
  have hpackage := yields_fitText.required ["pkgId", "pkg_id"]
  have hinfo := NodeInfo.yields_fit.optional ["info"]
  have hchildren := (yields_fitName ["nodeId", "node_id"]).tuple.withDefault ["deps"]
    (List.forall_mem_nil _)
  refine yields_fitModel ((((hid.map ?_).seq hpackage).seq hinfo).seq hchildren)
  exact fun _ hid _ hpackage _ hinfo _ hchildren => ⟨hid, hpackage, hinfo, hchildren⟩

namespace DependencyGraph

theorem yields_fitNodes :
    Yields (fun x : Text × List Node => x.1.isScalar = true ∧ ∀ n ∈ x.2, n.Writable) fitNodes := by
  have hroot := yields_fitText.required ["rootNodeId", "root_node_id"]
  have hnodes := Node.yields_fit.tuple.withDefault ["nodes"] (List.forall_mem_nil _)
  exact yields_fitModel ((hroot.map fun _ hroot _ hnodes => ⟨hroot, hnodes⟩).seq hnodes)

/-- A graph in a document that was read can be written. -/
theorem yields_fit : Yields DependencyGraph.Writable fit := by
  have hschema := yields_fitText.required ["schemaVersion", "schema_version"]
  have hmanager := PackageManager.yields_fit.required ["pkgManager", "pkg_manager"]
  have hpackages := Package.yields_fit.tuple.withDefault ["pkgs"] (List.forall_mem_nil _)
  have hgraph := yields_fitNodes.required ["graph"]
  refine yields_fitModel (((((hschema.map ?_).seq hmanager).seq hpackages).seq hgraph).seq
    (membersYield_any _))
  exact fun _ hschema _ hmanager _ hpackages _ hgraph _ _ =>
    ⟨hschema, hmanager, hpackages, hgraph.1, hgraph.2⟩

theorem writable_of_decode {bs : Bytes} {g : DependencyGraph} (h : decode bs = .ok g) : g.Writable := by
  obtain ⟨d, hread, hfit⟩ := decode_eq_ok.mp h
  exact yields_fit _ d g (Json.legible_of_readStrict hread) hfit

end DependencyGraph
end Reading

/-! ## What can be written is read back -/

section Writing

theorem NodeInfo.Writable.settled_eq {i : NodeInfo} (h : i.Writable) : i.settled = i := by
  obtain ⟨provenance, labels⟩ := i
  cases labels with
  | none => rfl
  | some labels =>
    have hdistinct := lastOfEach_of_nodup (h.labels labels rfl).distinct
    rw [NodeInfo.settled, Option.map_some, hdistinct]

theorem Node.Writable.settled_eq {n : Node} (h : n.Writable) : n.settled = n := by
  obtain ⟨id, package, info, children⟩ := n
  cases info with
  | none => rfl
  | some i => rw [Node.settled, Option.map_some, (h.info i rfl).settled_eq]

namespace DependencyGraph

variable {g : DependencyGraph}

theorem Writable.settled_eq (h : g.Writable) : g.settled = g := by
  have hnodes : g.nodes.map Node.settled = g.nodes :=
    (List.map_congr_left fun n hn => (h.nodes n hn).settled_eq).trans (List.map_id _)
  rw [settled, hnodes]

theorem Writable.isScalar (h : g.Writable) : g.IsScalar :=
  Json.isScalar_write Json.lays_compact rfl (legible_toData (d := Json.strict) (Or.inr h)) rfl

/-- A graph that can be written is read back unchanged. -/
theorem Writable.decode_encode (h : g.Writable) : decode g.encode = .ok g := by
  rw [DependencyGraph.decode_encode h.isScalar, h.settled_eq]

/-- The graph can be written, and passes the check. -/
structure Deliverable (g : DependencyGraph) : Prop where
  writable : g.Writable
  checked : g.check = .ok ()

/-- The bytes are read as a graph that passes the check. -/
def IsDocument (bs : Bytes) : Prop := ∃ g, decode bs = .ok g ∧ g.check = .ok ()

theorem Deliverable.isDocument_encode (h : g.Deliverable) : IsDocument g.encode :=
  ⟨g, h.writable.decode_encode, h.checked⟩

/-- A graph that a builder builds of texts without lone halves, or that a document holds. -/
inductive Obtainable : DependencyGraph → Prop where
  | built {manager : PackageManager} {root : PackageInfo} {calls : List GraphBuilder.Call}
      (hmanager : manager.Writable) (hroot : root.Writable) (hcalls : ∀ c ∈ calls, c.Writable) :
      Obtainable ((GraphBuilder.start manager root).run calls).build
  | decoded {bs : Bytes} {g : DependencyGraph} (h : decode bs = .ok g) : Obtainable g

theorem Obtainable.writable (h : g.Obtainable) : g.Writable := by
  cases h with
  | built hmanager hroot hcalls =>
    exact ((GraphBuilder.writable_start hmanager hroot).run hcalls).build
  | decoded h => exact writable_of_decode h

/-- A graph that was built or read is written so that it is read back, and a document that was read and
written is the same after it is read and written again. -/
theorem documents_read_back :
    (∀ g, Obtainable g → decode g.encode = .ok g) ∧
    ∀ bs g, decode bs = .ok g → ∃ g', decode g.encode = .ok g' ∧ g'.encode = g.encode := by
  have hback : ∀ g, Obtainable g → decode g.encode = .ok g := fun g h => h.writable.decode_encode
  exact ⟨hback, fun bs g h => ⟨g, hback g (.decoded h), rfl⟩⟩

/-- A package with a line break in its version, and a label without a value. -/
def labelledCalls : List GraphBuilder.Call :=
  [.add "é@1" { name := "é", version := some "1\n2", purl := some "pkg:pypi/é" }
      (some { labels := some [("scope", "prod"), ("none", "")] }),
    .connect GraphBuilder.rootId "é@1"]

def labelledGraph : DependencyGraph := ((GraphBuilder.start { name := "pip" }).run labelledCalls).build

/-- A graph with long names of members, a label twice, an absent version and no packages. -/
def looseDocument : Bytes := Utf8.encode (
  "\x7b\"schema_version\": \"1.3.0\", \"pkgManager\": \x7b\"name\": \"pip\", \"version\": null\x7d, "
    ++ "\"graph\": \x7b\"nodes\": [\x7b\"node_id\": \"root-node\", \"pkgId\": \"\\u00e9@\", "
    ++ "\"info\": \x7b\"labels\": \x7b\"scope\": \"dev\", \"scope\": \"prod\"\x7d\x7d\x7d], "
    ++ "\"rootNodeId\": \"root-node\"\x7d\x7d")

def looseGraph : DependencyGraph where
  schema := "1.3.0"
  manager := { name := "pip" }
  packages := []
  root := "root-node"
  nodes := [⟨"root-node", "é@", some { labels := some [("scope", "prod")] }, []⟩]

theorem documents_read_back_sample :
    labelledGraph.nodes.length = 2 ∧ decode labelledGraph.encode = .ok labelledGraph ∧
    decode looseDocument = .ok looseGraph ∧ looseGraph.encode ≠ looseDocument ∧
      ∃ g', decode looseGraph.encode = .ok g' ∧ g'.encode = looseGraph.encode := by
  have hmanager : PackageManager.Writable { name := "pip" } := PackageManager.writable_named rfl
  have hroot : GraphBuilder.sentinelRoot.Writable :=
    ⟨rfl, fun t h => by cases h; rfl, fun _ h => (nomatch h)⟩
  have hcalls : ∀ c ∈ labelledCalls, c.Writable := by
    refine List.forall_mem_cons.mpr ⟨⟨rfl, ⟨rfl, ?_, ?_⟩, ?_⟩, List.forall_mem_singleton.mpr rfl⟩
    · intro t h; cases h; rfl
    · intro t h; cases h; rfl
    · intro i h
      cases h
      refine ⟨fun _ h => (nomatch h), fun labels h => ?_⟩
      cases h
      exact ⟨by decide, by decide⟩
  have hread : decode looseDocument = .ok looseGraph := Except.eq_ok_of_toOption (by decide +kernel)
  obtain ⟨hback, hnormal⟩ := documents_read_back
  exact ⟨by decide, hback _ (.built hmanager hroot hcalls), hread, by decide +kernel,
    hnormal looseDocument looseGraph hread⟩

end DependencyGraph
end Writing
end ManifestGraph
