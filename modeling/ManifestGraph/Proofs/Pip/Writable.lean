/-
  The graph of a report can be written and passes the check (`deliverable_toGraph`). Names and versions of
  a report that was read hold no lone halves (`Report.yields_fit`), so neither do the ids made of them, and
  the walk puts nothing else into its graph.
-/
import ManifestGraph.Proofs.Graph.RoundTrip
import ManifestGraph.Proofs.Pip.Reachable
import ManifestGraph.Proofs.Text.LowerCase

namespace ManifestGraph.Pip

/-! ## Reports that were read -/

/-- The texts that make up an item's package hold no lone halves. -/
structure Item.Writable (i : Item) : Prop where
  name : i.name.isScalar = true
  version : i.version.isScalar = true

/-- All items of the report can be written. -/
def Report.Writable (r : Report) : Prop := ∀ i ∈ r.items, i.Writable

theorem Item.yields_fit : Yields Item.Writable Item.fit := by
  have hname := yields_fitText.required ["name"]
  have hversion := yields_fitText.withDefault ["version"] (show Text.isScalar [] = true from rfl)
  have hmetadata : Yields (fun m : Text × Text × Option (List Text) =>
      m.1.isScalar = true ∧ m.2.1.isScalar = true) (Data.fitModel fun ms =>
        (fun name version requires => (name, version, requires))
          <$> ms.required ["name"] Data.fitText
          <*> ms.withDefault ["version"] [] Data.fitText
          <*> ms.withDefault ["requires_dist"] none (Data.fitOption (Data.fitList Data.fitText))) :=
    yields_fitModel (((hname.map fun _ hname _ hversion _ _ => ⟨hname, hversion⟩).seq hversion).seq
      (membersYield_any _))
  refine yields_fitModel ((((hmetadata.required ["metadata"]).map ?_).seq (membersYield_any _)).seq
    (membersYield_any _))
  exact fun _ hmetadata _ _ _ _ => ⟨hmetadata.1, hmetadata.2⟩

/-- The items of a report that was read can be written. -/
theorem Report.yields_fit : Yields Report.Writable Report.fit :=
  yields_fitModel
    ((Item.yields_fit.list.withDefault ["install"] (List.forall_mem_nil _)).map fun _ h => h)

/-! ## Ids -/

variable {r : Report} {i : Item} {w w' : Walk} {parent manager : Text} {names : List Text}

theorem isScalar_normalName {name : Text} (h : name.isScalar = true) :
    (normalName name).isScalar = true :=
  Text.isScalar_replace rfl (Text.isScalar_lower h)

namespace Item.Writable

theorem isScalar_shownVersion (h : i.Writable) : i.shownVersion.isScalar = true := by
  unfold shownVersion
  split
  next => exact Text.isScalar_ofString "?"
  next => exact h.version

theorem isScalar_nodeId (h : i.Writable) : i.nodeId.isScalar = true := by
  rw [nodeId, Text.isScalar_append, Text.isScalar_append]
  exact ⟨⟨isScalar_normalName h.name, Text.isScalar_ofString "@"⟩, h.isScalar_shownVersion⟩

theorem isScalar_prunedId (h : i.Writable) : i.prunedId.isScalar = true := by
  rw [prunedId, Text.isScalar_append, Text.isScalar_append]
  exact ⟨⟨h.isScalar_nodeId, Text.isScalar_ofString ":"⟩, Text.isScalar_ofString _⟩

theorem package (h : i.Writable) : i.package.Writable where
  name := isScalar_normalName h.name
  version := fun t ht => by cases ht; exact h.isScalar_shownVersion
  purl := fun _ ht => nomatch ht

end Item.Writable

/-! ## The walk -/

namespace Walk

theorem writable_rootPackage : rootPackage.Writable where
  name := Text.isScalar_ofString _
  version := fun t ht => by cases ht; exact Text.isScalar_ofString _
  purl := fun _ ht => nomatch ht

theorem writable_prunedInfo : prunedInfo.Writable where
  provenance := fun _ hp => nomatch hp
  labels := fun labels h => by
    cases h
    exact ⟨List.nodup_singleton _,
      List.forall_mem_singleton.mpr ⟨Text.isScalar_ofString _, Text.isScalar_ofString _⟩⟩

theorem Descends.writable (h : Descends r parent names w w') (hr : r.Writable)
    (hw : w.builder.Writable) : w'.builder.Writable := by
  have hattach : ∀ {w : Walk} {parent name id : Text} {i : Item} {info : Option NodeInfo},
      r.item? name = some i → (i.Writable → id.isScalar = true) → (∀ n, info = some n → n.Writable) →
      w.builder.Writable → (w.builder.attach parent id i.package info).Writable := by
    intro w parent name id i info hi hid hinfo hw
    have hi : i.Writable := hr i (mem_items_of_last? hi)
    exact hw.attach (hid hi) hi.package hinfo
  have hpruned : ∀ n, some prunedInfo = some n → n.Writable :=
    fun n hn => Option.some.inj hn ▸ writable_prunedInfo
  induction h with
  | done => exact hw
  | unknown _ _ ih => exact ih hw
  | prune hi _ _ ih => exact ih (hattach hi (·.isScalar_prunedId) hpruned hw)
  | enter hi _ _ _ ih => exact ih (hattach hi (·.isScalar_nodeId) (fun _ h => nomatch h) hw)
  | expand hi _ _ _ _ ihb ihr =>
    exact ihr (ihb (hattach hi (·.isScalar_nodeId) (fun _ h => nomatch h) hw))

theorem Rounds.writable (h : Rounds r names w w') (hr : r.Writable) (hw : w.builder.Writable) :
    w'.builder.Writable := by
  induction h with
  | done => exact hw
  | next round _ ih => exact ih (round.writable hr hw)

end Walk

/-- The graph of a report whose items can be written can be written, and passes the check. -/
theorem deliverable_toGraph (hr : r.Writable) (hmanager : manager.isScalar = true) :
    (r.toGraph manager).Deliverable := by
  obtain ⟨w, hrounds, hgraph⟩ := Walk.rounds_toGraph r manager
  have hstart := GraphBuilder.writable_start (PackageManager.writable_named hmanager)
    Walk.writable_rootPackage
  have hwritable := hrounds.writable hr hstart
  have hcoherent := hrounds.coherent (Walk.Coherent.start r manager) (leadToNeeded_directNames r)
  rw [hgraph]
  exact ⟨hwritable.build, DependencyGraph.check_of_valid hcoherent.sound.valid_build⟩

end ManifestGraph.Pip
