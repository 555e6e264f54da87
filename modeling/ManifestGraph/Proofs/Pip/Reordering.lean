/-
  The graph of a report shows the order in which its packages declare their requirements just where the
  spellings of two required packages overlap (`toGraph_of_reordered`). The walk sees what an item requires
  only as the packages that it meets one after the other (`Walk.descend_known`), so reports in which these are
  the same have one graph (`toGraph_eq_of_packagesOf_eq`); and the children of an item's node tell what they
  are (`Report.Describes.packagesOf_eq`).
-/
import ManifestGraph.Proofs.Pip.Spellings

namespace ManifestGraph.Pip

/-- Reports that differ only in the order in which packages declare their requirements. -/
def Report.Reordered (r r' : Report) : Prop := List.Forall₂ Item.Reordered r.items r'.items

variable {r r' : Report} {i j : Item} {name child parent manager : Text} {names : List Text} {w : Walk}

/-! ## What stays the same -/

namespace Item.Reordered

theorem key_eq (h : i.Reordered j) : i.key = j.key := by
  rw [Item.key, Item.key, h.name]

theorem shownVersion_eq (h : i.Reordered j) : i.shownVersion = j.shownVersion := by
  rw [Item.shownVersion, Item.shownVersion, h.version]

theorem nodeId_eq (h : i.Reordered j) : i.nodeId = j.nodeId := by
  rw [Item.nodeId, Item.nodeId, h.key_eq, h.shownVersion_eq]

theorem package_eq (h : i.Reordered j) : i.package = j.package := by
  rw [Item.package, Item.package, h.key_eq, h.shownVersion_eq]

theorem prune_eq (h : i.Reordered j) (w : Walk) (parent : Text) : w.prune parent i = w.prune parent j := by
  simp only [Walk.prune, h.nodeId_eq, h.package_eq]

theorem enter_eq (h : i.Reordered j) (w : Walk) (parent : Text) : w.enter parent i = w.enter parent j := by
  simp only [Walk.enter, h.nodeId_eq, h.package_eq]

end Item.Reordered

namespace Report.Reordered

theorem last? (h : r.Reordered r') (key : Text) : Option.Rel Item.Reordered (r.last? key) (r'.last? key) :=
  rel_find? (List.rel_reverse h) fun i j hij => by rw [hij.key_eq]

theorem known_eq (h : r.Reordered r') (names : List Text) : r.known names = r'.known names := by
  refine List.filter_congr fun name _ => ?_
  have hrel := h.last? (normalName name)
  generalize r.last? (normalName name) = i?, r'.last? (normalName name) = j? at hrel
  cases hrel <;> rfl

theorem directNames_eq (h : r.Reordered r') : r.directNames = r'.directNames := by
  have hrequested : List.Forall₂ Item.Reordered (r.items.filter Item.requested)
      (r'.items.filter Item.requested) :=
    List.rel_filter (fun _ _ hij => by simp [hij.requested]) h
  refine congrArg Text.sort ?_
  rw [← List.forall₂_eq_eq_eq, List.forall₂_map_left_iff, List.forall₂_map_right_iff]
  exact hrequested.imp fun _ _ hij => hij.key_eq

theorem namesPlain (h : r.Reordered r') (hplain : r.NamesPlain) : r'.NamesPlain := by
  intro j hj
  obtain ⟨i, hi, hij⟩ := exists_of_mem_right h hj
  rw [← hij.name]
  exact hplain i hi

end Report.Reordered

/-! ## The walk meets packages -/

namespace Walk

/-- The walk sees of some names only the packages that they are looked up to. -/
theorem descend_known (r : Report) (depth : Nat) (parent : Text) (names : List Text) (w : Walk) :
    descend r depth parent names w = descend r depth parent ((r.known names).map normalName) w := by
  cases depth with
  | zero => rfl
  | succ depth =>
    rw [descend, descend, List.foldl_map, Report.known, List.foldl_filter]
    refine List.foldl_ext _ _ _ fun w name _ => ?_
    have hnormal : r.item? (normalName name) = r.item? name := item?_congr (normalName_normalName name)
    rw [hnormal, ← item?_eq_last?]
    cases r.item? name <;> rfl

theorem leadToNeeded_packagesOf (hi : r.Needed i) : LeadToNeeded r (r.packagesOf i) := by
  intro k hk j hj
  obtain ⟨name, hname, rfl⟩ := List.mem_map.mp hk
  rw [item?_congr (normalName_normalName name)] at hj
  exact leadToNeeded_dependencyNames hi name (mem_known_iff.mp hname).1 j hj

/-- Reports in which needed items require the same packages in the same order are walked through alike. -/
theorem descend_of_reordered (h : r.Reordered r')
    (hsame : ∀ i j, r.Needed i → i.Reordered j → r'.Listed j → r.packagesOf i = r'.packagesOf j)
    (depth : Nat) (hn : LeadToNeeded r names) :
    descend r depth parent names w = descend r' depth parent names w := by
  induction depth generalizing parent names w with
  | zero => rfl
  | succ depth ih =>
    rw [descend, descend]
    refine List.foldl_ext _ _ _ fun w name hname => ?_
    have hrel : Option.Rel Item.Reordered (r.item? name) (r'.item? name) := h.last? (normalName name)
    cases hi : r.item? name with
    | none =>
      cases hj : r'.item? name with
      | none => rfl
      | some j => rw [hi, hj] at hrel; cases hrel
    | some i =>
      cases hj : r'.item? name with
      | none => rw [hi, hj] at hrel; cases hrel
      | some j =>
        rw [hi, hj] at hrel
        cases hrel with
        | some hij =>
          have hneed := hn name hname i hi
          have hbelow : ∀ w, descend r depth j.nodeId i.dependencyNames w =
              descend r' depth j.nodeId j.dependencyNames w := by
            intro w
            calc descend r depth j.nodeId i.dependencyNames w
                = descend r depth j.nodeId (r.packagesOf i) w := descend_known r depth _ _ w
              _ = descend r' depth j.nodeId (r.packagesOf i) w := ih (leadToNeeded_packagesOf hneed)
              _ = descend r' depth j.nodeId (r'.packagesOf j) w := by
                rw [hsame i j hneed hij (listed_of_item? hj)]
              _ = descend r' depth j.nodeId j.dependencyNames w := (descend_known r' depth _ _ w).symm
          simp only [hij.nodeId_eq, hij.prune_eq, hij.enter_eq, hbelow]

end Walk

/-- Reports in which needed items require the same packages in the same order have one graph. -/
theorem toGraph_eq_of_packagesOf_eq (h : r.Reordered r')
    (hsame : ∀ i j, r.Needed i → i.Reordered j → r'.Listed j → r.packagesOf i = r'.packagesOf j) :
    r.toGraph manager = r'.toGraph manager := by
  have hlength : r.items.length = r'.items.length := h.length_eq
  simp only [Report.toGraph, ← h.directNames_eq, ← hlength]
  congr 2
  refine List.foldl_ext _ _ _ fun w name hname => ?_
  refine Walk.descend_of_reordered h hsame _ fun n hn => ?_
  rw [List.mem_singleton.mp hn]
  exact leadToNeeded_directNames r name hname

/-! ## The graph tells the packages -/

/-- What stands before the first `@`. -/
def nameBefore (id : Text) : Text := id.takeWhile fun c => c ≠ CodePoint.scalar '@'

theorem nameBefore_append {key rest : Text} (h : CodePoint.scalar '@' ∉ key) :
    nameBefore (key ++ CodePoint.scalar '@' :: rest) = key := by
  rw [nameBefore, List.takeWhile_append_of_pos, List.takeWhile_cons_of_neg (by simp), List.append_nil]
  intro c hc
  simp only [ne_eq, decide_not, Bool.not_eq_eq_eq_not, Bool.not_true, decide_eq_false_iff_not]
  rintro rfl
  exact h hc

theorem Report.Leads.nameBefore_eq (hplain : r.NamesPlain) (h : r.Leads name child) :
    normalName name = nameBefore child := by
  obtain ⟨i, hi, hchild⟩ := h
  have hat := at_not_mem_key hplain (listed_of_last? hi)
  rw [← key_of_last? hi]
  rcases hchild with rfl | rfl
  · rw [Item.nodeId_eq, nameBefore_append hat]
  · rw [Item.prunedId_eq, nameBefore_append hat]

/-- The children of the node of a needed item are those of the packages that it requires. -/
theorem Report.Describes.packagesOf_eq {g : DependencyGraph} (hg : r.Describes g) (hplain : r.NamesPlain)
    (hi : r.Needed i) {n : Node} (hn : n ∈ g.nodes) (hid : n.id = i.nodeId) :
    r.packagesOf i = n.children.map nameBefore := by
  have hleads := hg.children_item i hi n hn hid
  rw [Report.packagesOf, ← List.forall₂_eq_eq_eq, List.forall₂_map_left_iff, List.forall₂_map_right_iff]
  exact hleads.imp fun _ _ h => h.nameBefore_eq hplain

theorem exists_describes (r : Report) (manager : Text) (hplain : r.NamesPlain) :
    ∃ g, r.toGraph manager = g ∧ r.Describes g := by
  obtain ⟨w, hrounds, hbuild⟩ := Walk.rounds_toGraph r manager
  exact ⟨_, hbuild, (hrounds.finished hplain).describes hplain⟩

/-- Reports with one graph have the same packages in the same order. -/
theorem packagesOf_eq_of_toGraph_eq (hplain : r.NamesPlain) (h : r.Reordered r')
    (hgraph : r.toGraph manager = r'.toGraph manager) (hi : r.Needed i) (hij : i.Reordered j)
    (hj : r'.Listed j) : r.packagesOf i = r'.packagesOf j := by
  have hplain' := h.namesPlain hplain
  obtain ⟨g, hg, hdescribes⟩ := exists_describes r manager hplain
  obtain ⟨g', hg', hdescribes'⟩ := exists_describes r' manager hplain'
  obtain rfl : g = g' := by rw [← hg, ← hg', hgraph]
  obtain ⟨n, hn, hid, hrest⟩ := (hdescribes.node_iff i.nodeId).mpr ⟨i, hi, rfl⟩
  -- the node is also the node of an item that the other report needs, which is this one
  obtain ⟨k, hk, hik⟩ := (hdescribes'.node_iff i.nodeId).mp ⟨n, hn, hid, hrest⟩
  obtain rfl := hj.eq_of_nodeId_eq hplain' hk.listed (hij.nodeId_eq.symm.trans hik)
  rw [hdescribes.packagesOf_eq hplain hi hn hid,
    hdescribes'.packagesOf_eq hplain' hk hn (hid.trans hij.nodeId_eq)]

/-! ## One item in another order -/

/-- The report with one of its items in place of another. -/
def Report.replace (r : Report) (i j : Item) : Report where
  items := r.items.map fun k => if k = i then j else k

theorem Report.reordered_replace (r : Report) (h : i.Reordered j) : r.Reordered (r.replace i j) := by
  refine List.forall₂_map_right_iff.mpr (List.forall₂_same.mpr fun k _ => ?_)
  split
  next hk => exact hk ▸ h
  next => exact .refl k

theorem Report.Listed.replace (h : r.Listed i) (hij : i.Reordered j) : (r.replace i j).Listed j := by
  have hkey : ∀ k : Item, (if k = i then j else k).key = k.key := by
    intro k
    split
    next hk => rw [hk, hij.key_eq]
    next => rfl
  have hlast : (r.replace i j).last? i.key = (r.last? i.key).map fun k => if k = i then j else k := by
    simp only [Report.last?, Report.replace, ← List.map_reverse, List.find?_map, Function.comp_def, hkey]
  rw [Report.Listed, ← hij.key_eq, hlast, h, Option.map_some, if_pos rfl]

/-! ## A package with some requirements -/

/-- A direct dependency with some requirements. -/
def requiringItem (requires : List Text) : Item where
  name := "app"
  version := "1"
  requires := some requires
  requested := true

/-- A report in which a direct dependency may require two packages, and one of them requires the other. -/
def requiring (requires : List Text) : Report where
  items := [requiringItem requires, { name := "alpha", version := "1" },
    { name := "beta", version := "1", requires := some ["alpha"] }]

section Requiring

variable {es fs : List Text}

theorem reordered_requiringItem (h : es.Perm fs) : (requiringItem es).Reordered (requiringItem fs) :=
  ⟨rfl, rfl, rfl, rfl, .some h⟩

theorem reordered_requiring (h : es.Perm fs) : (requiring es).Reordered (requiring fs) :=
  .cons (reordered_requiringItem h) (.cons (.refl _) (.cons (.refl _) .nil))

theorem last?_requiring (es : List Text) :
    (requiring es).last? (requiringItem es).key = some (requiringItem es) := by
  rfl

theorem needed_requiringItem (es : List Text) : (requiring es).Needed (requiringItem es) :=
  .direct List.mem_cons_self rfl (last?_requiring es)

theorem packagesOf_requiring (names : List Text) (h : requiredNames es [] = names)
    (hsorted : names.Pairwise fun s t => Text.le s t = true) :
    (requiring es).packagesOf (requiringItem es) = ((requiring es).known names).map normalName := by
  rw [Report.packagesOf, Item.dependencyNames, ← Text.sort_of_pairwise hsorted, ← h]
  rfl

end Requiring

/-! ## The order of requirements -/

/-- The graph of a report stays as it is, in whatever order packages declare their requirements, if in
every needed package the spellings of what it requires are apart. Where names leave out `@` it does so only
then. -/
theorem toGraph_of_reordered (r : Report) (manager : Text) :
    ((∀ i, r.Needed i → r.SpelledApart i) →
      ∀ r', r.Reordered r' → r.toGraph manager = r'.toGraph manager) ∧
    (r.NamesPlain → (∀ r', r.Reordered r' → r.toGraph manager = r'.toGraph manager) →
      ∀ i, r.Needed i → r.SpelledApart i) := by
  have hknown : ∀ {r' : Report} {j : Item}, r.Reordered r' → r.packagesOf j = r'.packagesOf j :=
    fun h => congrArg (List.map normalName) (h.known_eq _)
  constructor
  · intro hapart r' h
    refine toGraph_eq_of_packagesOf_eq h fun i j hi hij _ => ?_
    exact (spelledApart_iff.mp (hapart i hi) j hij).trans (hknown h)
  · intro hplain hsame i hi
    refine spelledApart_iff.mpr fun j hij => ?_
    have h := r.reordered_replace hij
    have hpackages := packagesOf_eq_of_toGraph_eq hplain h (hsame _ h) hi hij (hi.listed.replace hij)
    exact hpackages.trans (hknown h).symm

/-- Both spellings of `alpha` come before `beta`, so any of them may count. -/
theorem toGraph_of_reordered_requiring :
    (∀ i, (requiring ["alpha", "beta", "Alpha"]).Needed i →
      (requiring ["alpha", "beta", "Alpha"]).SpelledApart i) ∧
    (requiring ["alpha", "beta", "Alpha"]).NamesPlain ∧
    (requiring ["alpha", "beta", "Alpha"]).Reordered (requiring ["beta", "Alpha", "alpha"]) ∧
    (requiring ["alpha", "beta", "Alpha"]).toGraph "pip" =
      (requiring ["beta", "Alpha", "alpha"]).toGraph "pip" := by
  have hapart : ∀ i ∈ (requiring ["alpha", "beta", "Alpha"]).items,
      (requiring ["alpha", "beta", "Alpha"]).SpelledApart i := by decide +kernel
  have hplain : (requiring ["alpha", "beta", "Alpha"]).NamesPlain := by
    unfold Report.NamesPlain; decide
  have hperm : (["alpha", "beta", "Alpha"] : List Text).Perm ["beta", "Alpha", "alpha"] := by decide
  have hsame := (toGraph_of_reordered (requiring ["alpha", "beta", "Alpha"]) "pip").1 fun i hi =>
    hapart i hi.listed.mem
  exact ⟨(toGraph_of_reordered _ "pip").2 hplain hsame, hplain, reordered_requiring hperm,
    hsame _ (reordered_requiring hperm)⟩

/-- One spelling of `beta` comes before `alpha` and one after it. The one that is declared first tells
which package the graph has first, and so below which one `alpha` is pruned. -/
theorem toGraph_shows_order :
    (requiring ["alpha", "beta", "Beta"]).Reordered (requiring ["Beta", "alpha", "beta"]) ∧
    (requiring ["alpha", "beta", "Beta"]).toGraph "pip" ≠
      (requiring ["Beta", "alpha", "beta"]).toGraph "pip" := by
  have hperm : (["alpha", "beta", "Beta"] : List Text).Perm ["Beta", "alpha", "beta"] := by decide
  have hplain : (requiring ["alpha", "beta", "Beta"]).NamesPlain := by
    unfold Report.NamesPlain; decide
  have hreordered := reordered_requiring hperm
  refine ⟨hreordered, fun hgraph => ?_⟩
  have hfirst : (requiring ["alpha", "beta", "Beta"]).packagesOf
      (requiringItem ["alpha", "beta", "Beta"]) = ["alpha", "beta"] :=
    (packagesOf_requiring ["alpha", "beta"] (by decide +kernel) (by decide)).trans (by decide +kernel)
  have hsecond : (requiring ["Beta", "alpha", "beta"]).packagesOf
      (requiringItem ["Beta", "alpha", "beta"]) = ["beta", "alpha"] :=
    (packagesOf_requiring ["Beta", "alpha"] (by decide +kernel) (by decide)).trans (by decide +kernel)
  have hsame := packagesOf_eq_of_toGraph_eq hplain hreordered hgraph (needed_requiringItem _)
    (reordered_requiringItem hperm) (last?_requiring _)
  rw [hfirst, hsecond] at hsame
  exact absurd hsame (by decide)

end ManifestGraph.Pip
