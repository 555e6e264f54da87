/-
  The room that a walk takes. With some room only, the walk is the one without a bound, or it fails, and
  then there are at least as many nodes to expand as there is room (`Walk.descends_or_tooDeep`). So a report
  with fewer items than there is room has its graph (`graphWithin_of_lt`). A report whose packages form a
  chain has it just if the chain is no longer than the room (`graphWithin_chain`), and there is a file for
  each such report (`decode_chainFile`).
-/
import ManifestGraph.Proofs.Json.Model
import ManifestGraph.Proofs.Pip.Descent
import ManifestGraph.Proofs.Pip.Extras
import ManifestGraph.Proofs.Text.Order
import Mathlib.Data.List.TakeWhile

namespace ManifestGraph.Pip

open Json (Legible LegibleMembers strict)

variable {r : Report} {room : Nat} {manager : Text} {g : DependencyGraph} {e : Failure}

namespace Walk

/-! ## Walks with some room -/

section Steps

variable {parent name : Text} {names : List Text} {w : Walk} {i : Item}

/-- With room left, a step is one of those that make up `Descends`. -/
theorem descendWithin_of_unknown (hi : r.item? name = none) :
    descendWithin r (room + 1) parent (name :: names) w = descendWithin r (room + 1) parent names w := by
  rw [descendWithin, List.foldlM_cons, hi]
  rfl

theorem descendWithin_of_visited (hi : r.item? name = some i) (hv : i.nodeId ∈ w.visited) :
    descendWithin r (room + 1) parent (name :: names) w =
      descendWithin r (room + 1) parent names (w.prune parent i) := by
  rw [descendWithin, List.foldlM_cons, hi]
  dsimp only
  rw [if_pos (by simpa using hv)]
  rfl

theorem descendWithin_of_expanded (hi : r.item? name = some i) (hv : i.nodeId ∉ w.visited)
    (he : i.nodeId ∈ w.expanded) :
    descendWithin r (room + 1) parent (name :: names) w =
      descendWithin r (room + 1) parent names (w.enter parent i) := by
  rw [descendWithin, List.foldlM_cons, hi]
  dsimp only
  rw [if_neg (by simpa using hv), if_pos (by simpa using he)]
  rfl

theorem descendWithin_of_new (hi : r.item? name = some i) (hv : i.nodeId ∉ w.visited)
    (he : i.nodeId ∉ w.expanded) :
    descendWithin r (room + 1) parent (name :: names) w =
      descendWithin r room i.nodeId i.dependencyNames (w.expand parent i) >>=
        descendWithin r (room + 1) parent names := by
  rw [descendWithin, List.foldlM_cons, hi]
  dsimp only
  rw [if_neg (by simpa using hv), if_neg (by simpa using he)]
  rfl

theorem descends_of_unknown (h : ∀ name ∈ names, r.item? name = none) : Descends r parent names w w := by
  induction names with
  | nil => exact .done parent w
  | cons name names ih =>
    obtain ⟨hname, hnames⟩ := List.forall_mem_cons.mp h
    exact .unknown hname (ih hnames)

end Steps

/-- A walk with some room goes all the way down, or fails with as many nodes to expand as there is room. -/
theorem descends_or_tooDeep (r : Report) (room : Nat) (parent : Text) (names : List Text) (w : Walk) :
    (∃ w', descendWithin r room parent names w = .ok w' ∧ Descends r parent names w w') ∨
      descendWithin r room parent names w = .error tooDeep ∧ room ≤ unexpanded r w := by
  induction room generalizing parent names w with
  | zero =>
    rw [descendWithin]
    split
    next => exact Or.inr ⟨rfl, Nat.zero_le _⟩
    next hunknown =>
      simp only [List.any_eq_true, not_exists, not_and, Option.not_isSome_iff_eq_none] at hunknown
      exact Or.inl ⟨w, rfl, descends_of_unknown hunknown⟩
  | succ room ihr =>
    induction names generalizing w with
    | nil => exact Or.inl ⟨w, rfl, .done parent w⟩
    | cons name names ihn =>
      -- The walk after the first name goes on with the rest of them.
      have hrest : ∀ w₁, unexpanded r w₁ ≤ unexpanded r w →
          (∀ w', Descends r parent names w₁ w' → Descends r parent (name :: names) w w') →
          (∃ w', descendWithin r (room + 1) parent names w₁ = .ok w' ∧
              Descends r parent (name :: names) w w') ∨
            descendWithin r (room + 1) parent names w₁ = .error tooDeep ∧
              room + 1 ≤ unexpanded r w := by
        intro w₁ hle hfirst
        obtain ⟨w', hw', hdescends⟩ | ⟨hfails, hroom⟩ := ihn w₁
        · exact Or.inl ⟨w', hw', hfirst w' hdescends⟩
        · exact Or.inr ⟨hfails, Nat.le_trans hroom hle⟩
      cases hi : r.item? name with
      | none =>
        rw [descendWithin_of_unknown hi]
        exact hrest w (Nat.le_refl _) fun _ => .unknown hi
      | some i =>
        by_cases hv : i.nodeId ∈ w.visited
        · rw [descendWithin_of_visited hi hv]
          exact hrest (w.prune parent i) (Nat.le_refl _) fun _ => .prune hi hv
        by_cases he : i.nodeId ∈ w.expanded
        · rw [descendWithin_of_expanded hi hv he]
          exact hrest (w.enter parent i) (Nat.le_refl _) fun _ => .enter hi hv he
        rw [descendWithin_of_new hi hv he]
        have hlt : unexpanded r (w.expand parent i) < unexpanded r w :=
          unexpanded_expand_lt (mem_items_of_last? hi) he
        obtain ⟨w₁, hw₁, hbelow⟩ | ⟨hfails, hroom⟩ := ihr i.nodeId i.dependencyNames (w.expand parent i)
        · rw [hw₁]
          have hle := unexpanded_le (r := r) hbelow.expanded_subset
          exact hrest w₁ (by omega) fun _ => .expand hi hv he hbelow
        · rw [hfails]
          exact Or.inr ⟨rfl, by omega⟩

/-- One round after the other, with some room for each. -/
theorem rounds_or_tooDeep (r : Report) (room : Nat) (names : List Text) (w : Walk) :
    (∃ w', names.foldlM (fun w name =>
        descendWithin r room GraphBuilder.rootId [name] { w with visited := [] }) w = .ok w' ∧
      Rounds r names w w') ∨
    names.foldlM (fun w name =>
        descendWithin r room GraphBuilder.rootId [name] { w with visited := [] }) w = .error tooDeep ∧
      room ≤ r.items.length := by
  induction names generalizing w with
  | nil => exact Or.inl ⟨w, rfl, .done w⟩
  | cons name names ih =>
    rw [List.foldlM_cons]
    obtain ⟨w₁, hw₁, hround⟩ | ⟨hfails, hroom⟩ :=
      descends_or_tooDeep r room GraphBuilder.rootId [name] { w with visited := [] }
    · rw [hw₁]
      obtain ⟨w', hw', hrest⟩ | hfails := ih w₁
      · exact Or.inl ⟨w', hw', .next hround hrest⟩
      · exact Or.inr hfails
    · rw [hfails]
      exact Or.inr ⟨rfl, Nat.le_trans hroom (unexpanded_le_length r _)⟩

end Walk

/-! ## Graphs with some room -/

/-- With some room there is the graph, or the one failure and as many items as there is room. -/
theorem graphWithin_eq (r : Report) (room : Nat) (manager : Text) :
    r.graphWithin room manager = .ok (r.toGraph manager) ∨
      r.graphWithin room manager = .error Walk.tooDeep ∧ room ≤ r.items.length := by
  unfold Report.graphWithin
  obtain ⟨w, hw, hrounds⟩ | ⟨hfails, hroom⟩ :=
    Walk.rounds_or_tooDeep r room r.directNames (Walk.start manager)
  · rw [hw, hrounds.toGraph_eq]
    exact Or.inl rfl
  · rw [hfails]
    exact Or.inr ⟨rfl, hroom⟩

theorem eq_toGraph_of_graphWithin (h : r.graphWithin room manager = .ok g) : g = r.toGraph manager := by
  rcases graphWithin_eq r room manager with heq | ⟨heq, _⟩
  · exact Except.ok.inj (h.symm.trans heq)
  · cases h.symm.trans heq

theorem eq_tooDeep_of_graphWithin (h : r.graphWithin room manager = .error e) : e = Walk.tooDeep := by
  rcases graphWithin_eq r room manager with heq | ⟨heq, _⟩
  · cases h.symm.trans heq
  · exact Except.error.inj (h.symm.trans heq)

/-- A report with fewer items than there is room has its graph. -/
theorem graphWithin_of_lt (h : r.items.length < room) (manager : Text) :
    r.graphWithin room manager = .ok (r.toGraph manager) := by
  rcases graphWithin_eq r room manager with heq | ⟨_, hroom⟩
  · exact heq
  · exact absurd h (Nat.not_lt_of_le hroom)

/-- The name of a package in a chain. -/
def linkName (k : Nat) : Text := List.replicate (k + 1) 'a'

/-- A package of a chain: it requires the next one, and the first is a direct dependency. -/
def link (k : Nat) : Item :=
  { name := linkName k, version := "1", requires := some [linkName (k + 1)], requested := decide (k = 0) }

/-- A report of so many packages, each of which requires the next one. -/
def chain (n : Nat) : Report := { items := (List.range n).map link }

variable {k j n : Nat}

theorem mem_linkName {c : CodePoint} (h : c ∈ linkName k) : c = CodePoint.scalar 'a' :=
  List.eq_of_mem_replicate h

theorem linkName_inj : linkName j = linkName k ↔ j = k := by
  refine ⟨fun h => ?_, congrArg linkName⟩
  have hlength := congrArg List.length h
  rw [linkName, linkName, List.length_replicate, List.length_replicate] at hlength
  exact Nat.succ.inj hlength

theorem normalName_linkName (k : Nat) : normalName (linkName k) = linkName k := by
  have hlower : (linkName k).lower = linkName k := Text.lowerAfter_of_stable [] fun p hp => by
    rw [mem_linkName hp]
    exact ⟨by decide, by decide⟩
  rw [normalName, hlower]
  exact replace_of_not_mem fun hmem => absurd (mem_linkName hmem) (by decide)

theorem key_link (k : Nat) : (link k).key = linkName k := normalName_linkName k

theorem nodeId_link_inj : (link j).nodeId = (link k).nodeId ↔ j = k := by
  refine ⟨fun h => ?_, fun h => by rw [h]⟩
  rw [Item.nodeId, Item.nodeId, key_link, key_link] at h
  exact linkName_inj.mp (List.append_cancel_right (List.append_cancel_right h))

/-- A package of a chain requires the next one. -/
theorem dependencyNames_link (k : Nat) : (link k).dependencyNames = [linkName (k + 1)] := by
  have hfree : Requirement.extra (linkName (k + 1)) = [] :=
    (Requirement.HangsOn.nothing (Requirement.noExtra_of_unquoted fun c hc => by
      rw [mem_linkName hc]; decide)).extra_eq
  have hname : Requirement.name (linkName (k + 1)) = linkName (k + 1) :=
    List.takeWhile_eq_self_iff.mpr fun c hc => by rw [mem_linkName hc]; decide
  have happlicable : applicable [linkName (k + 1)] [] = [linkName (k + 1)] := by
    rw [applicable, List.filter_cons_of_pos (by rw [hfree]; rfl)]
    rfl
  have hdistinct : distinctNames [] [linkName (k + 1)] = [linkName (k + 1)] := rfl
  show Text.sort (requiredNames [linkName (k + 1)] []) = _
  rw [requiredNames, happlicable, List.map_singleton, hname, hdistinct]
  exact Text.sort_of_pairwise (List.pairwise_singleton _ _)

theorem item?_chain (n k : Nat) : (chain n).item? (linkName k) = if k < n then some (link k) else none := by
  have hkeys : ((chain n).items.map Item.key).Nodup := by
    rw [chain, List.map_map]
    refine List.nodup_range.map fun j k h => ?_
    rwa [Function.comp_apply, Function.comp_apply, key_link, key_link, linkName_inj] at h
  rw [item?_eq_last?, normalName_linkName]
  split
  next h => exact (last?_eq_some_iff hkeys).mpr ⟨List.mem_map_of_mem (List.mem_range.mpr h), key_link k⟩
  next h =>
    refine Option.eq_none_iff_forall_not_mem.mpr fun i hi => h ?_
    obtain ⟨hmem, hkey⟩ := (last?_eq_some_iff hkeys).mp hi
    obtain ⟨j, hj, rfl⟩ := List.mem_map.mp hmem
    rw [key_link, linkName_inj] at hkey
    exact hkey ▸ List.mem_range.mp hj

theorem directNames_chain (n : Nat) : (chain (n + 1)).directNames = [linkName 0] := by
  have hfilter : (chain (n + 1)).items.filter Item.requested = [link 0] := by
    rw [chain, List.range_succ_eq_map, List.map_cons, List.map_map, List.filter_cons_of_pos rfl,
      List.filter_eq_nil_iff.mpr fun i hi => ?_]
    obtain ⟨k, _, rfl⟩ := List.mem_map.mp hi
    exact Bool.false_ne_true
  rw [Report.directNames, hfilter, List.map_singleton, key_link]
  exact Text.sort_of_pairwise (List.pairwise_singleton _ _)

/-- From a package on whose chain nothing was met before, the walk fails just if the rest of the chain is
longer than the room. -/
theorem Walk.descendWithin_chain (n room k : Nat) (parent : Text) (w : Walk)
    (hv : ∀ j, k ≤ j → (link j).nodeId ∉ w.visited) (he : ∀ j, k ≤ j → (link j).nodeId ∉ w.expanded) :
    descendWithin (chain n) room parent [linkName k] w = .error tooDeep ↔ room < n - k := by
  induction room generalizing k parent w with
  | zero =>
    rw [descendWithin, List.any_cons, List.any_nil, Bool.or_false, item?_chain]
    split
    next h => simpa using h
    next h => simpa using h
  | succ room ih =>
    by_cases hk : k < n
    · have hi : (chain n).item? (linkName k) = some (link k) := by rw [item?_chain, if_pos hk]
      have hne : ∀ j, k + 1 ≤ j → (link j).nodeId ≠ (link k).nodeId :=
        fun j hj heq => absurd (nodeId_link_inj.mp heq) (by omega)
      have hbelow := ih (k + 1) (link k).nodeId (w.expand parent (link k))
        (fun j hj => List.not_mem_cons_of_ne_of_not_mem (hne j hj) (hv j (by omega)))
        (fun j hj => List.not_mem_cons_of_ne_of_not_mem (hne j hj) (he j (by omega)))
      rw [descendWithin_of_new hi (hv k (Nat.le_refl k)) (he k (Nat.le_refl k)), dependencyNames_link]
      show (descendWithin _ _ _ _ _ >>= pure) = _ ↔ _
      rw [bind_pure, hbelow]
      omega
    · have hi : (chain n).item? (linkName k) = none := by rw [item?_chain, if_neg hk]
      rw [descendWithin_of_unknown hi]
      exact ⟨fun h => (nomatch h), fun h => by omega⟩

/-- A report whose packages form a chain has its graph just if the chain is no longer than the room. -/
theorem graphWithin_chain (n room : Nat) (manager : Text) :
    (chain n).graphWithin room manager =
      if n ≤ room then .ok ((chain n).toGraph manager) else .error Walk.tooDeep := by
  have hfails : (chain n).graphWithin room manager = .error Walk.tooDeep ↔ room < n := by
    cases n with
    | zero =>
      have hnone : (chain 0).directNames = [] := Text.sort_of_pairwise .nil
      rw [Report.graphWithin, hnone]
      exact ⟨fun h => (nomatch h), fun h => absurd h (Nat.not_lt_zero _)⟩
    | succ n =>
      have hround := Walk.descendWithin_chain (n + 1) room 0 GraphBuilder.rootId (Walk.start manager)
        (fun _ _ => List.not_mem_nil) (fun _ _ => List.not_mem_nil)
      rw [Report.graphWithin, directNames_chain, List.foldlM_cons, ← Nat.sub_zero (n + 1), ← hround]
      show (Walk.descendWithin _ _ _ _ (Walk.start manager) >>= pure) >>= _ = _ ↔ _
      rw [bind_pure]
      cases Walk.descendWithin (chain (n + 1)) room GraphBuilder.rootId [linkName 0] (Walk.start manager) with
      | ok w => exact ⟨fun h => (nomatch h), fun h => (nomatch h)⟩
      | error e =>
        show Except.error e = Except.error Walk.tooDeep ↔ Except.error e = Except.error Walk.tooDeep
        rw [Except.error.injEq, Except.error.injEq]
  split
  next h =>
    rcases graphWithin_eq (chain n) room manager with heq | ⟨heq, _⟩
    · exact heq
    · exact absurd (hfails.mp heq) (Nat.not_lt_of_le h)
  next h => exact hfails.mpr (Nat.lt_of_not_le h)

/-! ## Files with chains -/

/-- A package of a chain as a record. -/
def linkData (k : Nat) : Data :=
  .record [("metadata", .record [("name", .text (linkName k)), ("version", .text "1"),
      ("requires_dist", .list [.text (linkName (k + 1))])]),
    ("requested", .bool (decide (k = 0)))]

/-- A report whose packages form a chain as a record. -/
def chainData (n : Nat) : Data := .record [("install", .list ((List.range n).map linkData))]

/-- The file of such a report. -/
def chainFile (n : Nat) : Bytes := Json.writeBytes .compactAscii (chainData n)

theorem fit_linkData (k : Nat) : Item.fit (linkData k) = .ok (link k) := rfl

theorem fit_chainData (n : Nat) : Report.fit (chainData n) = .ok (chain n) := by
  have hitems : Fit.items Item.fit 0 ((List.range n).map linkData) = .ok ((List.range n).map link) :=
    Fit.items_map fun k _ => fit_linkData k
  show Report.mk <$> (Fit.items Item.fit 0 ((List.range n).map linkData)).under (.key "install") = _
  rw [hitems]
  rfl

theorem legible_chainData (n : Nat) : Legible strict 5 (chainData n) := by
  have hname : ∀ {k d : Nat}, Legible strict d (.text (linkName k)) := fun {k _} =>
    .text (Or.inr (List.all_eq_true.mpr fun c hc => by rw [mem_linkName hc]; rfl))
  have hmetadata : ∀ k, Legible strict 2 (.record [("name", .text (linkName k)), ("version", .text "1"),
      ("requires_dist", .list [.text (linkName (k + 1))])]) := fun k =>
    LegibleMembers.toRecord (.cons (by decide) hname
      (.cons (by decide) (.text (Or.inr (Text.isScalar_ofString "1")))
        (.cons (by decide) (.list (List.forall_mem_singleton.mpr hname)) .nil)))
  refine LegibleMembers.toRecord (.cons (by decide) (.listMap fun k _ => ?_) .nil)
  exact LegibleMembers.toRecord (.cons (by decide) (hmetadata k) (.cons (by decide) (.bool _ _) .nil))

/-- For a chain of any length there is a file that is read as its report. -/
theorem decode_chainFile (n : Nat) : Report.decode (chainFile n) = .ok (chain n) :=
  Json.readModel_eq_ok.mpr ⟨chainData n,
    Json.readStrict_writeBytes Json.lays_compactAscii Json.plain_compactAscii
      ((legible_chainData n).mono (by decide)),
    fit_chainData n⟩

end ManifestGraph.Pip
