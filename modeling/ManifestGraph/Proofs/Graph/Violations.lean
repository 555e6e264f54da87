/-
  The check reports what is broken, all of it, and nothing else. `occurrences` says how often a violation
  is to be reported: a repeated id of packages or nodes and a wrong number of roots once, an unknown
  package once for each node that refers to it, an unknown child once for each parent. The reports are
  just these (`count_violations`). In a document that passes, the packages of all nodes and that of the
  root are found (`Valid.finds`), whatever was looked up before. `check_exact` says both of every document.
-/
import ManifestGraph.Proofs.Graph.Lookup

namespace ManifestGraph

variable {g : DependencyGraph} {n : Node}

namespace DependencyGraph

/-! ## Reports -/

/-- How often a violation is to be reported. -/
def occurrences (g : DependencyGraph) : Violation → Nat
  | .packagesRepeated => if (g.packages.map Package.id).Nodup then 0 else 1
  | .nodesRepeated => if (g.nodes.map Node.id).Nodup then 0 else 1
  | .rootCount root found =>
    if root = g.root ∧ found = (g.nodes.map Node.id).count g.root ∧ found ≠ 1 then 1 else 0
  | .packageUnknown node package =>
    if (g.packages.map Package.id).contains package then 0
    else g.nodes.countP fun n => n.id = node ∧ n.package = package
  | .childUnknown parent child =>
    if g.links.contains (parent, child) && !(g.nodes.map Node.id).contains child then 1 else 0

theorem count_packageUnknown (node package : Text) :
    (g.unpackaged.map fun n => Violation.packageUnknown n.id n.package).count
      (.packageUnknown node package) = g.occurrences (.packageUnknown node package) := by
  rw [List.count_eq_countP, List.countP_map, unpackaged, List.countP_filter, occurrences]
  split
  next hknown =>
    rw [List.countP_eq_zero]
    intro n _
    simp only [Function.comp_apply, Bool.and_eq_true, beq_iff_eq, Violation.packageUnknown.injEq,
      Bool.not_eq_true', not_and, Bool.not_eq_false]
    rintro ⟨_, rfl⟩
    exact hknown
  next hunknown =>
    refine List.countP_congr fun n _ => ?_
    simp only [Function.comp_apply, Bool.and_eq_true, beq_iff_eq, Violation.packageUnknown.injEq,
      Bool.not_eq_true', decide_eq_true_eq, and_iff_left_iff_imp]
    rintro ⟨_, rfl⟩
    exact Bool.eq_false_iff.mpr hunknown

theorem count_childUnknown (parent child : Text) :
    (g.dangling.map fun e => Violation.childUnknown e.1 e.2).count (.childUnknown parent child) =
      g.occurrences (.childUnknown parent child) := by
  have hinjective : Function.Injective fun e : Text × Text => Violation.childUnknown e.1 e.2 := by
    rintro ⟨_, _⟩ ⟨_, _⟩ h
    cases h
    rfl
  have hmem : Violation.childUnknown parent child ∈
      (g.dangling.map fun e => Violation.childUnknown e.1 e.2) ↔
      g.links.contains (parent, child) && !(g.nodes.map Node.id).contains child := by
    rw [List.mem_map_of_injective (a := (parent, child)) hinjective, mem_dangling, Bool.and_eq_true,
      Bool.not_eq_true', ← Bool.not_eq_true, List.contains_iff_mem, List.contains_iff_mem]
  rw [((g.nodup_dangling).map hinjective).count, occurrences]
  exact if_congr hmem rfl rfl

theorem count_map_of_ne {α : Type} {f : α → Violation} {v : Violation} (h : ∀ a, f a ≠ v)
    (l : List α) : (l.map f).count v = 0 := by
  rw [List.count_eq_zero, List.mem_map]
  rintro ⟨a, _, ha⟩
  exact h a ha

theorem count_unless (p : Prop) [Decidable p] (v w : Violation) :
    (if p then [] else [w]).count v = if ¬ p ∧ w = v then 1 else 0 := by
  by_cases hp : p <;> simp [hp, List.count_singleton]

/-- Every violation is reported as often as it is there. -/
theorem count_violations (g : DependencyGraph) (v : Violation) :
    g.violations.count v = g.occurrences v := by
  simp only [violations, List.count_append, count_unless, length_firsts_eq_iff]
  cases v with
  | packagesRepeated => simp [occurrences, count_map_of_ne]
  | nodesRepeated => simp [occurrences, count_map_of_ne]
  | rootCount root found =>
    have hroot : (¬ (g.nodes.map Node.id).count g.root = 1 ∧
        g.root = root ∧ (g.nodes.map Node.id).count g.root = found) ↔
        root = g.root ∧ found = (g.nodes.map Node.id).count g.root ∧ found ≠ 1 := by
      constructor
      · rintro ⟨hcount, rfl, rfl⟩
        exact ⟨rfl, rfl, hcount⟩
      · rintro ⟨rfl, rfl, hcount⟩
        exact ⟨hcount, rfl, rfl⟩
    simp [occurrences, count_map_of_ne, hroot]
  | packageUnknown node package => simp [count_packageUnknown, count_map_of_ne]
  | childUnknown parent child => simp [count_childUnknown, count_map_of_ne]

/-! ## Lookups in a valid document -/

theorem exists_find?_eq_some {α : Type} {p : α → Prop} [DecidablePred p] {l : List α}
    (h : ∃ a ∈ l, p a) : ∃ a ∈ l, p a ∧ l.find? (fun a => p a) = some a := by
  obtain ⟨a, ha, hp⟩ := h
  have hfound : (l.find? fun a => p a).isSome := List.find?_isSome.mpr ⟨a, ha, decide_eq_true hp⟩
  obtain ⟨b, hb⟩ := Option.isSome_iff_exists.mp hfound
  have hsame := List.find?_some hb
  exact ⟨b, List.mem_of_find?_eq_some hb, of_decide_eq_true hsame, hb⟩

theorem Valid.package?_eq_some (h : g.Valid) (hn : n ∈ g.nodes) :
    ∃ p ∈ g.packages, p.id = n.package ∧ g.package? n.package = some p := by
  obtain ⟨q, hq, hid⟩ := List.mem_map.mp (h.package_known n hn)
  have hknown : ∃ p ∈ g.packages.reverse, p.id = n.package := ⟨q, List.mem_reverse.mpr hq, hid⟩
  obtain ⟨p, hp, hpid, hfound⟩ := exists_find?_eq_some hknown
  exact ⟨p, List.mem_reverse.mp hp, hpid, hfound⟩

theorem Valid.rootNode?_eq_some (h : g.Valid) :
    ∃ n ∈ g.nodes, n.id = g.root ∧ g.rootNode? = some n := by
  have hmem : g.root ∈ g.nodes.map Node.id :=
    List.count_pos_iff.mp (by rw [h.one_root]; exact Nat.one_pos)
  exact exists_find?_eq_some (List.mem_map.mp hmem)

end DependencyGraph

/-- The lookups of a graph find the package of every node of the document, and as root package that of
the one root node. -/
structure LookupGraph.Finds (l : LookupGraph) (g : DependencyGraph) : Prop where
  package : ∀ n ∈ g.nodes, ∃ p ∈ g.packages, p.id = n.package ∧ (l.package? n.package).1 = some p
  root : ∃ n ∈ g.nodes, n.id = g.root ∧ (∀ m ∈ g.nodes, m.id = g.root → m = n) ∧
    ∃ p ∈ g.packages, p.id = n.package ∧ l.rootPackage?.1 = some p

namespace DependencyGraph

theorem Valid.finds (h : g.Valid) (asked : List Lookup) :
    (({ graph := g } : LookupGraph).after asked).Finds g := by
  obtain ⟨hgraph, hfaithful⟩ := (LookupGraph.faithful_fresh g).after asked
  constructor
  · intro n hn
    rw [hfaithful.package?_eq, hgraph]
    exact h.package?_eq_some hn
  · obtain ⟨n, hn, hid, hroot⟩ := h.rootNode?_eq_some
    refine ⟨n, hn, hid, fun m hm hm' => ?_, ?_⟩
    · exact List.inj_on_of_nodup_map h.nodes_distinct hm hn (hm'.trans hid.symm)
    · rw [hfaithful.rootPackage?_eq.1, hgraph, rootPackage?, hroot]
      exact h.package?_eq_some hn

/-! ## The check -/

/-- The check tells exactly what is broken: it passes a valid document, whose lookups then find their
packages whatever was asked before, and refuses any other with a message for every violation there is. -/
theorem check_exact (g : DependencyGraph) :
    (∀ v, g.violations.count v = g.occurrences v) ∧
    ((g.Valid ∧ g.violations = [] ∧ g.check = .ok () ∧
        ∀ asked, (({ graph := g } : LookupGraph).after asked).Finds g) ∨
      (¬ g.Valid ∧ g.violations ≠ [] ∧
        g.check = .error (.of (.graphInvalid (g.violations.map Violation.message))))) := by
  refine ⟨count_violations g, ?_⟩
  by_cases h : g.Valid
  · exact Or.inl ⟨h, violations_eq_nil_iff.mpr h, check_of_valid h, h.finds⟩
  · have hne : g.violations ≠ [] := mt violations_eq_nil_iff.mp h
    refine Or.inr ⟨h, hne, ?_⟩
    rw [check]
    split
    next hnil => exact absurd hnil hne
    next => rfl

/-- An edge that is given twice is reported once; the known child and the second use of the package are in
order, and nothing has the id of the root. -/
example :
    ({ schema := currentSchema, manager := { name := "pip" }, root := "root",
       packages := [{ id := "a@1", info := { name := "a", version := some "1" } }],
       nodes := [{ id := "a", package := "a@1", children := ["b", "c", "b"] },
         { id := "c", package := "a@1" }, { id := "d", package := "d@2" }] } :
      DependencyGraph).violations =
      [.rootCount "root" 0, .packageUnknown "d" "d@2", .childUnknown "a" "b"] := by
  decide +kernel

end DependencyGraph
end ManifestGraph
