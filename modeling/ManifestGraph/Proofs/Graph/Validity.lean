/-
  Valid documents pass the check, and no others (`check_eq_ok_iff`). `firsts` keeps of every element its
  first occurrence (`firsts_append_singleton`, `mem_firsts`, `nodup_firsts`), so it tells whether anything
  occurs twice (`length_firsts_eq_iff`). The edges of a document are the pairs of a node's id and one of
  its children (`mem_edges`), and those dangle that no node answers to (`mem_dangling`).
-/
import ManifestGraph.Graph.Invariants
import ManifestGraph.Proofs.Graph.Digraph
import Mathlib.Data.List.Perm.Basic

namespace ManifestGraph.DependencyGraph

/-! ## First occurrences -/

section Firsts

variable {α : Type} [DecidableEq α]

@[simp] theorem mem_firsts {x : α} {l : List α} : x ∈ firsts l ↔ x ∈ l := by
  induction l with
  | nil => simp [firsts]
  | cons y ys ih =>
    simp only [firsts, List.mem_cons, List.mem_filter, ih, decide_eq_true_eq]
    by_cases h : x = y <;> simp [h]

theorem nodup_firsts (l : List α) : (firsts l).Nodup := by
  induction l with
  | nil => exact List.nodup_nil
  | cons y ys ih =>
    rw [firsts, List.nodup_cons]
    exact ⟨by simp, ih.filter _⟩

/-- One more element at the end counts only if it is new. -/
theorem firsts_append_singleton (l : List α) (x : α) :
    firsts (l ++ [x]) = if x ∈ l then firsts l else firsts l ++ [x] := by
  induction l with
  | nil => simp [firsts]
  | cons y ys ih =>
    rw [List.cons_append, firsts, ih, firsts]
    by_cases hx : x ∈ ys
    · simp [hx]
    · rw [if_neg hx, List.filter_append]
      by_cases hy : x = y
      · simp [hy]
      · simp [hx, hy]

theorem firsts_sublist (l : List α) : (firsts l).Sublist l := by
  induction l with
  | nil => exact List.Sublist.slnil
  | cons y ys ih => exact (List.filter_sublist.trans ih).cons_cons y

/-- Taking first occurrences makes a list shorter unless nothing occurs twice. -/
theorem length_firsts_eq_iff {l : List α} : (firsts l).length = l.length ↔ l.Nodup := by
  constructor
  · intro h
    rw [← (firsts_sublist l).eq_of_length h]
    exact nodup_firsts l
  · intro h
    exact ((List.perm_ext_iff_of_nodup (nodup_firsts l) h).mpr fun _ => mem_firsts).length_eq

end Firsts

/-! ## Edges -/

variable {g : DependencyGraph}

theorem mem_links {e : Text × Text} : e ∈ g.links ↔ ∃ n ∈ g.nodes, n.id = e.1 ∧ e.2 ∈ n.children := by
  simp only [links, List.mem_flatMap, List.mem_map]
  constructor
  · rintro ⟨n, hn, child, hchild, rfl⟩
    exact ⟨n, hn, rfl, hchild⟩
  · rintro ⟨n, hn, hid, hchild⟩
    exact ⟨n, hn, e.2, hchild, Prod.ext hid rfl⟩

theorem mem_edges {g : DependencyGraph} {e : Text × Text} :
    e ∈ g.edges ↔ ∃ n ∈ g.nodes, n.id = e.1 ∧ e.2 ∈ n.children :=
  (g.holds_digraph.mem_edges e).trans mem_links

/-- An edge dangles if no node of the document has the id that it leads to. -/
theorem mem_dangling {e : Text × Text} :
    e ∈ g.dangling ↔ e ∈ g.links ∧ e.2 ∉ g.nodes.map Node.id := by
  have hgraph := g.holds_digraph
  rw [dangling, List.mem_filter, List.contains_iff_mem, hgraph.mem_edges, hgraph.mem_undeclared,
    hgraph.known]
  exact and_congr_right fun he => and_iff_right (Or.inr ⟨e, he, Or.inr rfl⟩)

/-- However often a node names a child, the edge dangles once. -/
theorem nodup_dangling (g : DependencyGraph) : g.dangling.Nodup :=
  g.holds_digraph.nodup_edges.filter _

theorem dangling_eq_nil_iff :
    g.dangling = [] ↔ ∀ n ∈ g.nodes, ∀ c ∈ n.children, c ∈ g.nodes.map Node.id := by
  rw [List.eq_nil_iff_forall_not_mem]
  simp only [mem_dangling, mem_links, not_and, not_not]
  constructor
  · intro h n hn c hc
    exact h (n.id, c) ⟨n, hn, rfl, hc⟩
  · rintro h e ⟨n, hn, _, hc⟩
    exact h n hn e.2 hc

theorem unpackaged_eq_nil_iff :
    g.unpackaged = [] ↔ ∀ n ∈ g.nodes, n.package ∈ g.packages.map Package.id := by
  simp only [unpackaged, List.filter_eq_nil_iff, Bool.not_eq_true, Bool.not_eq_false',
    List.contains_iff_mem]

/-! ## The check -/

theorem violations_eq_nil_iff : g.violations = [] ↔ g.Valid := by
  simp only [violations, List.append_eq_nil_iff, List.map_eq_nil_iff, ite_eq_left_iff,
    List.cons_ne_nil, imp_false, not_not, length_firsts_eq_iff, unpackaged_eq_nil_iff,
    dangling_eq_nil_iff]
  constructor
  · rintro ⟨⟨⟨⟨hpackages, hnodes⟩, hroot⟩, hpackage⟩, hchild⟩
    exact ⟨hpackages, hnodes, hroot, hpackage, hchild⟩
  · intro h
    exact ⟨⟨⟨⟨h.packages_distinct, h.nodes_distinct⟩, h.one_root⟩, h.package_known⟩, h.child_known⟩

/-- Valid documents are passed on, and no others. -/
theorem check_eq_ok_iff : g.check = .ok () ↔ g.Valid := by
  rw [← violations_eq_nil_iff, check]
  split
  next h => exact iff_of_true rfl h
  next h => exact iff_of_false (fun h => nomatch h) h

/-- A valid document is passed on. -/
theorem check_of_valid {g : DependencyGraph} (h : g.Valid) : g.check = .ok () := check_eq_ok_iff.mpr h

/-- A document that is not passed on is refused with its violations. -/
theorem exists_of_check_eq_error {e : Failure} (h : g.check = .error e) :
    ∃ messages, e = .of (.graphInvalid messages) := by
  unfold check at h
  split at h
  next => cases h
  next => cases h; exact ⟨_, rfl⟩

end ManifestGraph.DependencyGraph
