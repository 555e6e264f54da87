/-
  The order of texts is total and decided by the first difference, so a sorted list is in ascending
  order (`pairwise_sort`) and holds what it held (`perm_sort`). Texts that are not told apart by the
  order are equal, so nothing else of a list matters for how it is sorted (`sort_eq_of_perm`).
-/
import ManifestGraph.Proofs.Text.Numbers

namespace ManifestGraph.Text

theorem le_total (s t : Text) : le s t || le t s := by
  induction s generalizing t with
  | nil => rfl
  | cons a s ih =>
    cases t with
    | nil => rfl
    | cons b t =>
      have hrest := ih t
      simp only [le, Bool.or_eq_true, Bool.and_eq_true, decide_eq_true_eq, beq_iff_eq] at hrest ⊢
      rcases Nat.lt_trichotomy a.toNat b.toNat with h | h | h
      · exact Or.inl (Or.inl h)
      · exact hrest.imp (fun hs => Or.inr ⟨h, hs⟩) fun ht => Or.inr ⟨h.symm, ht⟩
      · exact Or.inr (Or.inl h)

theorem le_refl (t : Text) : le t t = true := by
  simpa using le_total t t

theorem le_trans {s t u : Text} (hst : le s t) (htu : le t u) : le s u := by
  induction s generalizing t u with
  | nil => rfl
  | cons a s ih =>
    cases t with
    | nil => cases hst
    | cons b t =>
      cases u with
      | nil => cases htu
      | cons c u =>
        simp only [le, Bool.or_eq_true, Bool.and_eq_true, decide_eq_true_eq, beq_iff_eq] at *
        rcases hst with hab | ⟨hab, hst⟩
        · rcases htu with hbc | ⟨hbc, _⟩
          · exact Or.inl (Nat.lt_trans hab hbc)
          · exact Or.inl (hbc ▸ hab)
        · rcases htu with hbc | ⟨hbc, htu⟩
          · exact Or.inl (hab ▸ hbc)
          · exact Or.inr ⟨hab.trans hbc, ih hst htu⟩

theorem le_antisymm {s t : Text} (hst : le s t) (hts : le t s) : s = t := by
  induction s generalizing t with
  | nil =>
    cases t with
    | nil => rfl
    | cons b t => cases hts
  | cons a s ih =>
    cases t with
    | nil => cases hst
    | cons b t =>
      simp only [le, Bool.or_eq_true, Bool.and_eq_true, decide_eq_true_eq, beq_iff_eq] at hst hts
      have hab : a.toNat = b.toNat := by omega
      rw [CodePoint.toNat_injective hab]
      congr 1
      apply ih
      · exact hst.resolve_left (by omega) |>.2
      · exact hts.resolve_left (by omega) |>.2

theorem perm_sort (ts : List Text) : (sort ts).Perm ts := List.mergeSort_perm ts le

theorem mem_sort {t : Text} {ts : List Text} : t ∈ sort ts ↔ t ∈ ts := (perm_sort ts).mem_iff

theorem pairwise_sort (ts : List Text) : (sort ts).Pairwise fun s t => le s t = true :=
  List.pairwise_mergeSort (fun s t u => le_trans (s := s) (t := t) (u := u)) le_total ts

theorem sort_of_pairwise {ts : List Text} (h : ts.Pairwise fun s t => le s t = true) : sort ts = ts :=
  List.mergeSort_of_pairwise h

theorem sort_eq_of_perm {ss ts : List Text} (h : ss.Perm ts) : sort ss = sort ts := by
  have hperm : (sort ss).Perm (sort ts) := (perm_sort ss).trans (h.trans (perm_sort ts).symm)
  apply hperm.eq_of_pairwise ?_ (pairwise_sort ss) (pairwise_sort ts)
  exact fun _ _ _ _ hst hts => le_antisymm hst hts

end ManifestGraph.Text
