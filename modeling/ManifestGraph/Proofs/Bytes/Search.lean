/-
  Searching for a marker, and cutting at it. A marker that does not overlap itself is found where it
  stands if it stands nowhere before (`breakOn_append`), and a cut at it leaves the cuts on both sides as
  they are (`splitOn_append`). Between markers that do not overlap each other, none arises that is in
  neither of the pieces (`not_infix_append`).
-/
import ManifestGraph.Bytes
import Mathlib.Data.List.Infix

namespace ManifestGraph.Bytes

/-- Occurrences of `a` and `b` do not overlap, but for one with itself: an end of `a` that agrees with `b`
as far as both reach is all of `a`, and `a` is `b`. -/
def Separate (a b : Bytes) : Prop :=
  ∀ s ∈ a.tails, s ≠ [] → s <+: b ∨ b <+: s → s = a ∧ a = b

instance (a b : Bytes) : Decidable (Separate a b) :=
  inferInstanceAs (Decidable (∀ s ∈ a.tails, s ≠ [] → s <+: b ∨ b <+: s → s = a ∧ a = b))

variable {sub m bs u v before after : Bytes}

/-- An end of `a` that goes on as `b` does is all of `a`. -/
theorem Separate.eq_of_prefix {a b s t : Bytes} (h : Separate a b) (hs : s <:+ a) (hne : s ≠ [])
    (hsb : s <+: b ++ t) : s = a ∧ a = b :=
  h s ((List.mem_tails s a).mpr hs) hne (List.prefix_or_prefix_of_prefix hsb (List.prefix_append b t))

/-! ## Searching -/

theorem breakOn_nil (sub : Bytes) : breakOn sub [] = if sub = [] then some ([], []) else none := by
  cases sub <;> rfl

/-- The search stops here if the marker starts here, and goes on otherwise. -/
theorem breakOn_cons (sub : Bytes) (b : UInt8) (bs : Bytes) : breakOn sub (b :: bs) =
    if sub <+: b :: bs then some ([], (b :: bs).drop sub.length)
    else (breakOn sub bs).map fun x => (b :: x.1, x.2) := by
  rw [breakOn]
  simp only [List.isPrefixOf_iff_prefix]

theorem eq_append_of_breakOn (h : breakOn sub bs = some (before, after)) :
    bs = before ++ (sub ++ after) := by
  induction bs generalizing before with
  | nil =>
    rw [breakOn_nil] at h
    split at h
    next hsub => cases h; rw [hsub]; rfl
    next => cases h
  | cons b bs ih =>
    rw [breakOn_cons] at h
    split at h
    next hprefix => cases h; exact (List.prefix_iff_eq_append.mp hprefix).symm
    next =>
      obtain ⟨⟨before', after'⟩, hfound, heq⟩ := Option.map_eq_some_iff.mp h
      cases heq
      rw [ih hfound]
      rfl

theorem breakOn_eq_none_iff : breakOn sub bs = none ↔ ¬ sub <:+: bs := by
  induction bs with
  | nil => rw [breakOn_nil, List.infix_nil]; simp
  | cons b bs ih =>
    rw [breakOn_cons, List.infix_cons_iff, not_or, ← ih]
    split
    next h => simp [h]
    next h => simp [h]

/-- What was found is found in a longer string too. -/
theorem breakOn_append_right (h : breakOn sub bs = some (before, after)) (rest : Bytes) :
    breakOn sub (bs ++ rest) = some (before, after ++ rest) := by
  induction bs generalizing before with
  | nil =>
    rw [breakOn_nil] at h
    split at h
    next hsub => cases h; cases rest <;> simp [hsub, breakOn_nil, breakOn_cons]
    next => cases h
  | cons b bs ih =>
    rw [breakOn_cons] at h
    rw [List.cons_append, breakOn_cons]
    split at h
    next hprefix =>
      cases h
      have hlong : sub <+: b :: (bs ++ rest) := hprefix.trans (List.prefix_append (b :: bs) rest)
      rw [if_pos hlong, ← List.cons_append, List.drop_append_of_le_length hprefix.length_le]
    next hprefix =>
      obtain ⟨⟨before', after'⟩, hfound, heq⟩ := Option.map_eq_some_iff.mp h
      cases heq
      -- the marker fits into `bs`, so it cannot start here and end in `rest`
      have hlength : sub.length ≤ (b :: bs).length := by
        rw [eq_append_of_breakOn hfound]
        simp only [List.length_cons, List.length_append]
        omega
      have hnot : ¬ sub <+: b :: (bs ++ rest) := fun hlong =>
        hprefix (List.prefix_of_prefix_length_le hlong (List.prefix_append (b :: bs) rest) hlength)
      rw [if_neg hnot, ih hfound]
      rfl

/-- A marker that does not overlap itself does not start before its own place. -/
theorem not_prefix_append (hsub : Separate sub sub) (hne : u ≠ []) (hu : ¬ sub <+: u) :
    ¬ sub <+: u ++ (sub ++ v) := by
  intro hlong
  rcases List.prefix_or_prefix_of_prefix hlong (List.prefix_append u (sub ++ v)) with hshort | hshort
  · exact hu hshort
  · -- what is left of the marker after `u` goes on as the marker does
    obtain ⟨s, rfl⟩ := hshort
    have hs : s ≠ [] := by
      rintro rfl
      exact hu (by rw [List.append_nil])
    have hgoes : s <+: u ++ s ++ v := (List.prefix_append_right_inj u).mp hlong
    have hall : s = u ++ s := (hsub.eq_of_prefix (List.suffix_append u s) hs hgoes).1
    exact hne (List.self_eq_append_left.mp hall)

/-- A marker that does not overlap itself is found where it stands. -/
theorem breakOn_append (hsub : Separate sub sub) (hbefore : ¬ sub <:+: before) (after : Bytes) :
    breakOn sub (before ++ (sub ++ after)) = some (before, after) := by
  induction before with
  | nil =>
    cases sub with
    | nil => exact absurd List.nil_infix hbefore
    | cons s sub =>
      rw [List.nil_append, List.cons_append, breakOn_cons, ← List.cons_append,
        if_pos (List.prefix_append _ _), List.drop_left]
  | cons b before ih =>
    rw [List.infix_cons_iff, not_or] at hbefore
    have hnot := not_prefix_append (v := after) hsub (List.cons_ne_nil b before) hbefore.1
    rw [List.cons_append] at hnot
    rw [List.cons_append, breakOn_cons, if_neg hnot, ih hbefore.2]
    rfl

/-! ## Cutting -/

theorem splitOnFrom_eq (sep : Bytes) (skip : Nat) (bs : Bytes) :
    splitOnFrom sep skip bs = splitOn sep (bs.drop skip) := by
  induction bs generalizing skip with
  | nil => cases skip <;> rfl
  | cons b bs ih =>
    cases skip with
    | zero => rfl
    | succ skip => rw [splitOnFrom, ih, List.drop_succ_cons]

/-- The first piece reaches to the first occurrence, the others are those of what is after it. -/
theorem splitOn_eq (hsub : sub ≠ []) (bs : Bytes) : splitOn sub bs =
    match breakOn sub bs with
    | none => [bs]
    | some (before, after) => before :: splitOn sub after := by
  induction bs with
  | nil => rw [breakOn_nil, if_neg hsub]; rfl
  | cons b bs ih =>
    rw [splitOn, splitOnFrom, breakOn_cons]
    simp only [List.isPrefixOf_iff_prefix]
    split
    next =>
      obtain ⟨s, sub, rfl⟩ := List.exists_cons_of_ne_nil hsub
      rw [splitOnFrom_eq]
      rfl
    next =>
      rw [splitOnFrom_eq, List.drop_zero, ih]
      cases breakOn sub bs <;> rfl

theorem splitOn_of_not_infix (hsub : sub ≠ []) (h : ¬ sub <:+: bs) : splitOn sub bs = [bs] := by
  rw [splitOn_eq hsub, breakOn_eq_none_iff.mpr h]

/-- A cut at a marker that does not overlap itself leaves the pieces on both sides as they are. -/
theorem splitOn_append (hne : sub ≠ []) (hsub : Separate sub sub) (x y : Bytes) :
    splitOn sub (x ++ (sub ++ y)) = splitOn sub x ++ splitOn sub y := by
  induction hlength : x.length using Nat.strong_induction_on generalizing x with
  | h n ih =>
    rw [splitOn_eq hne (x ++ (sub ++ y)), splitOn_eq hne x]
    cases hfound : breakOn sub x with
    | none => rw [breakOn_append hsub (breakOn_eq_none_iff.mp hfound)]; rfl
    | some found =>
      obtain ⟨before, after⟩ := found
      have hshorter : after.length < n := by
        have hpos := List.length_pos_of_ne_nil hne
        rw [← hlength, eq_append_of_breakOn hfound, List.length_append, List.length_append]
        omega
      rw [breakOn_append_right hfound]
      dsimp only
      rw [ih after.length hshorter after rfl]
      rfl

/-! ## What stands between -/

/-- Between two pieces that a marker is not in, another marker lets it not arise. -/
theorem not_infix_append (hne : sub ≠ m) (hsub : Separate sub m) (hm : Separate m sub)
    (hu : ¬ sub <:+: u) (hv : ¬ sub <:+: v) : ¬ sub <:+: u ++ (m ++ v) := by
  -- an end of `m` that the marker starts with
  have hstart : ∀ s, s ≠ [] → s <:+ m → ¬ s <+: sub := fun s hs hsuffix hprefix =>
    hne (hm s ((List.mem_tails s m).mpr hsuffix) hs (Or.inl hprefix)).2.symm
  intro hinfix
  rcases List.infix_append_iff_ne_nil.mp hinfix with hin | hin | ⟨s, t, _, ht, rfl, _, hprefix⟩
  · exact hu hin
  · rcases List.infix_append_iff_ne_nil.mp hin with hin | hin | ⟨s, t, hs, _, rfl, hsuffix, _⟩
    · obtain ⟨x, y, rfl⟩ := hin
      have hend : sub ++ y <:+ x ++ sub ++ y := ⟨x, by rw [List.append_assoc]⟩
      have hsubne : sub ≠ [] := by rintro rfl; exact hu List.nil_infix
      have heq := hm _ ((List.mem_tails _ _).mpr hend) (by simp [hsubne]) (Or.inr (List.prefix_append _ _))
      exact hne heq.2.symm
    · exact hv hin
    · exact hstart s hs hsuffix (List.prefix_append s t)
  · exact hne (hsub.eq_of_prefix (List.suffix_append s t) ht hprefix).2

end ManifestGraph.Bytes
