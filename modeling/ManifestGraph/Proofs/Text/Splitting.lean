/-
  Texts that are cut at a code point and put together again. Joined pieces without the separator come
  apart as they were (`splitOn_join`), so they are told by their join (`join_injective`). A text that was
  stripped has nothing left to strip (`trim_trim`).
-/
import ManifestGraph.Text.Blank
import Mathlib.Data.List.DropRight

namespace ManifestGraph.Text

variable {sep : CodePoint} {t piece : Text} {ts ts' : List Text}

/-- Cutting is that of lists. -/
theorem splitOn_eq (sep : CodePoint) (t : Text) : splitOn sep t = List.splitOn sep t := by
  rw [List.splitOn_eq_splitOnP]
  induction t with
  | nil => rfl
  | cons c t ih =>
    rw [splitOn, ih, List.splitOnP_cons_eq_if_modifyHead]
    split
    next heq => rw [if_pos (by simp [heq])]
    next hne =>
      rw [if_neg (by simp [hne])]
      cases h : List.splitOnP (fun x => x == sep) t with
      | nil => exact absurd h (List.splitOnP_ne_nil _ t)
      | cons piece pieces => rfl

/-- Before and after a separator the pieces are those of the two texts. -/
theorem splitOn_append (sep : CodePoint) (t u : Text) :
    splitOn sep (t ++ sep :: u) = splitOn sep t ++ splitOn sep u := by
  simp only [splitOn_eq, List.splitOn_eq_splitOnP]
  exact List.splitOnP_append_cons t u (beq_self_eq_true sep)

theorem splitOn_of_not_mem (h : sep ∉ t) : splitOn sep t = [t] := by
  rw [splitOn_eq, List.splitOn_eq_splitOnP]
  exact List.splitOnP_eq_singleton fun c hc => beq_false_of_ne fun heq => h (heq ▸ hc)

theorem not_mem_of_mem_splitOn (h : piece ∈ splitOn sep t) : sep ∉ piece := by
  induction t generalizing piece with
  | nil =>
    rw [splitOn, List.mem_singleton] at h
    simp [h]
  | cons c t ih =>
    rw [splitOn] at h
    split at h
    next =>
      rcases List.mem_cons.mp h with rfl | h
      · simp
      · exact ih h
    next hne =>
      split at h
      next first rest heq =>
        rw [heq] at ih
        rcases List.mem_cons.mp h with rfl | h
        · have hfirst : sep ∉ first := ih List.mem_cons_self
          simp [hfirst, Ne.symm hne]
        · exact ih (List.mem_cons_of_mem _ h)
      next =>
        rw [List.mem_singleton] at h
        simp [h, Ne.symm hne]

/-- Joined pieces come apart again as they were. -/
theorem splitOn_join (h : ∀ t ∈ ts, sep ∉ t) (hne : ts ≠ []) : splitOn sep (join [sep] ts) = ts := by
  rw [splitOn_eq]
  exact List.splitOn_intercalate sep h hne

/-- Lists of pieces that are joined to the same text are the same. -/
theorem join_injective (h : ∀ t ∈ ts, sep ∉ t) (h' : ∀ t ∈ ts', sep ∉ t) (hne : ts ≠ []) (hne' : ts' ≠ [])
    (heq : join [sep] ts = join [sep] ts') : ts = ts' := by
  rw [← splitOn_join h hne, heq, splitOn_join h' hne']

theorem join_singleton (sep t : Text) : join sep [t] = t := List.intercalate_singleton

/-- A piece stands before the others with the separator between them. -/
theorem join_cons_of_ne_nil (t : Text) (hne : ts ≠ []) : join [sep] (t :: ts) = t ++ sep :: join [sep] ts := by
  rw [join, List.intercalate_cons_of_ne_nil hne, List.append_assoc]
  rfl

/-- The pieces of joined texts are those of each of them. -/
theorem splitOn_join_eq (hne : ts ≠ []) : splitOn sep (join [sep] ts) = ts.flatMap (splitOn sep) := by
  induction ts with
  | nil => exact absurd rfl hne
  | cons t ts ih =>
    cases ts with
    | nil => rw [join_singleton, List.flatMap_singleton]
    | cons t' ts =>
      rw [join_cons_of_ne_nil t (List.cons_ne_nil t' ts), splitOn_append, ih (List.cons_ne_nil t' ts)]
      rfl

/-! ## Stripping -/

/-- Stripping adds nothing. -/
theorem mem_of_mem_trim {c : CodePoint} (h : c ∈ t.trim) : c ∈ t := by
  have hstart : t.dropWhile CodePoint.isBlank <:+ t := List.dropWhile_suffix _
  have hend : t.trim <+: t.dropWhile CodePoint.isBlank := List.rdropWhile_prefix _ _
  exact hstart.subset (hend.subset h)

/-- What is left at the end of a text without blanks at its start has none there either. -/
theorem dropWhile_rdropWhile {p : CodePoint → Bool} (h : t.dropWhile p = t) :
    (t.rdropWhile p).dropWhile p = t.rdropWhile p := by
  have hstart : t.rdropWhile p <+: t := t.rdropWhile_prefix p
  rw [List.dropWhile_eq_self_iff] at h ⊢
  intro hpos
  rw [hstart.getElem hpos]
  exact h (Nat.lt_of_lt_of_le hpos hstart.length_le)

/-- What was stripped has nothing left to strip. -/
theorem trim_trim (t : Text) : t.trim.trim = t.trim := by
  show List.rdropWhile _ ((List.rdropWhile _ (t.dropWhile _)).dropWhile _) = _
  rw [dropWhile_rdropWhile (List.dropWhile_idempotent _ t)]
  exact List.rdropWhile_idempotent _ _

end ManifestGraph.Text
