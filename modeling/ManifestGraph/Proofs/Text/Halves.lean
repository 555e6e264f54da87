/-
  Halves of characters. An ASCII writer spells a character beyond 16 bits by its two halves, so a text
  that holds a high half right before a low one cannot be told from one that holds the character.
  `joined` puts such halves together; it changes no text without halves (`joined_of_isScalar`).
-/
import ManifestGraph.Proofs.Text.Numbers
import Mathlib.Data.List.Chain

namespace ManifestGraph

namespace CodePoint

/-- The first half of a character beyond 16 bits. -/
def isHigh (c : CodePoint) : Bool := 0xD800 ≤ c.toNat && c.toNat < 0xDC00

/-- The second half of a character beyond 16 bits. -/
def isLow (c : CodePoint) : Bool := 0xDC00 ≤ c.toNat && c.toNat < 0xE000

/-- The number of the character with two halves. -/
def pairNumber (high low : Nat) : Nat := 0x10000 + (high - 0xD800) * 1024 + (low - 0xDC00)

/-- The character with two halves. -/
def pair (high low : CodePoint) : CodePoint := (ofNat? (pairNumber high.toNat low.toNat)).getD default

theorem isHigh_iff {c : CodePoint} : c.isHigh = true ↔ 0xD800 ≤ c.toNat ∧ c.toNat < 0xDC00 := by
  simp [isHigh]

theorem isLow_iff {c : CodePoint} : c.isLow = true ↔ 0xDC00 ≤ c.toNat ∧ c.toNat < 0xE000 := by
  simp [isLow]

theorem toNat_pair {a b : CodePoint} (ha : a.isHigh = true) (hb : b.isLow = true) :
    (pair a b).toNat = pairNumber a.toNat b.toNat := by
  rw [isHigh_iff] at ha
  rw [isLow_iff] at hb
  obtain ⟨c, hc⟩ := exists_ofNat? (n := pairNumber a.toNat b.toNat) (by unfold pairNumber; omega)
  rw [pair, hc, Option.getD_some, toNat_of_ofNat? hc]

theorem ofNat?_pairNumber {a b : CodePoint} (ha : a.isHigh = true) (hb : b.isLow = true) :
    ofNat? (pairNumber a.toNat b.toNat) = some (pair a b) := by
  rw [← toNat_pair ha hb, ofNat?_toNat]

/-- A character is neither half. -/
theorem half_of_toNat {c : CodePoint} (h : 0xD800 ≤ c.toNat ∧ c.toNat < 0xE000) : c.char? = none := by
  cases c with
  | scalar c =>
    have hvalid := c.valid
    unfold UInt32.isValidChar Nat.isValidChar at hvalid
    rw [toNat_scalar, Char.toNat] at h
    omega
  | surrogate n => rfl

theorem isHigh_of_char? {c : CodePoint} (h : c.char?.isSome = true) : c.isHigh = false := by
  rw [Bool.eq_false_iff]
  intro hhigh
  rw [isHigh_iff] at hhigh
  rw [half_of_toNat (by omega)] at h
  cases h

theorem isHigh_of_le {c : CodePoint} (h : 0xDC00 ≤ c.toNat) : c.isHigh = false := by
  rw [Bool.eq_false_iff]
  intro hhigh
  rw [isHigh_iff] at hhigh
  omega

theorem isHigh_pair {a b : CodePoint} (ha : a.isHigh = true) (hb : b.isLow = true) :
    (pair a b).isHigh = false := by
  have hnumber := toNat_pair ha hb
  unfold pairNumber at hnumber
  exact isHigh_of_le (by omega)

theorem isLow_pair {a b : CodePoint} (ha : a.isHigh = true) (hb : b.isLow = true) :
    (pair a b).isLow = false := by
  rw [Bool.eq_false_iff]
  intro hlow
  have hnumber := toNat_pair ha hb
  unfold pairNumber at hnumber
  rw [isLow_iff] at hlow
  omega

end CodePoint

namespace Text

open CodePoint (isHigh isLow pair isHigh_pair isLow_pair)

/-- The text with every high half and the low half right after it made one character. -/
def joined : Text → Text
  | [] => []
  | [c] => [c]
  | c :: d :: t => if c.isHigh && d.isLow then c.pair d :: joined t else c :: joined (d :: t)

theorem joined_cons_of_not_isHigh {c : CodePoint} (h : c.isHigh = false) (t : Text) :
    joined (c :: t) = c :: joined t := by
  cases t with
  | nil => rfl
  | cons d t => rw [joined, h]; rfl

theorem joined_cons_cons_of_not_isLow {c d : CodePoint} (h : d.isLow = false) (t : Text) :
    joined (c :: d :: t) = c :: joined (d :: t) := by
  rw [joined, h, Bool.and_false]
  rfl

theorem joined_pair {c d : CodePoint} (hc : c.isHigh = true) (hd : d.isLow = true) (t : Text) :
    joined (c :: d :: t) = c.pair d :: joined t := by
  rw [joined, hc, hd]
  rfl

theorem isScalar_append {s t : Text} :
    (s ++ t).isScalar = true ↔ s.isScalar = true ∧ t.isScalar = true := by
  rw [isScalar, List.all_append, Bool.and_eq_true]
  rfl

theorem isScalar_ofString (s : String) : isScalar (s : Text) = true := by
  refine List.all_eq_true.mpr fun c hc => ?_
  obtain ⟨x, _, rfl⟩ := List.mem_map.mp hc
  rfl

theorem joined_of_isScalar {t : Text} (h : t.isScalar = true) : joined t = t := by
  induction t with
  | nil => rfl
  | cons c t ih =>
    rw [isScalar, List.all_cons, Bool.and_eq_true] at h
    rw [joined_cons_of_not_isHigh (CodePoint.isHigh_of_char? h.1), ih h.2]

/-- No high half stands right before a low half. -/
def Unsplit (t : Text) : Prop := t.IsChain fun c d => ¬ (c.isHigh && d.isLow)

/-- A text changes if and only if it holds a character in two halves. -/
theorem joined_eq_iff {t : Text} : joined t = t ↔ t.Unsplit := by
  induction t using joined.induct with
  | case1 => exact iff_of_true rfl List.isChain_nil
  | case2 c => exact iff_of_true rfl (List.isChain_singleton c)
  | case3 c d t h ih =>
    rw [Unsplit, List.isChain_cons_cons]
    refine iff_of_false (fun heq => ?_) fun hchain => hchain.1 h
    rw [Bool.and_eq_true] at h
    rw [joined_pair h.1 h.2, List.cons.injEq] at heq
    have hhigh := isHigh_pair h.1 h.2
    rw [heq.1, h.1] at hhigh
    cases hhigh
  | case4 c d t h ih =>
    rw [joined, if_neg h, List.cons.injEq, and_iff_right rfl, ih, Unsplit, Unsplit,
      List.isChain_cons_cons, and_iff_right h]

/-- What starts a joined text is a low half only if it did before. -/
theorem head_joined {t : Text} {c : CodePoint} (h : (joined t).head? = some c) (hc : c.isLow = true) :
    t.head? = some c := by
  match t with
  | [] => cases h
  | [_] => exact h
  | a :: b :: t =>
    by_cases hab : a.isHigh && b.isLow
    · rw [joined, if_pos hab, List.head?_cons, Option.some.injEq] at h
      rw [Bool.and_eq_true] at hab
      rw [← h, isLow_pair hab.1 hab.2] at hc
      cases hc
    · rw [joined, if_neg hab] at h
      exact h

/-- There is nothing left to join. -/
theorem joined_joined (t : Text) : joined (joined t) = joined t := by
  induction t using joined.induct with
  | case1 => rfl
  | case2 => rfl
  | case3 c d t h ih =>
    rw [Bool.and_eq_true] at h
    rw [joined_pair h.1 h.2, joined_cons_of_not_isHigh (isHigh_pair h.1 h.2), ih]
  | case4 c d t h ih =>
    rw [joined, if_neg h]
    cases ht : joined (d :: t) with
    | nil => rfl
    | cons e u =>
      rw [ht] at ih
      have hnot : ¬(c.isHigh && e.isLow) := by
        intro hce
        rw [Bool.and_eq_true] at hce
        have hhead := head_joined (t := d :: t) (c := e) (by rw [ht]; rfl) hce.2
        rw [List.head?_cons, Option.some.injEq] at hhead
        rw [hhead, hce.1, hce.2] at h
        exact h rfl
      rw [joined, if_neg hnot, ih]

end Text
end ManifestGraph
