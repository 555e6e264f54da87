/-
  UTF-8 round trips. What is written is read back (`decode_encode`, `decodeHalves_encode`), a text that
  reads back strictly has no lone halves (`isScalar_of_decode_encode`), and what can be read strictly is
  read the same when lone halves are let through (`decodeHalves_of_decode`).
-/
import ManifestGraph.Bytes.Encoding
import ManifestGraph.Proofs.Text.Halves

namespace ManifestGraph.Utf8

variable {halves : Bool} {a b c d : UInt8} {bs : Bytes} {t : Text} {n : Nat}

/-! ## One code point -/

theorem toNat_toUInt8 (h : n < 256) : n.toUInt8.toNat = n := by
  rw [Nat.toUInt8, UInt8.toNat_ofNat']
  exact Nat.mod_eq_of_lt h

theorem isTail_iff : isTail b = true ↔ 0x80 ≤ b.toNat ∧ b.toNat ≤ 0xBF := by
  simp [isTail, UInt8.le_iff_toNat_le]

theorem isTail_toUInt8 (h : n < 64) : isTail (0x80 + n).toUInt8 = true := by
  have hnat := toNat_toUInt8 (n := 0x80 + n) (by omega)
  exact isTail_iff.mpr (by omega)

theorem tailBits_toUInt8 (h : n < 64) : tailBits (0x80 + n).toUInt8 = n := by
  have hnat := toNat_toUInt8 (n := 0x80 + n) (by omega)
  unfold tailBits
  omega

theorem units_one (ha : a.toNat < 0x80) : units halves (a :: bs) = point a.toNat 1 :: units halves bs := by
  rw [units.eq_def]
  dsimp only
  rw [if_pos (UInt8.lt_iff_toNat_lt.mpr ha)]

theorem not_lt_of_le {x : UInt8} (h : x.toNat ≤ a.toNat) : ¬a < x := by
  rw [UInt8.lt_iff_toNat_lt]
  omega

theorem units_two (ha : 0xC2 ≤ a.toNat) (ha' : a.toNat < 0xE0) (hb : isTail b = true) :
    units halves (a :: b :: bs) = point ((a.toNat - 0xC0) * 64 + tailBits b) 2 :: units halves bs := by
  rw [units.eq_def]
  dsimp only
  rw [if_neg (not_lt_of_le (by simp; omega)), if_neg (not_lt_of_le (by simp; omega)),
    if_pos (UInt8.lt_iff_toNat_lt.mpr (by simpa using ha')), if_pos hb]

theorem units_three (ha : 0xE0 ≤ a.toNat) (ha' : a.toNat < 0xF0) (hb : secondOfThree halves a b = true)
    (hc : isTail c = true) :
    units halves (a :: b :: c :: bs) =
      point ((a.toNat - 0xE0) * 4096 + tailBits b * 64 + tailBits c) 3 :: units halves bs := by
  rw [units.eq_def]
  dsimp only
  rw [if_neg (not_lt_of_le (by simp; omega)), if_neg (not_lt_of_le (by simp; omega)),
    if_neg (not_lt_of_le (by simpa using ha)), if_pos (UInt8.lt_iff_toNat_lt.mpr (by simpa using ha')),
    if_pos hb, if_pos hc]

theorem units_four (ha : 0xF0 ≤ a.toNat) (ha' : a.toNat < 0xF5) (hb : secondOfFour a b = true)
    (hc : isTail c = true) (hd : isTail d = true) :
    units halves (a :: b :: c :: d :: bs) =
      point ((a.toNat - 0xF0) * 262144 + tailBits b * 4096 + tailBits c * 64 + tailBits d) 4 ::
        units halves bs := by
  rw [units.eq_def]
  dsimp only
  rw [if_neg (not_lt_of_le (by simp; omega)), if_neg (not_lt_of_le (by simp; omega)),
    if_neg (not_lt_of_le (by simp; omega)), if_neg (not_lt_of_le (by simpa using ha)),
    if_pos (UInt8.lt_iff_toNat_lt.mpr (by simpa using ha')), if_pos hb, if_pos hc, if_pos hd]

theorem point_toNat (p : CodePoint) {size : Nat} (h : n = p.toNat) : point n size = .point p size := by
  rw [point, h, CodePoint.ofNat?_toNat, Option.getD_some]

/-- How many bytes a code point takes. -/
def size (p : CodePoint) : Nat := (encodePoint p).length

theorem secondOfThree_toUInt8 {x y : Nat} (hx : x < 16) (hy : y < 64) (hlow : x = 0 → 32 ≤ y)
    (hhalves : halves = true ∨ x ≠ 13 ∨ y < 32) :
    secondOfThree halves (0xE0 + x).toUInt8 (0x80 + y).toUInt8 = true := by
  have hxn := toNat_toUInt8 (n := 0xE0 + x) (by omega)
  have hyn := toNat_toUInt8 (n := 0x80 + y) (by omega)
  unfold secondOfThree
  split
  next heq =>
    have h0 : (0xE0 + x).toUInt8.toNat = 0xE0 := by rw [heq]; rfl
    simp only [UInt8.le_iff_toNat_le, Bool.and_eq_true, decide_eq_true_eq]
    have := hlow (by omega)
    exact ⟨by simp; omega, by simp; omega⟩
  next =>
    split
    next heq =>
      rw [Bool.and_eq_true, decide_eq_true_eq, Bool.not_eq_true'] at heq
      have h13 : (0xE0 + x).toUInt8.toNat = 0xED := by rw [heq.1]; rfl
      have hy32 : y < 32 := by
        rcases hhalves with h | h | h
        · rw [heq.2] at h; cases h
        · omega
        · exact h
      simp only [UInt8.le_iff_toNat_le, Bool.and_eq_true, decide_eq_true_eq]
      exact ⟨by simp; omega, by simp; omega⟩
    next => exact isTail_toUInt8 hy

theorem secondOfFour_toUInt8 {x y : Nat} (hx : x ≤ 4) (hy : y < 64) (hlow : x = 0 → 16 ≤ y)
    (hhigh : x = 4 → y < 16) : secondOfFour (0xF0 + x).toUInt8 (0x80 + y).toUInt8 = true := by
  have hxn := toNat_toUInt8 (n := 0xF0 + x) (by omega)
  have hyn := toNat_toUInt8 (n := 0x80 + y) (by omega)
  unfold secondOfFour
  split
  next heq =>
    have h0 : (0xF0 + x).toUInt8.toNat = 0xF0 := by rw [heq]; rfl
    have := hlow (by omega)
    simp only [UInt8.le_iff_toNat_le, Bool.and_eq_true, decide_eq_true_eq]
    exact ⟨by simp; omega, by simp; omega⟩
  next =>
    split
    next heq =>
      have h4 : (0xF0 + x).toUInt8.toNat = 0xF4 := by rw [heq]; rfl
      have := hhigh (by omega)
      simp only [UInt8.le_iff_toNat_le, Bool.and_eq_true, decide_eq_true_eq]
      exact ⟨by simp; omega, by simp; omega⟩
    next => exact isTail_toUInt8 hy

/-- What one code point is written as is read as that code point. -/
theorem units_encodePoint {p : CodePoint} (h : halves = true ∨ p.char?.isSome = true) :
    units halves (encodePoint p ++ bs) = .point p (size p) :: units halves bs := by
  have hlt := p.toNat_lt
  have hhalf : halves = true ∨ ¬(0xD800 ≤ p.toNat ∧ p.toNat < 0xE000) := by
    refine h.imp_right fun hp hrange => ?_
    rw [CodePoint.half_of_toNat hrange] at hp
    cases hp
  unfold size encodePoint
  dsimp only
  split
  next h1 =>
    have hnat := toNat_toUInt8 (n := p.toNat) (by omega)
    rw [List.cons_append, List.nil_append, units_one (by omega), hnat, point_toNat p rfl]
    rfl
  next h1 =>
  split
  next h2 =>
    have hnat := toNat_toUInt8 (n := 0xC0 + p.toNat / 64) (by omega)
    have hmod : p.toNat % 64 < 64 := Nat.mod_lt _ (by decide)
    rw [List.cons_append, List.cons_append, List.nil_append,
      units_two (by omega) (by omega) (isTail_toUInt8 hmod), tailBits_toUInt8 hmod, hnat,
      point_toNat p (by omega)]
    rfl
  next h2 =>
  split
  next h3 =>
    have hnat := toNat_toUInt8 (n := 0xE0 + p.toNat / 4096) (by omega)
    have hmod : ∀ k, k % 64 < 64 := fun k => Nat.mod_lt k (by decide)
    have hsecond : secondOfThree halves (0xE0 + p.toNat / 4096).toUInt8
        (0x80 + p.toNat / 64 % 64).toUInt8 = true := by
      refine secondOfThree_toUInt8 (by omega) (hmod _) (by omega) ?_
      refine hhalf.imp_right fun hno => ?_
      omega
    rw [List.cons_append, List.cons_append, List.cons_append, List.nil_append,
      units_three (by omega) (by omega) hsecond (isTail_toUInt8 (hmod _)), tailBits_toUInt8 (hmod _),
      tailBits_toUInt8 (hmod _), hnat, point_toNat p (by omega)]
    rfl
  next h3 =>
    have hnat := toNat_toUInt8 (n := 0xF0 + p.toNat / 262144) (by omega)
    have hmod : ∀ k, k % 64 < 64 := fun k => Nat.mod_lt k (by decide)
    have hsecond : secondOfFour (0xF0 + p.toNat / 262144).toUInt8
        (0x80 + p.toNat / 4096 % 64).toUInt8 = true :=
      secondOfFour_toUInt8 (by omega) (hmod _) (by omega) (by omega)
    rw [List.cons_append, List.cons_append, List.cons_append, List.cons_append, List.nil_append,
      units_four (by omega) (by omega) hsecond (isTail_toUInt8 (hmod _)) (isTail_toUInt8 (hmod _)),
      tailBits_toUInt8 (hmod _), tailBits_toUInt8 (hmod _), tailBits_toUInt8 (hmod _), hnat,
      point_toNat p (by omega)]
    rfl

/-! ## Texts -/

theorem strict_encode {k : Nat} (h : halves = true ∨ t.isScalar = true) :
    strict k (units halves (encode t)) = .ok t := by
  induction t generalizing k with
  | nil => rfl
  | cons p t ih =>
    have hp : halves = true ∨ p.char?.isSome = true := by
      refine h.imp_right fun ht => ?_
      rw [Text.isScalar, List.all_cons, Bool.and_eq_true] at ht
      exact ht.1
    have ht : halves = true ∨ Text.isScalar t = true := by
      refine h.imp_right fun ht => ?_
      rw [Text.isScalar, List.all_cons, Bool.and_eq_true] at ht
      exact ht.2
    rw [encode, List.flatMap_cons, units_encodePoint hp, strict]
    show (strict _ (units halves (encode t))).map _ = _
    rw [ih ht]
    rfl

/-- A text without lone halves is read back. -/
theorem decode_encode (h : t.isScalar = true) : decode (encode t) = .ok t := strict_encode (Or.inr h)

/-- Where lone halves are let through, any text is read back. -/
theorem decodeHalves_encode (t : Text) : decodeHalves (encode t) = .ok t := strict_encode (Or.inl rfl)

theorem strict_point {k : Nat} {u : Unit} {us : List Unit} (h : strict k (u :: us) = .ok t) :
    ∃ c size t', u = .point c size ∧ strict (k + size) us = .ok t' ∧ t = c :: t' := by
  cases u with
  | malformed run reason => cases h
  | point c size =>
    rw [strict] at h
    cases hrest : strict (k + size) us with
    | error e => rw [hrest] at h; cases h
    | ok t' =>
      rw [hrest] at h
      cases h
      exact ⟨c, size, t', rfl, hrest, rfl⟩

/-- A lone half is malformed where none is let through. -/
theorem units_surrogate (bs : Bytes) {p : CodePoint} (h : p.char? = none) :
    ∃ run reason us, units false (encodePoint p ++ bs) = .malformed run reason :: us := by
  cases p with
  | scalar c => cases h
  | surrogate n =>
    have hlt := n.isLt
    have hfirst : (0xE0 + (0xD800 + n.val) / 4096).toUInt8 = 0xED := by
      rw [show 0xE0 + (0xD800 + n.val) / 4096 = 0xED by omega]
      rfl
    have hsecond := toNat_toUInt8 (n := 0x80 + (0xD800 + n.val) / 64 % 64) (by omega)
    unfold encodePoint
    rw [CodePoint.toNat_surrogate]
    dsimp only
    rw [if_neg (by omega), if_neg (by omega), if_pos (by omega), hfirst, List.cons_append,
      List.cons_append, units.eq_def]
    dsimp only
    rw [if_neg (by decide), if_neg (by decide), if_neg (by decide), if_pos (by decide), if_neg]
    · exact ⟨_, _, _, rfl⟩
    · intro hb
      rw [secondOfThree, if_neg (by decide), if_pos (by decide), Bool.and_eq_true, decide_eq_true_eq,
        decide_eq_true_eq, UInt8.le_iff_toNat_le, UInt8.le_iff_toNat_le, hsecond] at hb
      have hhigh : 0x80 + (0xD800 + n.val) / 64 % 64 ≤ 0x9F := hb.2
      omega

theorem isScalar_of_decode_encode {t' : Text} (h : decode (encode t) = .ok t') : t.isScalar = true := by
  have hstrict : ∀ (t t' : Text) (k : Nat), strict k (units false (encode t)) = .ok t' →
      t.isScalar = true := by
    intro t
    induction t with
    | nil => exact fun _ _ _ => rfl
    | cons p t ih =>
      intro t' k h
      rw [encode, List.flatMap_cons] at h
      cases hp : p.char? with
      | none =>
        obtain ⟨run, reason, us, hus⟩ := units_surrogate (t.flatMap encodePoint) hp
        rw [hus] at h
        cases h
      | some x =>
        rw [units_encodePoint (Or.inr (by rw [hp]; rfl))] at h
        obtain ⟨_, _, t'', _, hrest, _⟩ := strict_point h
        rw [Text.isScalar, List.all_cons, hp]
        exact ih t'' _ hrest
  exact hstrict t t' 0 h

theorem strict_cons_congr {us us' : List Unit} (u : Unit)
    (h : ∀ {t : Text} {k : Nat}, strict k us = .ok t → strict k us' = .ok t) {k : Nat}
    (hu : strict k (u :: us) = .ok t) : strict k (u :: us') = .ok t := by
  obtain ⟨c, size, t', rfl, hrest, rfl⟩ := strict_point hu
  rw [strict, h hrest]
  rfl

theorem secondOfThree_true (h : secondOfThree false a b = true) : secondOfThree true a b = true := by
  unfold secondOfThree at h ⊢
  split
  next heq => rwa [if_pos heq] at h
  next hne =>
    rw [if_neg hne] at h
    rw [Bool.not_true, Bool.and_false, if_neg (by decide)]
    split at h
    next =>
      rw [Bool.and_eq_true, decide_eq_true_eq, decide_eq_true_eq, UInt8.le_iff_toNat_le,
        UInt8.le_iff_toNat_le] at h
      have hhigh : b.toNat ≤ 0x9F := h.2
      exact isTail_iff.mpr ⟨h.1, by omega⟩
    next => exact h

/-- What is well-formed without lone halves is read the same where they are let through. -/
theorem strict_units_true {k : Nat} (h : strict k (units false bs) = .ok t) :
    strict k (units true bs) = .ok t := by
  have hle : ∀ {x y : UInt8}, ¬x < y → y.toNat ≤ x.toNat := by
    intro x y hxy
    rw [UInt8.lt_iff_toNat_lt] at hxy
    omega
  fun_induction units false bs generalizing k t with
  | case1 => exact h
  | case2 a bs ha ih =>
    rw [units_one (UInt8.lt_iff_toNat_lt.mp ha)]
    exact strict_cons_congr _ ih h
  | case5 a _ h2 ha b bs hb ih =>
    rw [units_two (hle h2) (UInt8.lt_iff_toNat_lt.mp ha) hb]
    exact strict_cons_congr _ ih h
  | case9 a _ _ h3 ha b hb c bs hc ih =>
    rw [units_three (hle h3) (UInt8.lt_iff_toNat_lt.mp ha) (secondOfThree_true hb) hc]
    exact strict_cons_congr _ ih h
  | case15 a _ _ _ h4 ha b hb c hc d bs hd ih =>
    rw [units_four (hle h4) (UInt8.lt_iff_toNat_lt.mp ha) hb hc hd]
    exact strict_cons_congr _ ih h
  | _ => cases h

theorem decodeHalves_of_decode (h : decode bs = .ok t) : decodeHalves bs = .ok t := strict_units_true h

end ManifestGraph.Utf8
