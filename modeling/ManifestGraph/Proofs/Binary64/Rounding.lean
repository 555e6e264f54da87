/-
  Rounding depends on the value alone. `ofRat` rounds a nonnegative rational to the nearest
  floating-point number, and both a quotient (`ofRatio_eq`) and a decimal numeral (`ofDecimal_eq`) are
  rounded as their values are. What comes out is `Canonical`, and canonical numbers are rounded to
  themselves (`ofRat_of_canonical`).
-/
import ManifestGraph.Binary64
import Mathlib.Algebra.Order.Floor.Semifield
import Mathlib.Algebra.Order.Round
import Mathlib.Data.Int.Log
import Mathlib.Tactic

namespace ManifestGraph.Binary64

/-! ## Rounding to an integer -/

/-- The nearest integer to a nonnegative rational, of two the even one. -/
def roundEven (x : ℚ) : Nat :=
  if Int.fract x < 1 / 2 ∨ (Int.fract x = 1 / 2 ∧ ⌊x⌋₊ % 2 = 0) then ⌊x⌋₊ else ⌊x⌋₊ + 1

theorem roundDiv_eq {n d : Nat} (hd : 0 < d) : roundDiv n d = roundEven (n / d) := by
  have hfract : Int.fract ((n : ℚ) / d) = (n % d : Nat) / d :=
    Int.fract_div_natCast_eq_div_natCast_mod
  have hpos : (0 : ℚ) < d := by exact_mod_cast hd
  have hlt : (2 * (n % d) < d) ↔ ((n % d : Nat) : ℚ) / d < 1 / 2 := by
    rw [div_lt_div_iff₀ hpos (by norm_num), one_mul, mul_comm]
    exact_mod_cast Iff.rfl
  have heq : (2 * (n % d) = d) ↔ ((n % d : Nat) : ℚ) / d = 1 / 2 := by
    rw [div_eq_div_iff hpos.ne' (by norm_num), one_mul, mul_comm]
    exact_mod_cast Iff.rfl
  rw [roundEven, hfract, Nat.floor_div_eq_div, roundDiv]
  simp only [Bool.or_eq_true, Bool.and_eq_true, decide_eq_true_eq, beq_iff_eq, hlt, heq]

theorem roundEven_natCast (n : Nat) : roundEven n = n := by
  rw [roundEven, Int.fract_natCast, Nat.floor_natCast, if_pos (Or.inl (by norm_num))]

/-- Rounding does not cross an integer. -/
theorem le_roundEven {x : ℚ} {n : Nat} (h : (n : ℚ) ≤ x) : n ≤ roundEven x := by
  have hfloor : n ≤ ⌊x⌋₊ := Nat.le_floor h
  unfold roundEven
  split <;> omega

theorem roundEven_le {x : ℚ} {n : Nat} (h0 : 0 ≤ x) (h : x < n) : roundEven x ≤ n := by
  have hfloor : ⌊x⌋₊ < n := (Nat.floor_lt h0).mpr h
  unfold roundEven
  split <;> omega

theorem roundEven_of_lt_half {x : ℚ} (h0 : 0 ≤ x) (h : x < 1 / 2) : roundEven x = 0 := by
  have hfract : Int.fract x = x := Int.fract_eq_self.mpr ⟨h0, h.trans (by norm_num)⟩
  rw [roundEven, hfract, if_pos (Or.inl h), Nat.floor_eq_zero]
  exact h.trans (by norm_num)

/-! ## The exponent -/

/-- The exponent that gives a mantissa of 53 bits, but not below the least one. -/
def exponentOf (x : ℚ) : Int := max (Int.log 2 x - 52) minExponent

theorem snd_scaled_pos {base n d : Nat} {e : Int} (hbase : 0 < base) (hd : 0 < d) :
    0 < (scaled base n d e).2 := by
  unfold scaled
  split
  · exact hd
  · exact Nat.mul_pos hd (Nat.pow_pos hbase)

theorem scaled_div {base n d : Nat} {e : Int} (hbase : 0 < base) :
    ((scaled base n d e).1 : ℚ) / (scaled base n d e).2 = n / d / (base : ℚ) ^ e := by
  have hb : (base : ℚ) ≠ 0 := by exact_mod_cast hbase.ne'
  unfold scaled
  split
  next h =>
    obtain ⟨k, hk⟩ := Int.eq_ofNat_of_zero_le (show 0 ≤ -e by omega)
    rw [show e = -(k : Int) by omega, neg_neg, Int.toNat_natCast, zpow_neg, zpow_natCast,
      Nat.cast_mul, Nat.pow_eq, Nat.cast_pow]
    rw [div_inv_eq_mul]
    ring
  next h =>
    obtain ⟨k, rfl⟩ := Int.eq_ofNat_of_zero_le (show 0 ≤ e by omega)
    rw [Int.toNat_natCast, zpow_natCast, Nat.cast_mul, Nat.pow_eq, Nat.cast_pow, div_div]

theorem le_log_iff {x : ℚ} (hx : 0 < x) (e : Int) : e ≤ Int.log 2 x ↔ (2 : ℚ) ^ e ≤ x := by
  have h := Int.zpow_le_iff_le_log (R := ℚ) (b := 2) (by norm_num) (x := e) hx
  simpa using h.symm

theorem log_lt_iff {x : ℚ} (hx : 0 < x) (e : Int) : Int.log 2 x < e ↔ x < (2 : ℚ) ^ e := by
  have h := Int.lt_zpow_iff_log_lt (R := ℚ) (b := 2) (by norm_num) (x := e) hx
  simpa using h.symm

/-- The binary logarithm of a quotient is that of its parts, or one less. -/
theorem log_div_bounds {n d : Nat} (hn : n ≠ 0) (hd : d ≠ 0) :
    (Nat.log2 n : Int) - Nat.log2 d - 1 ≤ Int.log 2 ((n : ℚ) / d) ∧
      Int.log 2 ((n : ℚ) / d) < (Nat.log2 n : Int) - Nat.log2 d + 1 := by
  have hn0 : (0 : ℚ) < n := by exact_mod_cast Nat.pos_of_ne_zero hn
  have hd0 : (0 : ℚ) < d := by exact_mod_cast Nat.pos_of_ne_zero hd
  have hn1 : (2 : ℚ) ^ Nat.log2 n ≤ n := by exact_mod_cast Nat.log2_self_le hn
  have hn2 : (n : ℚ) < 2 ^ (Nat.log2 n + 1) := by exact_mod_cast Nat.lt_log2_self
  have hd1 : (2 : ℚ) ^ Nat.log2 d ≤ d := by exact_mod_cast Nat.log2_self_le hd
  have hd2 : (d : ℚ) < 2 ^ (Nat.log2 d + 1) := by exact_mod_cast Nat.lt_log2_self
  have hsplit : ∀ a b : Nat, (2 : ℚ) ^ ((a : Int) - b) = 2 ^ a / 2 ^ b := fun a b => by
    rw [zpow_sub₀ (by norm_num), zpow_natCast, zpow_natCast]
  constructor
  · rw [le_log_iff (div_pos hn0 hd0),
      show (Nat.log2 n : Int) - Nat.log2 d - 1 = (Nat.log2 n : Int) - (Nat.log2 d + 1 : Nat) by
        push_cast; ring, hsplit]
    exact div_le_div₀ hn0.le hn1 hd0 hd2.le
  · rw [log_lt_iff (div_pos hn0 hd0),
      show (Nat.log2 n : Int) - Nat.log2 d + 1 = (Nat.log2 n + 1 : Nat) - (Nat.log2 d : Int) by
        push_cast; ring, hsplit]
    exact div_lt_div₀ hn2 hd1 (by positivity) (by positivity)

theorem exponentFor_eq {n d : Nat} (hn : n ≠ 0) (hd : d ≠ 0) :
    exponentFor n d = exponentOf (n / d) := by
  obtain ⟨hlow, hhigh⟩ := log_div_bounds hn hd
  have hq : (0 : ℚ) < (n : ℚ) / d := by
    have := Nat.pos_of_ne_zero hn
    have := Nat.pos_of_ne_zero hd
    positivity
  -- the mantissa falls short of 53 bits if the estimate is one too high
  have hshort : ∀ L : Int, (scaled 2 n d (L - 52)).1 < (scaled 2 n d (L - 52)).2 * leastFull ↔
      Int.log 2 ((n : ℚ) / d) < L := by
    intro L
    have hpos : (0 : ℚ) < (scaled 2 n d (L - 52)).2 := by
      exact_mod_cast snd_scaled_pos (by decide) (Nat.pos_of_ne_zero hd)
    have hpow : (2 : ℚ) ^ (L - 52) * leastFull = 2 ^ L := by
      rw [zpow_sub₀ (by norm_num)]
      norm_num [leastFull]
    have hcast : (scaled 2 n d (L - 52)).1 < (scaled 2 n d (L - 52)).2 * leastFull ↔
        ((scaled 2 n d (L - 52)).1 : ℚ) < leastFull * (scaled 2 n d (L - 52)).2 := by
      rw [mul_comm (leastFull : ℚ)]
      exact_mod_cast Iff.rfl
    have hdiv := scaled_div (n := n) (d := d) (e := L - 52) (show 0 < 2 by decide)
    rw [log_lt_iff hq, hcast, ← div_lt_iff₀ hpos, hdiv, div_lt_iff₀ (by positivity), Nat.cast_ofNat,
      mul_comm, hpow]
  have hif : (if (scaled 2 n d ((Nat.log2 n : Int) - Nat.log2 d - 52)).1 <
      (scaled 2 n d ((Nat.log2 n : Int) - Nat.log2 d - 52)).2 * leastFull
      then (Nat.log2 n : Int) - Nat.log2 d - 52 - 1 else (Nat.log2 n : Int) - Nat.log2 d - 52) =
      Int.log 2 ((n : ℚ) / d) - 52 := by
    rw [if_congr (hshort _) rfl rfl]
    split <;> omega
  rw [exponentOf, ← hif]
  rfl

/-! ## Rounding to a floating-point number -/

/-- A nonnegative rational rounded to a floating-point number, with a sign put on. -/
def ofRat (negative : Bool) (x : ℚ) : Binary64 :=
  if x = 0 then zero negative
  else ofParts negative (roundEven (x / 2 ^ exponentOf x)) (exponentOf x)

-- the exponent is a variable here, for with its definition in sight the kernel would compute it
theorem ofRatio_of_exponentFor {negative : Bool} {n d : Nat} {e : Int} (he : exponentFor n d = e)
    (hn : n ≠ 0) : ofRatio negative n d =
      ofParts negative (roundDiv (scaled 2 n d e).1 (scaled 2 n d e).2) e := by
  unfold ofRatio
  rw [if_neg hn, he]

theorem ofRatio_eq {negative : Bool} {n d : Nat} (hd : 0 < d) :
    ofRatio negative n d = ofRat negative (n / d) := by
  by_cases hn : n = 0
  · rw [hn, ofRatio, if_pos rfl, Nat.cast_zero, zero_div, ofRat, if_pos rfl]
  · have hn0 : (n : ℚ) ≠ 0 := by exact_mod_cast hn
    have hd0 : (d : ℚ) ≠ 0 := by exact_mod_cast hd.ne'
    rw [ofRatio_of_exponentFor (exponentFor_eq hn hd.ne') hn, roundDiv_eq (snd_scaled_pos (by decide) hd),
      scaled_div (by decide), Nat.cast_ofNat, ofRat, if_neg (div_ne_zero hn0 hd0)]

/-! ## Values far out of range -/

theorem ofParts_of_large {negative : Bool} {m : Nat} {e : Int} (h : maxExponent < e) :
    ofParts negative m e = .infinite negative := by
  unfold ofParts
  split
  next hm =>
    split at hm
    · rw [← (Prod.mk.inj hm).2, if_pos (by omega)]
    · rw [← (Prod.mk.inj hm).2, if_pos h]

theorem ofRat_of_large {negative : Bool} {x : ℚ} (h : (2 : ℚ) ^ (1024 : Int) ≤ x) :
    ofRat negative x = .infinite negative := by
  have hx : 0 < x := lt_of_lt_of_le (by positivity) h
  have hlog := (le_log_iff hx 1024).mpr h
  have he : maxExponent < exponentOf x := by
    unfold exponentOf maxExponent
    omega
  rw [ofRat, if_neg hx.ne', ofParts_of_large he]

theorem ofRat_of_small {negative : Bool} {x : ℚ} (hx : 0 < x) (h : x < (2 : ℚ) ^ (-1075 : Int)) :
    ofRat negative x = zero negative := by
  have hlog := (log_lt_iff hx (-1075)).mpr h
  have he : exponentOf x = minExponent := by
    unfold exponentOf minExponent
    omega
  have hhalf : x / 2 ^ minExponent < 1 / 2 := by
    rw [div_lt_iff₀ (by positivity)]
    have hpow : (1 / 2 : ℚ) * 2 ^ minExponent = 2 ^ (-1075 : Int) := by
      rw [minExponent, show (-1075 : Int) = -1074 - 1 by norm_num, zpow_sub_one₀ (by norm_num)]
      ring
    rwa [hpow]
  rw [ofRat, if_neg hx.ne', he, roundEven_of_lt_half (by positivity) hhalf]
  rfl

/-! ## Decimal numerals -/

theorem ten_pow_lowerPlace_le {n : Nat} (hn : n ≠ 0) : 10 ^ lowerPlace n ≤ n := by
  refine le_trans ?_ (Nat.log2_self_le hn)
  have hplace : lowerPlace n * 10 ≤ 3 * Nat.log2 n := by unfold lowerPlace; omega
  refine (Nat.pow_le_pow_iff_left (n := 10) (by decide)).mp ?_
  calc (10 ^ lowerPlace n) ^ 10 = 10 ^ (lowerPlace n * 10) := by rw [← pow_mul]
    _ ≤ 10 ^ (3 * Nat.log2 n) := Nat.pow_le_pow_right (by decide) hplace
    _ = (10 ^ 3) ^ Nat.log2 n := by rw [pow_mul]
    _ ≤ (2 ^ 10) ^ Nat.log2 n := Nat.pow_le_pow_left (by decide) _
    _ = (2 ^ Nat.log2 n) ^ 10 := by rw [← pow_mul, ← pow_mul, mul_comm]

theorem lt_ten_pow_upperPlace (n : Nat) : n < 10 ^ upperPlace n := by
  calc n < 2 ^ (Nat.log2 n + 1) := Nat.lt_log2_self
    _ ≤ 2 ^ (3 * upperPlace n) := Nat.pow_le_pow_right (by decide) (by unfold upperPlace; omega)
    _ = (2 ^ 3) ^ upperPlace n := by rw [pow_mul]
    _ ≤ 10 ^ upperPlace n := Nat.pow_le_pow_left (by decide) _

/-- A decimal numeral is rounded as its value is; the shortcuts only save work. -/
theorem ofDecimal_eq (negative : Bool) (digits : Nat) (e : Int) :
    ofDecimal negative digits e = ofRat negative (digits * 10 ^ e) := by
  unfold ofDecimal
  by_cases h0 : digits = 0
  · rw [if_pos h0, h0, Nat.cast_zero, zero_mul, ofRat, if_pos rfl]
  rw [if_neg h0]
  have hd : (0 : ℚ) < digits := by exact_mod_cast Nat.pos_of_ne_zero h0
  have hx : (0 : ℚ) < digits * 10 ^ e := by positivity
  by_cases hlarge : (310 : Int) < lowerPlace digits + e
  · rw [if_pos hlarge, ofRat_of_large]
    have hlow : (10 : ℚ) ^ lowerPlace digits ≤ digits := by exact_mod_cast ten_pow_lowerPlace_le h0
    have hpow : (2 : Nat) ^ 1024 ≤ 10 ^ 311 := by decide +kernel
    calc (2 : ℚ) ^ (1024 : Int) ≤ 10 ^ (311 : Int) := by exact_mod_cast hpow
      _ ≤ 10 ^ ((lowerPlace digits : Int) + e) := zpow_le_zpow_right₀ (by norm_num) (by omega)
      _ = 10 ^ lowerPlace digits * 10 ^ e := by rw [zpow_add₀ (by norm_num), zpow_natCast]
      _ ≤ digits * 10 ^ e := by gcongr
  rw [if_neg hlarge]
  by_cases hsmall : upperPlace digits + e < (-400 : Int)
  · rw [if_pos hsmall, ofRat_of_small hx]
    have hup : (digits : ℚ) < 10 ^ upperPlace digits := by exact_mod_cast lt_ten_pow_upperPlace digits
    have hpow : (2 : Nat) ^ 1075 ≤ 10 ^ 400 := by decide +kernel
    calc digits * (10 : ℚ) ^ e < 10 ^ upperPlace digits * 10 ^ e := by gcongr
      _ = 10 ^ ((upperPlace digits : Int) + e) := by rw [zpow_add₀ (by norm_num), zpow_natCast]
      _ ≤ 10 ^ (-400 : Int) := zpow_le_zpow_right₀ (by norm_num) (by omega)
      _ ≤ 2 ^ (-1075 : Int) := by
        rw [zpow_neg, zpow_neg]
        exact inv_anti₀ (by positivity) (by exact_mod_cast hpow)
  · rw [if_neg hsmall]
    have hdiv := scaled_div (n := digits) (d := 1) (e := -e) (show 0 < 10 by decide)
    rw [Nat.cast_one, div_one, zpow_neg, div_inv_eq_mul, Nat.cast_ofNat] at hdiv
    rw [← hdiv]
    exact ofRatio_eq (snd_scaled_pos (by decide) (by decide))

/-! ## Canonical numbers -/

/-- The form of the numbers that rounding gives: a full mantissa, or the least exponent. -/
def Canonical : Binary64 → Prop
  | .finite _ m e => m < 2 * leastFull ∧ (leastFull ≤ m ∨ e = minExponent) ∧
      minExponent ≤ e ∧ e ≤ maxExponent
  | _ => True

theorem ofParts_of_le {negative : Bool} {m : Nat} {e : Int} (hm : m < 2 * leastFull)
    (he : e ≤ maxExponent) : ofParts negative m e = .finite negative m e := by
  unfold ofParts
  rw [if_neg (by omega)]
  dsimp only
  rw [if_neg (by omega)]

theorem canonical_ofParts {negative : Bool} {m : Nat} {e : Int} (hm : m ≤ 2 * leastFull)
    (hfull : leastFull ≤ m ∨ e = minExponent) (he : minExponent ≤ e) :
    (ofParts negative m e).Canonical := by
  by_cases hlarge : maxExponent < e
  · rw [ofParts_of_large hlarge]; trivial
  by_cases hcarry : m = 2 * leastFull
  · unfold ofParts
    rw [if_pos hcarry]
    dsimp only
    split
    · trivial
    · refine ⟨?_, Or.inl (Nat.le_refl _), ?_, ?_⟩ <;> unfold leastFull at * <;> omega
  · rw [ofParts_of_le (by omega) (by omega)]
    exact ⟨by omega, hfull, he, by omega⟩

/-- The mantissa that a value is rounded to has 53 bits at most. -/
theorem div_exponentOf_lt {x : ℚ} (hx : 0 < x) : x / 2 ^ exponentOf x < (2 * leastFull : Nat) := by
  rw [div_lt_iff₀ (by positivity)]
  have hlog := (log_lt_iff hx (Int.log 2 x + 1)).mp (by omega)
  have hle : Int.log 2 x + 1 ≤ 53 + exponentOf x := by unfold exponentOf; omega
  calc x < 2 ^ (Int.log 2 x + 1) := hlog
    _ ≤ 2 ^ (53 + exponentOf x) := zpow_le_zpow_right₀ (by norm_num) hle
    _ = (2 * leastFull : Nat) * 2 ^ exponentOf x := by
      rw [zpow_add₀ (by norm_num)]
      norm_num [leastFull]

/-- Above the least exponent the mantissa is full. -/
theorem leastFull_le_div {x : ℚ} (hx : 0 < x) (he : exponentOf x ≠ minExponent) :
    (leastFull : ℚ) ≤ x / 2 ^ exponentOf x := by
  rw [le_div_iff₀ (by positivity)]
  have hexp : Int.log 2 x = 52 + exponentOf x := by
    unfold exponentOf at he ⊢
    omega
  have hlog := (le_log_iff hx (Int.log 2 x)).mp (le_refl _)
  calc (leastFull : ℚ) * 2 ^ exponentOf x = 2 ^ (52 + exponentOf x) := by
        rw [zpow_add₀ (by norm_num)]
        norm_num [leastFull]
    _ ≤ x := by rw [← hexp]; exact hlog

theorem canonical_ofRat {negative : Bool} {x : ℚ} (h : 0 ≤ x) : (ofRat negative x).Canonical := by
  unfold ofRat
  split
  next => exact ⟨by decide, Or.inr rfl, le_refl _, by decide⟩
  next hx0 =>
    have hx : 0 < x := lt_of_le_of_ne h (Ne.symm hx0)
    refine canonical_ofParts ?_ ?_ (le_max_right _ _)
    · exact roundEven_le (by positivity) (div_exponentOf_lt hx)
    · by_cases he : exponentOf x = minExponent
      · exact Or.inr he
      · exact Or.inl (le_roundEven (leastFull_le_div hx he))

theorem exponentOf_of_canonical {negative : Bool} {m : Nat} {e : Int} (hm : m ≠ 0)
    (h : (finite negative m e).Canonical) : exponentOf (m * 2 ^ e) = e := by
  obtain ⟨hlt, hfull, hmin, hmax⟩ := h
  have hm0 : (0 : ℚ) < m := by exact_mod_cast Nat.pos_of_ne_zero hm
  have hx : (0 : ℚ) < m * 2 ^ e := by positivity
  have hlog : Int.log 2 ((m : ℚ) * 2 ^ e) < 53 + e := by
    rw [log_lt_iff hx, zpow_add₀ (by norm_num)]
    have : (m : ℚ) < 2 ^ (53 : Int) := by
      have : m < 2 ^ 53 := hlt
      exact_mod_cast this
    gcongr
  unfold exponentOf
  rcases hfull with hfull | rfl
  · have hlow : 52 + e ≤ Int.log 2 ((m : ℚ) * 2 ^ e) := by
      rw [le_log_iff hx, zpow_add₀ (by norm_num)]
      have : (2 : ℚ) ^ (52 : Int) ≤ m := by
        have : 2 ^ 52 ≤ m := hfull
        exact_mod_cast this
      gcongr
    omega
  · omega

/-- A number in canonical form is the one nearest to its value. -/
theorem ofRat_of_canonical {negative : Bool} {m : Nat} {e : Int}
    (h : (finite negative m e).Canonical) : ofRat negative (m * 2 ^ e) = finite negative m e := by
  by_cases hm : m = 0
  · rw [hm] at h ⊢
    rw [Nat.cast_zero, zero_mul, ofRat, if_pos rfl, zero]
    rcases h.2.1 with hfull | he
    · exact absurd hfull (by decide)
    · rw [he]
  · have hm0 : (m : ℚ) ≠ 0 := by exact_mod_cast hm
    have hpow : (2 : ℚ) ^ e ≠ 0 := by positivity
    rw [ofRat, if_neg (mul_ne_zero hm0 hpow), exponentOf_of_canonical hm h,
      mul_div_assoc, div_self hpow, mul_one, roundEven_natCast, ofParts_of_le h.1 h.2.2.2]

theorem canonical_ofDecimal (negative : Bool) (digits : Nat) (e : Int) :
    (ofDecimal negative digits e).Canonical := by
  rw [ofDecimal_eq]
  exact canonical_ofRat (by positivity)

/-- The integer part of a number in canonical form has at most 1024 digits. -/
theorem natAbs_truncate_lt {negative : Bool} {m k : Nat} {e : Int}
    (h : (finite negative m e).Canonical) (hk : 1024 ≤ k) : (truncate negative m e).natAbs < 10 ^ k := by
  obtain ⟨p, hp⟩ : ∃ p : Nat, p = maxExponent := ⟨971, rfl⟩
  have hscaled : (magnitude m e).1 / (magnitude m e).2 ≤ m * 2 ^ p := by
    have hmax := h.2.2.2
    unfold magnitude scaled
    split
    next =>
      rw [Nat.div_one, Int.neg_neg]
      exact Nat.mul_le_mul_left m (Nat.pow_le_pow_right (by decide) (by omega))
    next =>
      exact (Nat.div_le_self _ _).trans (Nat.le_mul_of_pos_right m (Nat.pow_pos (by decide)))
  have habs : (truncate negative m e).natAbs = (magnitude m e).1 / (magnitude m e).2 := by
    unfold truncate
    dsimp only
    split
    next => rw [Int.natAbs_neg, Int.natAbs_natCast]
    next => rw [Int.natAbs_natCast]
  have hm : m < 2 ^ 53 := h.1
  have hexp : 53 + p ≤ k := by unfold maxExponent at hp; omega
  rw [habs]
  calc (magnitude m e).1 / (magnitude m e).2 ≤ m * 2 ^ p := hscaled
    _ < 2 ^ 53 * 2 ^ p := Nat.mul_lt_mul_of_pos_right hm (Nat.pow_pos (by decide))
    _ = 2 ^ (53 + p) := by rw [← pow_add]
    _ ≤ 10 ^ (53 + p) := Nat.pow_le_pow_left (by decide) _
    _ ≤ 10 ^ k := Nat.pow_le_pow_right (by decide) hexp

end ManifestGraph.Binary64
