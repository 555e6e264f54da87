/-
  The numeral of a floating-point number reads back as that number (`ofRat_shortest`), with either
  sign and with its trailing zeros moved into the exponent.
-/
import ManifestGraph.Binary64.Shortest
import ManifestGraph.Proofs.Binary64.Rounding

namespace ManifestGraph.Binary64

/-- The value of a numeral. -/
def Numeral.value (x : Numeral) : ℚ := x.digits * 10 ^ x.exponent

theorem value_normal (fuel : Nat) (x : Numeral) : (x.normal fuel).value = x.value := by
  induction fuel generalizing x with
  | zero => rfl
  | succ fuel ih =>
    rw [Numeral.normal]
    split
    next h =>
      have hdigits : x.digits = 10 * (x.digits / 10) := by omega
      have hcast : (x.digits : ℚ) = 10 * (x.digits / 10 : Nat) := by exact_mod_cast hdigits
      rw [ih, Numeral.value, Numeral.value, hcast, zpow_add_one₀ (by norm_num)]
      ring
    next => rfl

theorem digits_normal_ne_zero (fuel : Nat) {x : Numeral} (h : x.digits ≠ 0) :
    (x.normal fuel).digits ≠ 0 := by
  induction fuel generalizing x with
  | zero => exact h
  | succ fuel ih =>
    rw [Numeral.normal]
    split
    next hmod => exact ih (show x.digits / 10 ≠ 0 by omega)
    next => exact h

/-- What is found on a grid reads back. -/
theorem ofDecimal_of_onGrid {x : Binary64} {n d : Nat} {e : Int} {y : Numeral}
    (h : onGrid x n d e = some y) : ofDecimal false y.digits y.exponent = x := by
  unfold onGrid at h
  dsimp only at h
  split at h
  next hlow =>
    split at h
    next hboth =>
      rw [← Option.some.inj h]
      simpa using (Bool.and_eq_true_iff.mp hboth).1
    next =>
      rw [← Option.some.inj h]
      simpa using hlow
  next =>
    split at h
    next hhigh =>
      rw [← Option.some.inj h]
      simpa using hhigh
    next => cases h

theorem value_exactNumeral (m : Nat) (e : Int) : (exactNumeral m e).value = m * 2 ^ e := by
  unfold exactNumeral
  split
  next h =>
    obtain ⟨k, hk⟩ := Int.eq_ofNat_of_zero_le (show 0 ≤ -e by omega)
    obtain rfl : e = -(k : Int) := by omega
    rw [Numeral.value, neg_neg, Int.toNat_natCast, Nat.pow_eq, Nat.cast_mul, Nat.cast_pow, zpow_neg,
      zpow_neg, zpow_natCast, zpow_natCast, show (10 : ℚ) = 5 * 2 by norm_num, mul_pow]
    field_simp
    norm_num
  next h =>
    obtain ⟨k, rfl⟩ := Int.eq_ofNat_of_zero_le (show 0 ≤ e by omega)
    rw [Numeral.value, Int.toNat_natCast, Nat.pow_eq, Nat.cast_mul, Nat.cast_pow, zpow_natCast,
      zpow_zero, mul_one, Nat.cast_ofNat]

/-- The shortest numeral reads back. -/
theorem ofRat_shortest {m : Nat} {e : Int} (h : (finite false m e).Canonical) :
    ofRat false (shortest m e).value = finite false m e := by
  unfold shortest
  dsimp only
  cases hfound : (List.range 17).findSome? fun count =>
      onGrid (finite false m e) (magnitude m e).1 (magnitude m e).2
        (pointPlace (magnitude m e).1 (magnitude m e).2 - (count + 1 : Nat)) with
  | none =>
    rw [Option.getD_none, value_exactNumeral]
    exact ofRat_of_canonical h
  | some y =>
    obtain ⟨count, _, hgrid⟩ := List.exists_of_findSome?_eq_some hfound
    rw [Option.getD_some, Numeral.value, ← ofDecimal_eq]
    exact ofDecimal_of_onGrid hgrid

theorem shortest_digits_ne_zero {m : Nat} {e : Int} (h : (finite false m e).Canonical) (hm : m ≠ 0) :
    (shortest m e).digits ≠ 0 := by
  intro hzero
  have hread := ofRat_shortest h
  rw [Numeral.value, hzero, Nat.cast_zero, zero_mul, ofRat, if_pos rfl, zero] at hread
  injection hread with _ hm0 _
  exact hm hm0.symm

theorem ofParts_sign {n m : Nat} {k e : Int} (h : ofParts false n k = finite false m e)
    (negative : Bool) : ofParts negative n k = finite negative m e := by
  unfold ofParts at h ⊢
  generalize (if n = 2 * leastFull then (leastFull, k + 1) else (n, k)) = p at h ⊢
  dsimp only at h ⊢
  split at h
  next => cases h
  next hle =>
    rw [if_neg hle]
    injection h with _ hm he
    rw [hm, he]

/-- The sign is only put on. -/
theorem ofRat_sign {x : ℚ} {m : Nat} {e : Int} (h : ofRat false x = finite false m e)
    (negative : Bool) : ofRat negative x = finite negative m e := by
  unfold ofRat at h ⊢
  split at h
  next hx =>
    rw [if_pos hx]
    injection h with _ hm he
    rw [zero, hm, he]
  next hx =>
    rw [if_neg hx]
    exact ofParts_sign h negative

end ManifestGraph.Binary64
