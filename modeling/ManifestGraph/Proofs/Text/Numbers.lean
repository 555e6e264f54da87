/-
  Code points and their numbers: `toNat` and `ofNat?` are inverse to each other (`ofNat?_toNat`,
  `toNat_of_ofNat?`), and the numbers end below `0x110000` (`toNat_lt`).
-/
import ManifestGraph.Text
import Mathlib.Data.Char

namespace ManifestGraph.CodePoint

@[simp] theorem toNat_scalar (c : Char) : (scalar c).toNat = c.toNat := rfl

@[simp] theorem toNat_surrogate (n : Fin 2048) : (surrogate n).toNat = 0xD800 + n.val := rfl

theorem ofNat?_of_isValidChar {n : Nat} (h : n.isValidChar) :
    ofNat? n = some (.scalar (Char.ofNatAux n h)) := by
  rw [ofNat?, dif_pos h]
  rfl

theorem ofNat?_half {n : Nat} (hlow : 0xD800 ≤ n) (hhigh : n < 0xE000) :
    ofNat? n = some (.surrogate ⟨n - 0xD800, by omega⟩) := by
  have hv : ¬ n.isValidChar := by unfold Nat.isValidChar; omega
  rw [ofNat?, dif_neg hv, dif_pos ⟨hlow, by omega⟩]

theorem ofNat?_toNat (c : CodePoint) : ofNat? c.toNat = some c := by
  cases c with
  | scalar c =>
    show ofNat? c.val.toNat = _
    rw [ofNat?_of_isValidChar c.valid]
    rfl
  | surrogate n =>
    rw [toNat_surrogate, ofNat?_half (by omega) (by omega)]
    simp

theorem toNat_of_ofNat? {n : Nat} {c : CodePoint} (h : ofNat? n = some c) : c.toNat = n := by
  unfold ofNat? at h
  split at h
  · rw [← Option.some.inj h]; rfl
  · split at h
    · rw [← Option.some.inj h, toNat_surrogate]
      dsimp only
      omega
    · cases h

theorem toNat_injective : Function.Injective toNat := by
  intro a b h
  have hb := ofNat?_toNat b
  rw [← h, ofNat?_toNat] at hb
  exact Option.some.inj hb

theorem toNat_lt (c : CodePoint) : c.toNat < 0x110000 := by
  cases c with
  | scalar c =>
    have := c.valid
    unfold UInt32.isValidChar Nat.isValidChar at this
    rw [toNat_scalar, Char.toNat]
    omega
  | surrogate n => rw [toNat_surrogate]; omega

/-- A number is that of a code point if it is below `0x110000`. -/
theorem exists_ofNat? {n : Nat} (h : n < 0x110000) : ∃ c, ofNat? n = some c := by
  by_cases hv : n.isValidChar
  · exact ⟨_, ofNat?_of_isValidChar hv⟩
  · unfold Nat.isValidChar at hv
    exact ⟨_, ofNat?_half (by omega) (by omega)⟩

theorem eq_scalar_of_toNat_eq {c : CodePoint} {x : Char} (h : c.toNat = x.toNat) :
    c = .scalar x :=
  toNat_injective h

end ManifestGraph.CodePoint
