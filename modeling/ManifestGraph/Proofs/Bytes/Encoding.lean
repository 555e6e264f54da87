/-
  Documents in UTF-8 show their encoding: well-formed UTF-8 without a zero and without a byte order mark
  is taken for UTF-8 (`decode_of_utf8`), and so is everything that an ASCII writer writes
  (`decode_encode_printable`).
-/
import ManifestGraph.Proofs.Bytes.Utf8

namespace ManifestGraph

/-- The code point is a printable ASCII character. -/
def CodePoint.isPlain (c : CodePoint) : Bool := 0x20 ≤ c.toNat && c.toNat < 0x7F

/-- The text is made of printable ASCII characters. -/
def Text.Plain (t : Text) : Prop := ∀ c ∈ t, c.isPlain = true

theorem CodePoint.isPlain_iff {c : CodePoint} : c.isPlain = true ↔ 0x20 ≤ c.toNat ∧ c.toNat < 0x7F := by
  simp [isPlain]

theorem Text.Plain.append {s t : Text} (hs : s.Plain) (ht : t.Plain) : Text.Plain (s ++ t) := by
  intro c hc
  rcases List.mem_append.mp hc with hc | hc
  · exact hs c hc
  · exact ht c hc

theorem Text.Plain.isScalar {t : Text} (h : t.Plain) : t.isScalar = true := by
  refine List.all_eq_true.mpr fun c hc => ?_
  cases c with
  | scalar c => rfl
  | surrogate n =>
    have hplain := CodePoint.isPlain_iff.mp (h _ hc)
    rw [CodePoint.toNat_surrogate] at hplain
    omega

namespace Utf8

variable {a b : UInt8} {bs : Bytes} {t : Text}

theorem tail_ne_zero (h : isTail b = true) : (0 : UInt8) ≠ b := by
  rintro rfl
  exact absurd h (by decide)

theorem secondOfThree_ne_zero {halves : Bool} (h : secondOfThree halves a b = true) : (0 : UInt8) ≠ b := by
  rintro rfl
  rw [secondOfThree, show isTail 0 = false from rfl] at h
  split at h
  next => exact absurd h (by decide)
  next => split at h <;> exact absurd h (by decide)

theorem secondOfFour_ne_zero (h : secondOfFour a b = true) : (0 : UInt8) ≠ b := by
  rintro rfl
  rw [secondOfFour, show isTail 0 = false from rfl] at h
  split at h
  next => exact absurd h (by decide)
  next => split at h <;> exact absurd h (by decide)

theorem ne_zero_of_not_lt (h : ¬a < 0x80) : (0 : UInt8) ≠ a := by
  rintro rfl
  exact h (by decide)

theorem not_mem_cons {x : UInt8} (hne : x ≠ a) (h : x ∉ bs) : x ∉ a :: bs := by
  rw [List.mem_cons, not_or]
  exact ⟨hne, h⟩

/-- Zeros come from null characters only. -/
theorem zero_not_mem_of_units {k : Nat} (h : strict k (units false bs) = .ok t)
    (ht : ∀ c ∈ t, c.toNat ≠ 0) : (0 : UInt8) ∉ bs := by
  have hrest : ∀ {u : Unit} {bs : Bytes} {k : Nat} {t : Text},
      (∀ {k : Nat} {t : Text}, strict k (units false bs) = .ok t → (∀ c ∈ t, c.toNat ≠ 0) →
        (0 : UInt8) ∉ bs) →
      strict k (u :: units false bs) = .ok t → (∀ c ∈ t, c.toNat ≠ 0) → (0 : UInt8) ∉ bs := by
    intro u bs k t ih h ht
    obtain ⟨c, size, t', _, hstrict, rfl⟩ := strict_point h
    exact ih hstrict fun c hc => ht c (List.mem_cons_of_mem _ hc)
  fun_induction units false bs generalizing k t with
  | case1 => exact List.not_mem_nil
  | case2 a bs ha ih =>
    have hne : (0 : UInt8) ≠ a := by
      rintro rfl
      obtain ⟨c, size, t', hpoint, _, rfl⟩ := strict_point h
      have hc : c = .scalar '\x00' := (Unit.point.inj hpoint).1.symm
      exact ht c List.mem_cons_self (by rw [hc]; rfl)
    exact not_mem_cons hne (hrest ih h ht)
  | case5 a ha _ _ b bs hb ih =>
    exact not_mem_cons (ne_zero_of_not_lt ha) (not_mem_cons (tail_ne_zero hb) (hrest ih h ht))
  | case9 a ha _ _ _ b hb c bs hc ih =>
    exact not_mem_cons (ne_zero_of_not_lt ha) (not_mem_cons (secondOfThree_ne_zero hb)
      (not_mem_cons (tail_ne_zero hc) (hrest ih h ht)))
  | case15 a ha _ _ _ _ b hb c hc d bs hd ih =>
    exact not_mem_cons (ne_zero_of_not_lt ha) (not_mem_cons (secondOfFour_ne_zero hb)
      (not_mem_cons (tail_ne_zero hc) (not_mem_cons (tail_ne_zero hd) (hrest ih h ht))))
  | _ => cases h

theorem zero_not_mem (h : decode bs = .ok t) (ht : ∀ c ∈ t, c.toNat ≠ 0) : (0 : UInt8) ∉ bs :=
  zero_not_mem_of_units h ht

/-- Well-formed UTF-8 does not start with the bytes of another encoding's mark. -/
theorem first_lt (h : decode (a :: bs) = .ok t) : a.toNat < 0xF5 := by
  by_contra hge
  have hunits : units false (a :: bs) = .malformed [a] .startByte :: units false bs := by
    rw [units.eq_def]
    dsimp only
    rw [if_neg (not_lt_of_le (by simp; omega)), if_neg (not_lt_of_le (by simp; omega)),
      if_neg (not_lt_of_le (by simp; omega)), if_neg (not_lt_of_le (by simp; omega)),
      if_neg (not_lt_of_le (by simp; omega))]
  rw [decode, hunits] at h
  cases h

/-- The byte order mark is read as a character. -/
theorem decode_mark (h : decode (0xEF :: 0xBB :: 0xBF :: bs) = .ok t) :
    ∃ t', t = CodePoint.scalar '\uFEFF' :: t' := by
  rw [decode, units_three (by decide) (by decide) (by decide) (by decide),
    point_toNat (.scalar '\uFEFF') (by decide)] at h
  obtain ⟨c, size, t', hpoint, _, rfl⟩ := strict_point h
  exact ⟨t', by rw [(Unit.point.inj hpoint).1]⟩

end Utf8

namespace Encoding

variable {bs : Bytes} {t : Text}

/-- UTF-8 without zeros and without a byte order mark is detected as such. -/
theorem detect_eq_utf8 (hzero : (0 : UInt8) ∉ bs) (hfirst : ∀ a rest, bs = a :: rest → a.toNat < 0xF5)
    (hmark : ∀ rest, bs ≠ 0xEF :: 0xBB :: 0xBF :: rest) : detect bs = (.utf8, bs) := by
  have hne : ∀ a ∈ bs, a ≠ 0 := fun a ha h => hzero (h ▸ ha)
  unfold detect
  split
  next => exact absurd List.mem_cons_self hzero
  next => exact absurd (hfirst _ _ rfl) (by decide)
  next => exact absurd (hfirst _ _ rfl) (by decide)
  next => exact absurd (hfirst _ _ rfl) (by decide)
  next => exact absurd rfl (hmark _)
  next =>
    split
    next =>
      rw [if_neg (hne _ List.mem_cons_self), if_neg (hne _ (List.mem_cons_of_mem _ List.mem_cons_self))]
    next =>
      rw [if_neg (hne _ List.mem_cons_self), if_neg (hne _ (List.mem_cons_of_mem _ List.mem_cons_self))]
    next => rfl

/-- Well-formed UTF-8 without a null character and without a byte order mark shows its encoding. -/
theorem decode_of_utf8 (h : Utf8.decode bs = .ok t) (hnull : ∀ c ∈ t, c.toNat ≠ 0)
    (hmark : t.head? ≠ some (.scalar '\uFEFF')) : decode bs = some t := by
  have hdetect : detect bs = (.utf8, bs) := by
    refine detect_eq_utf8 (Utf8.zero_not_mem h hnull) ?_ ?_
    · rintro a rest rfl
      exact Utf8.first_lt h
    · rintro rest rfl
      obtain ⟨t', rfl⟩ := Utf8.decode_mark h
      exact hmark rfl
  rw [decode, hdetect]
  dsimp only
  rw [Utf8.decodeHalves_of_decode h]
  rfl

/-- What is written in printable ASCII shows its encoding. -/
theorem decode_encode_printable (h : t.Plain) : decode (Utf8.encode t) = some t := by
  refine decode_of_utf8 (Utf8.decode_encode h.isScalar) ?_ ?_
  · intro c hc
    have hplain := CodePoint.isPlain_iff.mp (h c hc)
    omega
  · intro hhead
    obtain ⟨t', rfl⟩ := List.head?_eq_some_iff.mp hhead
    exact absurd (h _ List.mem_cons_self) (by decide)

end Encoding
end ManifestGraph
