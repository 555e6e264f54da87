/-
  Decimal numerals. The numeral of a number is made of digits, has the number as its value
  (`digitsValue_ofNat`), is as long as the number needs (`length_ofNat_le_iff`) and starts with a zero
  for zero only (`head_ofNat_ne_zero`); an integer's numeral reads back (`toInt?_ofInt`).
-/
import ManifestGraph.Proofs.Text.Numbers
import ManifestGraph.Text.Blank
import Mathlib.Tactic.Ring

namespace ManifestGraph.Text

open CodePoint (isDigit)

/-! ## Digits -/

/-- A digit is one of the ten characters. -/
theorem isDigit_iff {c : CodePoint} : c.isDigit = true ↔ 0x30 ≤ c.toNat ∧ c.toNat ≤ 0x39 := by
  simp [isDigit]

theorem isDigit_scalar {c : Char} (h : c.isDigit = true) : (CodePoint.scalar c).isDigit = true := by
  rw [isDigit_iff, CodePoint.toNat_scalar]
  simp only [Char.isDigit, Bool.and_eq_true, decide_eq_true_eq, UInt32.le_iff_toNat_le] at h
  exact h

theorem ne_scalar_of_isDigit {c : CodePoint} {x : Char} (hc : c.isDigit = true)
    (hx : x.isDigit = false) : c ≠ .scalar x := by
  rintro rfl
  rw [isDigit_iff, CodePoint.toNat_scalar] at hc
  simp only [Char.isDigit, Bool.and_eq_false_iff, decide_eq_false_iff_not, UInt32.le_iff_toNat_le] at hx
  have hval : x.val.toNat = x.toNat := rfl
  simp at hx
  omega

theorem isDigit_of_mem_ofNat {n : Nat} {c : CodePoint} (h : c ∈ ofNat n) : c.isDigit = true := by
  obtain ⟨d, hd, rfl⟩ := List.mem_map.mp h
  exact isDigit_scalar (Nat.isDigit_of_mem_toDigits (by decide) (by decide) hd)

theorem ofNat_ne_nil (n : Nat) : ofNat n ≠ [] := by
  intro h
  exact Nat.toDigits_ne_nil (List.map_eq_nil_iff.mp h)

theorem length_ofNat_pos (n : Nat) : 0 < (ofNat n).length := List.length_pos_iff.mpr (ofNat_ne_nil n)

theorem length_ofNat_le_iff {n k : Nat} (hk : 0 < k) : (ofNat n).length ≤ k ↔ n < 10 ^ k := by
  rw [ofNat, List.length_map]
  exact Nat.length_toDigits_le_iff (by decide) hk

theorem ofNat_eq_if (n : Nat) :
    ofNat n = if n < 10 then [.scalar n.digitChar]
      else ofNat (n / 10) ++ [.scalar (n % 10).digitChar] := by
  rw [ofNat, Nat.toDigits_eq_if (by decide)]
  split
  · rfl
  · rw [List.map_append]; rfl

/-- Only zero's numeral starts with a zero. -/
theorem head_ofNat_ne_zero {n : Nat} (hn : n ≠ 0) : (ofNat n).head? ≠ some (.scalar '0') := by
  induction n using Nat.strongRecOn with
  | ind n ih =>
    rw [ofNat_eq_if]
    split
    next hlt =>
      have : ∀ m < 10, m ≠ 0 → [CodePoint.scalar m.digitChar].head? ≠ some (.scalar '0') := by decide
      exact this n hlt hn
    next hge =>
      cases hds : ofNat (n / 10) with
      | nil => exact absurd hds (ofNat_ne_nil _)
      | cons d ds =>
        have hhead := ih (n / 10) (by omega) (by omega)
        rwa [hds] at hhead

/-! ## Values -/

theorem digitsValue_append (s t : Text) :
    digitsValue (s ++ t) = digitsValue s * 10 ^ t.length + digitsValue t := by
  have hfold : ∀ (t : Text) (acc : Nat),
      t.foldl (fun acc (c : CodePoint) => 10 * acc + (c.toNat - 0x30)) acc =
        acc * 10 ^ t.length + digitsValue t := by
    intro t
    induction t with
    | nil => intro acc; simp [digitsValue]
    | cons c t ih =>
      intro acc
      rw [digitsValue, List.foldl_cons, List.foldl_cons, ih, ih (10 * 0 + _), List.length_cons,
        pow_succ]
      ring
  rw [digitsValue, List.foldl_append, hfold]
  rfl

@[simp] theorem digitsValue_nil : digitsValue [] = 0 := rfl

theorem digitsValue_singleton (c : CodePoint) : digitsValue [c] = c.toNat - 0x30 := by
  simp [digitsValue]

theorem digitsValue_ofNat (n : Nat) : digitsValue (ofNat n) = n := by
  rw [digitsValue, ofNat, List.foldl_map]
  exact Nat.ofDigitChars_ten_toDigits

theorem digitsValue_replicate_zero (k : Nat) :
    digitsValue (List.replicate k (CodePoint.scalar '0')) = 0 := by
  induction k with
  | zero => rfl
  | succ k ih =>
    rw [List.replicate_succ, ← List.singleton_append, digitsValue_append, ih, digitsValue_singleton,
      CodePoint.toNat_scalar]
    simp

theorem digitsValue_lt {t : Text} (h : ∀ c ∈ t, isDigit c = true) : digitsValue t < 10 ^ t.length := by
  induction t with
  | nil => decide
  | cons c t ih =>
    have hc := isDigit_iff.mp (h c List.mem_cons_self)
    have ht := ih fun d hd => h d (List.mem_cons_of_mem _ hd)
    rw [← List.singleton_append, digitsValue_append, digitsValue_singleton, List.length_append,
      List.length_singleton, pow_add, pow_one]
    have : (c.toNat - 0x30) * 10 ^ t.length ≤ 9 * 10 ^ t.length :=
      Nat.mul_le_mul_right _ (by omega)
    omega

/-! ## Integers -/

theorem trimBy_of_forall {p : CodePoint → Bool} {t : Text} (h : ∀ c ∈ t, p c = false) :
    trimBy p t = t := by
  have hdrop : ∀ s : Text, (∀ c ∈ s, p c = false) → s.dropWhile p = s := by
    intro s hs
    cases s with
    | nil => rfl
    | cons c s => rw [List.dropWhile_cons, hs c List.mem_cons_self]; rfl
  rw [trimBy, hdrop t h, hdrop t.reverse fun c hc => h c (List.mem_reverse.mp hc), List.reverse_reverse]

theorem digitValue?_of_isDigit {c : CodePoint} (h : c.isDigit = true) :
    c.digitValue? = some (c.toNat - 0x30) := by
  have hc := isDigit_iff.mp h
  have hfirst : (decide (0x30 ≤ c.toNat) && decide (c.toNat < 0x30 + 10)) = true := by
    simp only [Bool.and_eq_true, decide_eq_true_eq]
    omega
  simp only [CodePoint.digitValue?, CodePoint.digitZeros, List.find?_cons, hfirst, Option.map_some]

theorem readDigits_of_isDigit {t : Text} (h : ∀ c ∈ t, isDigit c = true) {spaced : Bool}
    (ht : spaced = true ∨ t ≠ []) :
    readDigits spaced t = some (t.map fun c => c.toNat - 0x30) := by
  induction t generalizing spaced with
  | nil =>
    rcases ht with rfl | ht
    · rfl
    · exact absurd rfl ht
  | cons c t ih =>
    rw [readDigits.eq_def]
    dsimp only
    rw [digitValue?_of_isDigit (h c List.mem_cons_self)]
    dsimp only
    rw [ih (fun d hd => h d (List.mem_cons_of_mem _ hd)) (Or.inl rfl)]
    rfl

theorem not_isNumeralBlank_of_isDigit {c : CodePoint} (h : c.isDigit = true) :
    c.isNumeralBlank = false := by
  have hc := isDigit_iff.mp h
  simp only [CodePoint.isNumeralBlank, CodePoint.isBlank, Bool.and_eq_false_iff, Bool.or_eq_false_iff,
    decide_eq_false_iff_not]
  left
  omega

theorem head_ne_of_isDigit {s t : Text} {x : Char} (hx : x.isDigit = false)
    (hs : ∀ c ∈ s, isDigit c = true) : s ≠ CodePoint.scalar x :: t := by
  rintro rfl
  exact ne_scalar_of_isDigit (hs _ List.mem_cons_self) hx rfl

theorem readDigits_ofNat (n : Nat) :
    readDigits false (ofNat n) = some ((ofNat n).map fun c => c.toNat - 0x30) :=
  readDigits_of_isDigit (fun _ => isDigit_of_mem_ofNat) (Or.inr (ofNat_ne_nil n))

theorem toInt?_ofInt {n : Int} (h : n.natAbs < 10 ^ maxNumeralDigits) : toInt? (ofInt n) = some n := by
  have hvalue : ∀ m : Nat, m < 10 ^ maxNumeralDigits →
      (do
        let ds ← readDigits false (ofNat m)
        if ds.length ≤ maxNumeralDigits then some (ds.foldl (fun acc d => 10 * acc + d) 0) else none)
        = some m := by
    intro m hm
    have hlen := (length_ofNat_le_iff (by decide)).mpr hm
    rw [readDigits_ofNat, Option.bind_eq_bind, Option.bind_some, List.length_map, if_pos hlen,
      List.foldl_map]
    exact congrArg some (digitsValue_ofNat m)
  have hblank : ∀ m : Nat, ∀ c ∈ ofNat m, c.isNumeralBlank = false :=
    fun m c hc => not_isNumeralBlank_of_isDigit (isDigit_of_mem_ofNat hc)
  cases n with
  | ofNat m =>
    have htrim : trimBy CodePoint.isNumeralBlank (ofInt (.ofNat m)) = ofNat m :=
      trimBy_of_forall (hblank m)
    rw [toInt?, htrim]
    split
    next heq => exact absurd heq (head_ne_of_isDigit (by decide) fun _ => isDigit_of_mem_ofNat)
    next heq => exact absurd heq (head_ne_of_isDigit (by decide) fun _ => isDigit_of_mem_ofNat)
    next => simp only [hvalue m h]; rfl
  | negSucc m =>
    have htrim : trimBy CodePoint.isNumeralBlank (ofInt (.negSucc m)) =
        CodePoint.scalar '-' :: ofNat (m + 1) := by
      refine trimBy_of_forall fun c hc => ?_
      rcases List.mem_cons.mp hc with rfl | hc
      · decide
      · exact hblank (m + 1) c hc
    rw [toInt?, htrim]
    split
    next heq =>
      obtain rfl := (List.cons.inj heq).2
      simp only [hvalue (m + 1) h]
      rfl
    next heq => exact absurd (List.cons.inj heq).1 (by decide)
    next hne _ => exact absurd rfl (hne _)

theorem lt_ten_of_readDigits {spaced : Bool} {t : Text} {ds : List Nat}
    (h : readDigits spaced t = some ds) : ∀ d ∈ ds, d < 10 := by
  induction t generalizing spaced ds with
  | nil =>
    rw [readDigits] at h
    split at h
    next => cases h; exact List.forall_mem_nil _
    next => cases h
  | cons c t ih =>
    rw [readDigits.eq_def] at h
    dsimp only at h
    cases hc : c.digitValue? with
    | some d =>
      rw [hc] at h
      obtain ⟨ds', hds, rfl⟩ := Option.map_eq_some_iff.mp h
      obtain ⟨first, hfirst, rfl⟩ := Option.map_eq_some_iff.mp hc
      have hrange := List.find?_some hfirst
      rw [Bool.and_eq_true, decide_eq_true_eq, decide_eq_true_eq] at hrange
      exact List.forall_mem_cons.mpr ⟨by omega, ih hds⟩
    | none =>
      rw [hc] at h
      dsimp only at h
      split at h
      next =>
        split at h
        next => cases h
        next => exact ih h
      next => cases h

theorem foldl_digits_lt {ds : List Nat} (h : ∀ d ∈ ds, d < 10) :
    ds.foldl (fun acc d => 10 * acc + d) 0 < 10 ^ ds.length := by
  have hacc : ∀ (ds : List Nat) (acc : Nat), (∀ d ∈ ds, d < 10) →
      ds.foldl (fun acc d => 10 * acc + d) acc < (acc + 1) * 10 ^ ds.length := by
    intro ds
    induction ds with
    | nil => intro acc _; simp
    | cons d ds ih =>
      intro acc h
      have hd := h d List.mem_cons_self
      have hrest := ih (10 * acc + d) fun x hx => h x (List.mem_cons_of_mem _ hx)
      have hstep : (10 * acc + d + 1) * 10 ^ ds.length ≤ (acc + 1) * 10 * 10 ^ ds.length :=
        Nat.mul_le_mul_right _ (by omega)
      rw [List.foldl_cons, List.length_cons, pow_succ, Nat.mul_comm (10 ^ ds.length), ← Nat.mul_assoc]
      omega
  have hzero := hacc ds 0 h
  rwa [Nat.zero_add, Nat.one_mul] at hzero

/-- A text that is read as an integer has no more digits than are allowed. -/
theorem natAbs_lt_of_toInt? {t : Text} {n : Int} (h : toInt? t = some n) :
    n.natAbs < 10 ^ maxNumeralDigits := by
  have hvalue : ∀ {value : Option Nat} {digits : Text} {m : Int}, (do
      let ds ← readDigits false digits
      if ds.length ≤ maxNumeralDigits then some (ds.foldl (fun acc d => 10 * acc + d) 0) else none)
      = value → (do let a ← value; pure (a : Int)) = some m → m.natAbs < 10 ^ maxNumeralDigits := by
    rintro value digits m hread hm
    obtain ⟨k, hk, hkm⟩ := Option.bind_eq_some_iff.mp hm
    have hkm : (k : Int) = m := Option.some.inj hkm
    rw [hk] at hread
    obtain ⟨ds, hds, hlen⟩ := Option.bind_eq_some_iff.mp hread
    split at hlen
    next hle =>
      have hfold := Nat.lt_of_lt_of_le (foldl_digits_lt (lt_ten_of_readDigits hds))
        (Nat.pow_le_pow_right (by decide) hle)
      rw [Option.some.inj hlen] at hfold
      rwa [← hkm, Int.natAbs_natCast]
    next => cases hlen
  rw [toInt?] at h
  split at h
  · obtain ⟨m, hm, rfl⟩ := Option.map_eq_some_iff.mp h
    rw [Int.natAbs_neg]
    exact hvalue rfl hm
  · obtain ⟨m, hm, rfl⟩ := Option.map_eq_some_iff.mp h
    exact hvalue rfl hm
  · obtain ⟨m, hm, rfl⟩ := Option.map_eq_some_iff.mp h
    exact hvalue rfl hm

end ManifestGraph.Text
