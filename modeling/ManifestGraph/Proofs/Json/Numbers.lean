/-
  Numbers in JSON. The numeral of an integer is read as that integer (`bareValue_ofInt`) unless it is
  longer than integers may be, and a floating-point number in canonical form is read as itself
  (`bareValue_render`), in whichever of the layouts it was written.
-/
import ManifestGraph.Json.Token
import ManifestGraph.Json.Writer
import ManifestGraph.Proofs.Binary64.Shortest
import ManifestGraph.Proofs.Text.Digits

namespace ManifestGraph.Json

open Binary64 (Canonical shortest ofDecimal ofDecimal_eq)
open CodePoint (isDigit)
open Text (digitsValue)

variable {d : Dialect} {negative : Bool} {t whole fraction digits rest r : Text}

/-! ## Words and signs -/

theorem ne_word_of_isDigit {c : CodePoint} (hc : c.isDigit = true) {word : Text} {x : Char}
    (hword : word.head? = some (.scalar x)) (hx : x.isDigit = false) : c :: t ≠ word := by
  rintro rfl
  exact Text.ne_scalar_of_isDigit hc hx (Option.some.inj hword)

theorem bareValue_of_isDigit {c : CodePoint} (hc : c.isDigit = true) :
    bareValue d (c :: t) = unsigned? d false (c :: t) := by
  have hword : ∀ (word : Text) (x : Char), word.head? = some (.scalar x) → x.isDigit = false →
      c :: t ≠ word := fun _ _ => ne_word_of_isDigit hc
  rw [bareValue, if_neg (hword _ 't' rfl (by decide)), if_neg (hword _ 'f' rfl (by decide)),
    if_neg (hword _ 'n' rfl (by decide)), if_neg (hword _ 'N' rfl (by decide)),
    if_neg (hword _ 'I' rfl (by decide)), if_neg (hword _ '-' rfl (by decide))]
  intro r heq
  exact Text.ne_scalar_of_isDigit hc (by decide) (List.cons.inj heq).1

theorem bareValue_minus {c : CodePoint} (hc : c.isDigit = true) :
    bareValue d (.scalar '-' :: c :: t) = unsigned? d true (c :: t) := by
  have hword : ∀ (word : Text) (x : Char), word.head? = some (.scalar x) → x ≠ '-' →
      CodePoint.scalar '-' :: c :: t ≠ word := by
    rintro word x hx hne rfl
    exact hne (CodePoint.scalar.inj (Option.some.inj hx)).symm
  have hinfinity : CodePoint.scalar '-' :: c :: t ≠ (("-Infinity" : String) : Text) := by
    intro h
    have hhead : (("Infinity" : String) : Text).head? = some (.scalar 'I') := rfl
    exact ne_word_of_isDigit hc hhead (by decide) (List.cons.inj h).2
  rw [bareValue, if_neg (hword _ 't' rfl (by decide)), if_neg (hword _ 'f' rfl (by decide)),
    if_neg (hword _ 'n' rfl (by decide)), if_neg (hword _ 'N' rfl (by decide)),
    if_neg (hword _ 'I' rfl (by decide)), if_neg hinfinity]

/-! ## Parts of a number -/

theorem takeWhile_digits (hw : ∀ c ∈ whole, isDigit c = true)
    (hrest : ∀ c, rest.head? = some c → isDigit c = false) :
    (whole ++ rest).takeWhile isDigit = whole ∧ (whole ++ rest).dropWhile isDigit = rest := by
  rw [List.takeWhile_append_of_pos hw, List.dropWhile_append_of_pos hw]
  cases rest with
  | nil => simp
  | cons c rest => simp [hrest c rfl]

theorem fraction?_point (hd : ∀ c ∈ digits, isDigit c = true) (hne : digits ≠ [])
    (hr : ∀ c, r.head? = some c → isDigit c = false) :
    fraction? (.scalar '.' :: (digits ++ r)) = some (digits, r) := by
  obtain ⟨htake, hdrop⟩ := takeWhile_digits hd hr
  rw [fraction?, htake, hdrop]
  simp [hne]

theorem exponent?_minus (hd : ∀ c ∈ digits, isDigit c = true) (hne : digits ≠ []) :
    exponent? (.scalar 'e' :: .scalar '-' :: digits) = some (some (-(digitsValue digits : Int))) := by
  have hall : digits.all isDigit = true := List.all_eq_true.mpr hd
  simp [exponent?, hne, hall]

theorem exponent?_plus (hd : ∀ c ∈ digits, isDigit c = true) (hne : digits ≠ []) :
    exponent? (.scalar 'e' :: .scalar '+' :: digits) = some (some (digitsValue digits : Int)) := by
  have hall : digits.all isDigit = true := List.all_eq_true.mpr hd
  simp [exponent?, hne, hall]

/-! ## Whole numbers -/

/-- Digits before the point are refused if there are none, or if they start with a zero that is not alone. -/
theorem not_refused_whole (hne : whole ≠ [])
    (hlead : whole.length = 1 ∨ whole.head? ≠ some (.scalar '0')) :
    (whole.isEmpty || (decide (whole.head? = some (.scalar '0')) && decide (whole.length ≠ 1))) = false := by
  rcases hlead with h | h <;> simp [hne, h]

theorem unsigned?_whole (hw : ∀ c ∈ whole, isDigit c = true) (hne : whole ≠ [])
    (hlead : whole.length = 1 ∨ whole.head? ≠ some (.scalar '0')) (hlen : whole.length ≤ maxDigits) :
    unsigned? d negative whole =
      .ok (.int (if negative then -(digitsValue whole : Int) else digitsValue whole)) := by
  have hnone : ∀ c, ([] : Text).head? = some c → isDigit c = false := fun c hc => by cases hc
  obtain ⟨htake, hdrop⟩ := takeWhile_digits hw hnone
  rw [List.append_nil] at htake hdrop
  have hzero := not_refused_whole hne hlead
  have hlong : ¬maxDigits < whole.length := by omega
  unfold unsigned?
  simp only [htake, hdrop, hzero]
  simp [fraction?, exponent?, hlong]

theorem head?_ofNat (n : Nat) :
    (Text.ofNat n).length = 1 ∨ (Text.ofNat n).head? ≠ some (.scalar '0') := by
  by_cases hn : n = 0
  · exact Or.inl (by rw [hn]; decide)
  · exact Or.inr (Text.head_ofNat_ne_zero hn)

theorem bareValue_ofInt {n : Int} (h : n.natAbs < 10 ^ maxDigits) :
    bareValue d (Text.ofInt n) = .ok (.int n) := by
  have hdigits : ∀ m : Nat, ∀ c ∈ Text.ofNat m, isDigit c = true :=
    fun _ _ => Text.isDigit_of_mem_ofNat
  have hcons : ∀ m : Nat, ∃ c t, Text.ofNat m = c :: t ∧ isDigit c = true := by
    intro m
    cases hm : Text.ofNat m with
    | nil => exact absurd hm (Text.ofNat_ne_nil m)
    | cons c t => exact ⟨c, t, rfl, hdigits m c (hm ▸ List.mem_cons_self)⟩
  cases n with
  | ofNat m =>
    obtain ⟨c, t, hm, hc⟩ := hcons m
    have hlen := (Text.length_ofNat_le_iff (by decide)).mpr (show m < 10 ^ maxDigits from h)
    rw [Text.ofInt, hm, bareValue_of_isDigit hc, ← hm,
      unsigned?_whole (hdigits m) (Text.ofNat_ne_nil m) (head?_ofNat m) hlen, Text.digitsValue_ofNat]
    rfl
  | negSucc m =>
    obtain ⟨c, t, hm, hc⟩ := hcons (m + 1)
    have hlen := (Text.length_ofNat_le_iff (by decide)).mpr (show m + 1 < 10 ^ maxDigits from h)
    rw [Text.ofInt, hm, bareValue_minus hc, ← hm,
      unsigned?_whole (hdigits _) (Text.ofNat_ne_nil _) (head?_ofNat _) hlen, Text.digitsValue_ofNat]
    rfl

/-! ## Numbers with a fraction or an exponent -/

theorem unsigned?_float {power : Option Int} (hw : ∀ c ∈ whole, isDigit c = true) (hne : whole ≠ [])
    (hlead : whole.length = 1 ∨ whole.head? ≠ some (.scalar '0')) (hlen : whole.length ≤ maxDigits)
    (hrest : ∀ c, rest.head? = some c → isDigit c = false) (hf : fraction? rest = some (fraction, r))
    (hr : exponent? r = some power) (hpart : fraction ≠ [] ∨ power.isSome = true) :
    unsigned? d negative (whole ++ rest) = .ok (.float
      (ofDecimal negative (digitsValue (whole ++ fraction)) (power.getD 0 - fraction.length))) := by
  obtain ⟨htake, hdrop⟩ := takeWhile_digits hw hrest
  have hzero := not_refused_whole hne hlead
  have hlong : ¬maxDigits < whole.length := by omega
  have hwhole : (fraction.isEmpty && power.isNone) = false := by
    rcases hpart with h | h
    · simp [h]
    · cases power with
      | none => cases h
      | some => simp
  unfold unsigned?
  simp only [htake, hdrop, hzero, hf, hr, hwhole]
  simp [hlong]

/-! ## Floating-point numbers -/

section Magnitude

variable {m n : Nat} {e power : Int}

/-- The digits and exponent of another numeral for the same value. -/
theorem ofDecimal_of_value (h : (Binary64.finite false m e).Canonical)
    (hvalue : (n : ℚ) * 10 ^ power = (shortest m e).value) :
    ofDecimal negative n power = .finite negative m e := by
  rw [ofDecimal_eq, hvalue]
  exact Binary64.ofRat_sign (Binary64.ofRat_shortest h) negative

theorem isDigit_zeros {k : Nat} : ∀ c ∈ Binary64.zeros k, isDigit c = true := by
  intro c hc
  rw [List.eq_of_mem_replicate hc]
  decide

theorem digitsValue_zeros_append (k : Nat) (t : Text) :
    digitsValue (Binary64.zeros k ++ t) = digitsValue t := by
  rw [Text.digitsValue_append, Binary64.zeros, Text.digitsValue_replicate_zero, Nat.zero_mul,
    Nat.zero_add]

theorem isDigit_ofNat (n : Nat) : ∀ c ∈ Text.ofNat n, isDigit c = true :=
  fun _ => Text.isDigit_of_mem_ofNat

theorem isDigit_zeros_append {k : Nat} (hd : ∀ c ∈ digits, isDigit c = true) :
    ∀ c ∈ Binary64.zeros k ++ digits, isDigit c = true := by
  intro c hc
  rcases List.mem_append.mp hc with hc | hc
  · exact isDigit_zeros c hc
  · exact hd c hc

/-- A point, digits, and nothing else. -/
theorem unsigned?_point (hw : ∀ c ∈ whole, isDigit c = true) (hne : whole ≠ [])
    (hlead : whole.length = 1 ∨ whole.head? ≠ some (.scalar '0')) (hlen : whole.length ≤ maxDigits)
    (hf : ∀ c ∈ fraction, isDigit c = true) (hfne : fraction ≠ []) :
    unsigned? d negative (whole ++ .scalar '.' :: fraction) =
      .ok (.float (ofDecimal negative (digitsValue (whole ++ fraction)) (-(fraction.length : Int)))) := by
  have hfraction := fraction?_point (r := []) hf hfne (fun c hc => by cases hc)
  rw [List.append_nil] at hfraction
  rw [unsigned?_float hw hne hlead hlen ?_ hfraction rfl (Or.inl hfne), Option.getD_none, zero_sub]
  intro c hc
  rw [← Option.some.inj hc]
  decide

/-- The value lies right of the point: a zero, the point, more zeros, and the digits. -/
theorem unsigned?_below_point (k n : Nat) :
    unsigned? d negative (("0." : String) ++ Binary64.zeros k ++ Text.ofNat n) =
      .ok (.float (ofDecimal negative n (-(k + (Text.ofNat n).length : Nat)))) := by
  have htext : (("0." : String) : Text) ++ Binary64.zeros k ++ Text.ofNat n =
      Binary64.zeros 1 ++ .scalar '.' :: (Binary64.zeros k ++ Text.ofNat n) := by
    rw [List.append_assoc]; rfl
  have hne : Binary64.zeros k ++ Text.ofNat n ≠ [] :=
    List.append_ne_nil_of_right_ne_nil _ (Text.ofNat_ne_nil n)
  rw [htext, unsigned?_point isDigit_zeros (by decide) (Or.inl rfl) (by decide)
    (isDigit_zeros_append (isDigit_ofNat n)) hne, digitsValue_zeros_append, digitsValue_zeros_append,
    Text.digitsValue_ofNat, List.length_append, Binary64.zeros, List.length_replicate]

/-- The digits are all left of the point, with zeros between. -/
theorem unsigned?_above_point (k : Nat) (hn : n ≠ 0) (hlen : (Text.ofNat n).length + k ≤ maxDigits) :
    unsigned? d negative (Text.ofNat n ++ Binary64.zeros k ++ (".0" : String)) =
      .ok (.float (ofDecimal negative (n * 10 ^ (k + 1)) (-1))) := by
  have htext : Text.ofNat n ++ Binary64.zeros k ++ ((".0" : String) : Text) =
      (Text.ofNat n ++ Binary64.zeros k) ++ .scalar '.' :: Binary64.zeros 1 := rfl
  have hdigits : ∀ c ∈ Text.ofNat n ++ Binary64.zeros k, isDigit c = true := by
    intro c hc
    rcases List.mem_append.mp hc with hc | hc
    · exact isDigit_ofNat n c hc
    · exact isDigit_zeros c hc
  have hhead : (Text.ofNat n ++ Binary64.zeros k).head? ≠ some (.scalar '0') := by
    have h := Text.head_ofNat_ne_zero hn
    cases ht : Text.ofNat n with
    | nil => exact absurd ht (Text.ofNat_ne_nil n)
    | cons c t => rwa [ht] at h
  have hvalue : digitsValue (Text.ofNat n ++ Binary64.zeros k ++ Binary64.zeros 1) = n * 10 ^ (k + 1) := by
    rw [List.append_assoc, Binary64.zeros, Binary64.zeros, List.replicate_append_replicate,
      Text.digitsValue_append, Text.digitsValue_ofNat, Text.digitsValue_replicate_zero,
      List.length_replicate, Nat.add_zero]
  rw [htext, unsigned?_point hdigits (List.append_ne_nil_of_left_ne_nil (Text.ofNat_ne_nil n) _)
    (Or.inr hhead) ?_ isDigit_zeros (by decide), hvalue]
  · rfl
  · rwa [List.length_append, Binary64.zeros, List.length_replicate]

/-- The point stands between the digits. -/
theorem unsigned?_around_point {k : Nat} (hn : n ≠ 0) (h0 : 0 < k) (hk : k < (Text.ofNat n).length)
    (hlen : k ≤ maxDigits) :
    unsigned? d negative ((Text.ofNat n).take k ++ ("." : String) ++ (Text.ofNat n).drop k) =
      .ok (.float (ofDecimal negative n (-((Text.ofNat n).length - k : Nat)))) := by
  have htext : (Text.ofNat n).take k ++ (("." : String) : Text) ++ (Text.ofNat n).drop k =
      (Text.ofNat n).take k ++ .scalar '.' :: (Text.ofNat n).drop k := by
    rw [List.append_assoc]; rfl
  have hhead : ((Text.ofNat n).take k).head? ≠ some (.scalar '0') := by
    rw [List.head?_take, if_neg (by omega)]
    exact Text.head_ofNat_ne_zero hn
  have hlength : ((Text.ofNat n).take k).length = k := by rw [List.length_take]; omega
  have hne : (Text.ofNat n).take k ≠ [] := by
    rw [← List.length_pos_iff, hlength]; exact h0
  have hne' : (Text.ofNat n).drop k ≠ [] := by
    rw [← List.length_pos_iff, List.length_drop]; omega
  rw [htext, unsigned?_point (fun c hc => isDigit_ofNat n c (List.mem_of_mem_take hc)) hne
    (Or.inr hhead) (hlength.symm ▸ hlen) (fun c hc => isDigit_ofNat n c (List.mem_of_mem_drop hc)) hne',
    List.take_append_drop, Text.digitsValue_ofNat, List.length_drop]

/-- The exponent of a number, with zeros before it. -/
theorem exponent?_text (minus : Bool) (k p : Nat) :
    exponent? (.scalar 'e' :: ((if minus then ("-" : String) else ("+" : String) : Text) ++
      (Binary64.zeros k ++ Text.ofNat p))) = some (some (if minus then -(p : Int) else p)) := by
  have hd := isDigit_zeros_append (k := k) (isDigit_ofNat p)
  have hne : Binary64.zeros k ++ Text.ofNat p ≠ [] :=
    List.append_ne_nil_of_right_ne_nil _ (Text.ofNat_ne_nil p)
  have hvalue : digitsValue (Binary64.zeros k ++ Text.ofNat p) = p := by
    rw [digitsValue_zeros_append, Text.digitsValue_ofNat]
  cases minus with
  | true => exact (exponent?_minus hd hne).trans (by rw [hvalue]; rfl)
  | false => exact (exponent?_plus hd hne).trans (by rw [hvalue]; rfl)

/-- One digit, a fraction if there are more, and an exponent. -/
theorem unsigned?_scientific (minus : Bool) (k p : Nat) :
    unsigned? d negative ((Text.ofNat n).take 1 ++
      (if (Text.ofNat n).length = 1 then ([] : Text) else ("." : String) ++ (Text.ofNat n).drop 1) ++
      ("e" : String) ++ (if minus then ("-" : String) else ("+" : String) : Text) ++
      Binary64.zeros k ++ Text.ofNat p) =
    .ok (.float (ofDecimal negative n
      ((if minus then -(p : Int) else p) - ((Text.ofNat n).length - 1 : Nat)))) := by
  have hpos := Text.length_ofNat_pos n
  have hlength : ((Text.ofNat n).take 1).length = 1 := by rw [List.length_take]; omega
  have hne : (Text.ofNat n).take 1 ≠ [] := by rw [← List.length_pos_iff, hlength]; decide
  have hwhole : ∀ c ∈ (Text.ofNat n).take 1, isDigit c = true :=
    fun c hc => isDigit_ofNat n c (List.mem_of_mem_take hc)
  have hfraction : ∀ c ∈ (Text.ofNat n).drop 1, isDigit c = true :=
    fun c hc => isDigit_ofNat n c (List.mem_of_mem_drop hc)
  have hexponent := exponent?_text minus k p
  generalize hr : CodePoint.scalar 'e' :: ((if minus then ("-" : String) else ("+" : String) : Text) ++
    (Binary64.zeros k ++ Text.ofNat p)) = r at hexponent
  have hrdigit : ∀ c, r.head? = some c → isDigit c = false := by
    rw [← hr]
    intro c hc
    rw [← Option.some.inj hc]
    decide
  have hval : (if minus then -(p : Int) else p) =
      (some (if minus then -(p : Int) else (p : Int))).getD 0 := rfl
  have htext : ∀ s : Text, (Text.ofNat n).take 1 ++ s ++ (("e" : String) : Text) ++
      (if minus then ("-" : String) else ("+" : String) : Text) ++ Binary64.zeros k ++ Text.ofNat p =
      (Text.ofNat n).take 1 ++ (s ++ r) := by
    intro s
    rw [← hr]
    simp only [List.append_assoc]
    rfl
  rw [htext, hval, ← List.length_drop]
  by_cases h1 : (Text.ofNat n).length = 1
  · have hdrop : (Text.ofNat n).drop 1 = [] := List.drop_eq_nil_of_le (by omega)
    have hno : fraction? r = some ([], r) := by rw [← hr]; rfl
    rw [if_pos h1, List.nil_append, unsigned?_float hwhole hne (Or.inl hlength)
      (hlength.symm ▸ by decide) hrdigit hno hexponent (Or.inr rfl), hdrop, List.append_nil,
      List.take_of_length_le (by omega), Text.digitsValue_ofNat]
  · have hne' : (Text.ofNat n).drop 1 ≠ [] := by
      rw [← List.length_pos_iff, List.length_drop]; omega
    have hpoint := fraction?_point hfraction hne' hrdigit
    rw [if_neg h1, List.append_assoc]
    refine (unsigned?_float hwhole hne (Or.inl hlength) (hlength.symm ▸ by decide) ?_ hpoint hexponent
      (Or.inl hne')).trans ?_
    · intro c hc
      rw [← Option.some.inj hc]
      decide
    · rw [List.take_append_drop, Text.digitsValue_ofNat]

theorem unsigned?_magnitude (h : (Binary64.finite false m e).Canonical) :
    unsigned? d negative (numberLayout.magnitude m e) = .ok (.float (.finite negative m e)) := by
  unfold Binary64.Layout.magnitude
  by_cases hm : m = 0
  · have he : e = Binary64.minExponent := by
      rcases h.2.1 with hfull | he
      · rw [hm] at hfull; exact absurd hfull (by decide)
      · exact he
    rw [if_pos hm, hm, he]
    rfl
  rw [if_neg hm]
  have hvalue : ((shortest m e).normal 400).value = (shortest m e).value := Binary64.value_normal _ _
  have hn : ((shortest m e).normal 400).digits ≠ 0 :=
    Binary64.digits_normal_ne_zero 400 (Binary64.shortest_digits_ne_zero h hm)
  generalize (shortest m e).normal 400 = x at hvalue hn
  obtain ⟨n, power⟩ := x
  change (n : ℚ) * 10 ^ power = (shortest m e).value at hvalue
  change n ≠ 0 at hn
  have hpos := Text.length_ofNat_pos n
  dsimp only
  have hlayout : numberLayout.lowPlace = -4 ∧ numberLayout.highPlace = 16 ∧
    numberLayout.exponentWidth = 2 := ⟨rfl, rfl, rfl⟩
  rw [hlayout.1, hlayout.2.1, hlayout.2.2]
  split
  next hplace =>
    split
    next hbelow =>
      rw [unsigned?_below_point, ofDecimal_of_value h]
      rw [← hvalue]
      congr 2
      omega
    next hbelow =>
      split
      next hlen =>
        obtain ⟨k, rfl⟩ := Int.eq_ofNat_of_zero_le (show 0 ≤ power by omega)
        have hk : (((Text.ofNat n).length : Int) + (k : Nat)).toNat - (Text.ofNat n).length = k := by omega
        rw [hk, unsigned?_above_point _ hn (by unfold maxDigits; omega), ofDecimal_of_value h]
        rw [← hvalue, Nat.cast_mul, Nat.cast_pow, pow_succ, zpow_neg_one, zpow_natCast]
        push_cast
        ring
      next hlen =>
        rw [unsigned?_around_point hn (by omega) (by omega) (by unfold maxDigits; omega),
          ofDecimal_of_value h]
        rw [← hvalue]
        congr 2
        omega
  next hplace =>
    have hscientific : ∀ k p, unsigned? d negative _ = _ :=
      fun k p => unsigned?_scientific (n := n) (decide (((Text.ofNat n).length : Int) + power - 1 < 0)) k p
    simp only [decide_eq_true_eq] at hscientific
    rw [hscientific, ofDecimal_of_value h]
    rw [← hvalue]
    congr 2
    split <;> omega

end Magnitude

/-- What is read as a number starts with a digit. -/
theorem exists_cons_of_unsigned? {v : Data} (h : unsigned? d negative t = .ok v) :
    ∃ c u, t = c :: u ∧ isDigit c = true := by
  cases t with
  | nil => cases h
  | cons c u =>
    by_cases hc : isDigit c = true
    · exact ⟨c, u, rfl, hc⟩
    · rw [unsigned?, List.takeWhile_cons, if_neg hc] at h
      cases h

/-- A number in canonical form is read as itself. -/
theorem bareValue_render {x : Binary64} (h : x.Canonical) :
    bareValue d (numberLayout.render x) = .ok (.float x) := by
  cases x with
  | nan => rfl
  | infinite negative => cases negative <;> rfl
  | finite negative m e =>
    have hread : ∀ negative, unsigned? d negative (numberLayout.magnitude m e) = _ :=
      fun negative => unsigned?_magnitude (e := e) (m := m) h
    obtain ⟨c, u, hcons, hc⟩ := exists_cons_of_unsigned? (hread false)
    cases negative with
    | false =>
      show bareValue d (numberLayout.magnitude m e) = _
      rw [hcons, bareValue_of_isDigit hc, ← hcons]
      exact hread false
    | true =>
      show bareValue d (.scalar '-' :: numberLayout.magnitude m e) = _
      rw [hcons, bareValue_minus hc, ← hcons]
      exact hread true

/-! ## Bare texts -/

/-- Nothing but code points of bare words. -/
def AllBare (t : Text) : Prop := ∀ c ∈ t, isBare c = true

theorem AllBare.append {s t : Text} (hs : AllBare s) (ht : AllBare t) : AllBare (s ++ t) := by
  intro c hc
  rcases List.mem_append.mp hc with hc | hc
  · exact hs c hc
  · exact ht c hc

theorem allBare_of_isDigit (ht : ∀ c ∈ t, isDigit c = true) : AllBare t := by
  intro c hc
  simp [isBare, ht c hc]

theorem allBare_ofInt (n : Int) : AllBare (Text.ofInt n) := by
  cases n with
  | ofNat n => exact allBare_of_isDigit (isDigit_ofNat n)
  | negSucc n =>
    have hsign : AllBare [.scalar '-'] := by unfold AllBare; decide
    exact hsign.append (allBare_of_isDigit (isDigit_ofNat (n + 1)))

theorem allBare_magnitude (m : Nat) (e : Int) : AllBare (numberLayout.magnitude m e) := by
  have hnat : ∀ n, AllBare (Text.ofNat n) := fun n => allBare_of_isDigit (isDigit_ofNat n)
  have hzeros : ∀ k, AllBare (Binary64.zeros k) := fun k => allBare_of_isDigit isDigit_zeros
  have htake : ∀ n k, AllBare ((Text.ofNat n).take k) := fun n k c hc => hnat n c (List.mem_of_mem_take hc)
  have hdrop : ∀ n k, AllBare ((Text.ofNat n).drop k) := fun n k c hc => hnat n c (List.mem_of_mem_drop hc)
  have hwords : AllBare ("0.0" : String) ∧ AllBare ("0." : String) ∧ AllBare (".0" : String) ∧
      AllBare ("." : String) ∧ AllBare ("e" : String) ∧ AllBare ("-" : String) ∧
      AllBare ("+" : String) ∧ AllBare [] := by
    unfold AllBare
    decide
  obtain ⟨hzero, hbelow, habove, hpoint, he, hminus, hplus, hnil⟩ := hwords
  unfold Binary64.Layout.magnitude
  dsimp only
  split
  · exact hzero
  · split
    · split
      · exact (hbelow.append (hzeros _)).append (hnat _)
      · split
        · exact ((hnat _).append (hzeros _)).append habove
        · exact ((htake _ _).append hpoint).append (hdrop _ _)
    · refine (((((htake _ _).append ?_).append he).append ?_).append (hzeros _)).append (hnat _)
      · split
        · exact hnil
        · exact hpoint.append (hdrop _ _)
      · split
        · exact hminus
        · exact hplus

theorem allBare_render (x : Binary64) : AllBare (numberLayout.render x) := by
  have hwords : AllBare ("NaN" : String) ∧ AllBare ("Infinity" : String) ∧ AllBare [] ∧
      AllBare [.scalar '-'] := by
    unfold AllBare
    decide
  obtain ⟨hnan, hinfinity, hnil, hminus⟩ := hwords
  have hsign : ∀ negative, AllBare (Binary64.Layout.render.sign negative) := by
    intro negative
    cases negative
    · exact hnil
    · exact hminus
  cases x with
  | nan => exact hnan
  | infinite negative => exact (hsign negative).append hinfinity
  | finite negative m e => exact (hsign negative).append (allBare_magnitude m e)

end ManifestGraph.Json
