/-
  Strings in JSON. A written string is read as itself with its halves joined (`lexes_writeText`): the
  ASCII layouts escape every half, and the reader cannot tell two escaped halves from a character.
-/
import ManifestGraph.Proofs.Json.Lexing

namespace ManifestGraph.Json

open CodePoint (isHigh isLow pair pairNumber isHigh_iff isLow_iff)

variable {d : Dialect} {seen t : Text} {high ascii : Bool} {a c : CodePoint}

/-! ## Escapes -/

theorem hexValue?_hexDigit {n : Nat} (h : n < 16) : (Text.hexDigit n).hexValue? = some n := by
  have : ∀ n < 16, (Text.hexDigit n).hexValue? = some n := by decide
  exact this n h

theorem step_hex {left value n : Nat} (hn : n < 16) (hleft : 1 < left) :
    Lexer.step d (.hex seen high left value) (Text.hexDigit n) =
      .ok (.hex seen high (left - 1) (value * 16 + n), []) := by
  rw [Lexer.step, hexValue?_hexDigit hn]
  dsimp only
  rw [if_neg (by omega)]

theorem step_lastHex {value n : Nat} (hn : n < 16) :
    Lexer.step d (.hex seen high 1 value) (Text.hexDigit n) =
      .ok (pushUnit seen high (value * 16 + n), []) := by
  rw [Lexer.step, hexValue?_hexDigit hn]
  rfl

/-- An escape by number pushes its unit. -/
theorem lexes_escapeUnit {n : Nat} (hn : n < 0x10000) :
    Lexes d (.quoted seen high) (escapeUnit n) (pushUnit seen high n) [] := by
  have htext : escapeUnit n = .scalar '\\' :: .scalar 'u' :: [Text.hexDigit (n / 16 / 16 / 16 % 16),
      Text.hexDigit (n / 16 / 16 % 16), Text.hexDigit (n / 16 % 16), Text.hexDigit (n % 16)] := rfl
  have hvalue : (((0 * 16 + n / 16 / 16 / 16 % 16) * 16 + n / 16 / 16 % 16) * 16 + n / 16 % 16) * 16
      + n % 16 = n := by omega
  have hmod : ∀ k, k % 16 < 16 := fun k => Nat.mod_lt k (by decide)
  rw [htext]
  refine .silent rfl (.silent rfl ?_)
  refine .silent (step_hex (hmod _) (by decide)) ?_
  refine .silent (step_hex (hmod _) (by decide)) ?_
  refine .silent (step_hex (hmod _) (by decide)) (.single ?_)
  rw [step_lastHex (hmod _), hvalue]

/-- A unit that is not the second half of a pair stands for itself. -/
theorem pushUnit_alone (h : high = true → c.isLow = false) :
    pushUnit seen high c.toNat = .quoted (c :: seen) c.isHigh := by
  have halone : (Lexer.quoted ((CodePoint.ofNat? c.toNat).toList ++ seen)
      (0xD800 ≤ c.toNat && c.toNat < 0xDC00)) = .quoted (c :: seen) c.isHigh := by
    rw [CodePoint.ofNat?_toNat]
    rfl
  unfold pushUnit
  split
  next =>
    have hlow : (decide (0xDC00 ≤ c.toNat) && decide (c.toNat < 0xE000)) = false := h rfl
    rw [hlow]
    exact halone
  next => exact halone

/-- The second half of a pair completes the character. -/
theorem pushUnit_pair {low : Nat} (hlow : 0xDC00 ≤ low ∧ low < 0xE000) :
    pushUnit (a :: seen) true low =
      .quoted ((CodePoint.ofNat? (pairNumber a.toNat low)).toList ++ seen) false := by
  unfold pushUnit
  dsimp only
  rw [if_pos (by simpa using hlow)]
  rfl

/-- An escape of one letter. -/
theorem lexes_short {e : CodePoint} (h : escaped? e = some c) (hu : e ≠ .scalar 'u')
    (hc : c.isHigh = false) :
    Lexes d (.quoted seen high) [.scalar '\\', e] (.quoted (c :: seen) c.isHigh) [] := by
  have hstep : Lexer.step d (.escape seen high) e = .ok (.quoted (c :: seen) false, []) := by
    rw [Lexer.step, if_neg hu, h]
  rw [hc]
  exact .silent rfl (.single hstep)

/-! ## Code points -/

/-- A character beyond 16 bits, by its two halves. -/
theorem lexes_halves (hc : 0x10000 ≤ c.toNat) :
    Lexes d (.quoted seen high) (escapeUnit (0xD800 + (c.toNat - 0x10000) / 1024) ++
      escapeUnit (0xDC00 + (c.toNat - 0x10000) % 1024)) (.quoted (c :: seen) c.isHigh) [] := by
  have hlt := c.toNat_lt
  obtain ⟨a, ha⟩ := CodePoint.exists_ofNat? (n := 0xD800 + (c.toNat - 0x10000) / 1024) (by omega)
  have hnum := CodePoint.toNat_of_ofNat? ha
  have hahigh : a.isHigh = true := isHigh_iff.mpr (by omega)
  have halow : a.isLow = false := by rw [Bool.eq_false_iff, Ne, isLow_iff]; omega
  have hpair : pairNumber a.toNat (0xDC00 + (c.toNat - 0x10000) % 1024) = c.toNat := by
    unfold pairNumber
    omega
  have hfirst : Lexes d (.quoted seen high) (escapeUnit a.toNat) (.quoted (a :: seen) a.isHigh) [] := by
    rw [← pushUnit_alone fun _ => halow]
    exact lexes_escapeUnit (by omega)
  have hsecond : Lexes d (.quoted (a :: seen) true) (escapeUnit (0xDC00 + (c.toNat - 0x10000) % 1024))
      (.quoted (c :: seen) false) [] := by
    have hlexes : Lexes d (.quoted (a :: seen) true) _ _ _ :=
      lexes_escapeUnit (n := 0xDC00 + (c.toNat - 0x10000) % 1024) (by omega)
    rwa [pushUnit_pair (by omega), hpair, CodePoint.ofNat?_toNat] at hlexes
  rw [hahigh] at hfirst
  rw [← hnum, CodePoint.isHigh_of_le (by omega)]
  exact hfirst.append hsecond

/-- The letter escapes the code point. -/
structure Escapes (e c : CodePoint) : Prop where
  escaped : escaped? e = some c
  letter : e ≠ .scalar 'u'
  printable : 0x20 ≤ e.toNat ∧ e.toNat < 0x7F
  ascii : c.toNat < 0x7F

/-- A code point is escaped by a letter, or else its number alone decides how it is written. -/
theorem writePoint_cases (ascii : Bool) (c : CodePoint) :
    (∃ e, Escapes e c ∧ writePoint ascii c = [.scalar '\\', e]) ∨
    c ≠ .scalar '"' ∧ c ≠ .scalar '\\' ∧ writePoint ascii c =
      if c.toNat < 0x20 then escapeUnit c.toNat
      else if !ascii || c.toNat < 0x7F then [c]
      else if c.toNat < 0x10000 then escapeUnit c.toNat
      else escapeUnit (0xD800 + (c.toNat - 0x10000) / 1024) ++
        escapeUnit (0xDC00 + (c.toNat - 0x10000) % 1024) := by
  unfold writePoint
  by_cases hquote : c = .scalar '"'
  · rw [if_pos hquote, hquote]
    exact .inl ⟨.scalar '"', ⟨rfl, by decide, by decide, by decide⟩, rfl⟩
  rw [if_neg hquote]
  by_cases hslash : c = .scalar '\\'
  · rw [if_pos hslash, hslash]
    exact .inl ⟨.scalar '\\', ⟨rfl, by decide, by decide, by decide⟩, rfl⟩
  rw [if_neg hslash]
  by_cases hline : c = .scalar '\n'
  · rw [if_pos hline, hline]
    exact .inl ⟨.scalar 'n', ⟨rfl, by decide, by decide, by decide⟩, rfl⟩
  rw [if_neg hline]
  by_cases hreturn : c = .scalar '\r'
  · rw [if_pos hreturn, hreturn]
    exact .inl ⟨.scalar 'r', ⟨rfl, by decide, by decide, by decide⟩, rfl⟩
  rw [if_neg hreturn]
  by_cases htab : c = .scalar '\t'
  · rw [if_pos htab, htab]
    exact .inl ⟨.scalar 't', ⟨rfl, by decide, by decide, by decide⟩, rfl⟩
  rw [if_neg htab]
  by_cases hback : c = .scalar '\x08'
  · rw [if_pos hback, hback]
    exact .inl ⟨.scalar 'b', ⟨rfl, by decide, by decide, by decide⟩, rfl⟩
  rw [if_neg hback]
  by_cases hfeed : c = .scalar '\x0c'
  · rw [if_pos hfeed, hfeed]
    exact .inl ⟨.scalar 'f', ⟨rfl, by decide, by decide, by decide⟩, rfl⟩
  rw [if_neg hfeed]
  exact .inr ⟨hquote, hslash, rfl⟩

/-- Outside of ASCII a code point is escaped by its number. -/
theorem writePoint_wide (h : 0x7F ≤ c.toNat) : writePoint true c =
    if c.toNat < 0x10000 then escapeUnit c.toNat
    else escapeUnit (0xD800 + (c.toNat - 0x10000) / 1024) ++
      escapeUnit (0xDC00 + (c.toNat - 0x10000) % 1024) := by
  have hnot : ¬ (!true || decide (c.toNat < 0x7F)) = true := by
    rw [Bool.not_true, Bool.false_or, decide_eq_true_eq]
    omega
  rcases writePoint_cases true c with ⟨e, he, _⟩ | ⟨_, _, hwrite⟩
  · exact absurd he.ascii (by omega)
  · rw [hwrite, if_neg (by omega), if_neg hnot]

/-- The code point is not the second half of a pair whose first one was just escaped. -/
theorem lexes_writePoint (h : high = true → c.isLow = false)
    (hc : ascii = true ∨ c.char?.isSome = true) :
    Lexes d (.quoted seen high) (writePoint ascii c) (.quoted (c :: seen) c.isHigh) [] := by
  rcases writePoint_cases ascii c with ⟨e, he, hwrite⟩ | ⟨hquote, hslash, hwrite⟩
  · have hhigh : c.isHigh = false := by
      have hascii := he.ascii
      rw [Bool.eq_false_iff, Ne, isHigh_iff]
      omega
    rw [hwrite]
    exact lexes_short he.escaped he.letter hhigh
  rw [hwrite]
  by_cases hcontrol : c.toNat < 0x20
  · rw [if_pos hcontrol, ← pushUnit_alone h]
    exact lexes_escapeUnit (by omega)
  rw [if_neg hcontrol]
  by_cases hplain : (!ascii || decide (c.toNat < 0x7F)) = true
  · have hhigh : c.isHigh = false := by
      rcases hc with rfl | hc
      · rw [Bool.eq_false_iff, Ne, isHigh_iff]
        simp at hplain
        omega
      · exact CodePoint.isHigh_of_char? hc
    have hstep : Lexer.step d (.quoted seen high) c = .ok (.quoted (c :: seen) false, []) := by
      rw [Lexer.step, if_neg hquote, if_neg hslash, if_neg hcontrol]
    rw [if_pos hplain, hhigh]
    exact .single hstep
  rw [if_neg hplain]
  by_cases hunit : c.toNat < 0x10000
  · rw [if_pos hunit, ← pushUnit_alone h]
    exact lexes_escapeUnit hunit
  · rw [if_neg hunit]
    exact lexes_halves (by omega)

/-- The second half of a pair, right after the first one. -/
theorem lexes_writePoint_low (ha : a.isHigh = true) (hc : c.isLow = true) :
    Lexes d (.quoted (a :: seen) true) (writePoint true c) (.quoted (a.pair c :: seen) false) [] := by
  have hnum := isLow_iff.mp hc
  have htext : writePoint true c = escapeUnit c.toNat := by
    rw [writePoint_wide (by omega), if_pos (by omega)]
  have hlexes : Lexes d (.quoted (a :: seen) true) (escapeUnit c.toNat) _ _ := lexes_escapeUnit (by omega)
  rwa [pushUnit_pair hnum, CodePoint.ofNat?_pairNumber ha hc, ← htext] at hlexes

/-! ## Texts -/

/-- Inside a string an ASCII layout spells a text with its halves joined, whether a high half was
escaped just before or not. -/
theorem lexes_ascii (t : Text) :
    (∀ seen, ∃ high, Lexes d (.quoted seen false) (t.flatMap (writePoint true))
      (.quoted (t.joined.reverse ++ seen) high) []) ∧
    ∀ a seen, a.isHigh = true → ∃ high, Lexes d (.quoted (a :: seen) true)
      (t.flatMap (writePoint true)) (.quoted ((Text.joined (a :: t)).reverse ++ seen) high) [] := by
  induction t with
  | nil => exact ⟨fun seen => ⟨false, .done _⟩, fun a seen _ => ⟨true, .done _⟩⟩
  | cons c t ih =>
    obtain ⟨ihplain, ihhigh⟩ := ih
    -- a code point that starts no pair and ends none
    have hnext : ∀ seen high, (high = true → c.isLow = false) → ∃ high',
        Lexes d (.quoted seen high) ((c :: t).flatMap (writePoint true))
          (.quoted ((Text.joined (c :: t)).reverse ++ seen) high') [] := by
      intro seen high hlow
      have hpoint : Lexes d (.quoted seen high) (writePoint true c) (.quoted (c :: seen) c.isHigh) [] :=
        lexes_writePoint hlow (Or.inl rfl)
      rw [List.flatMap_cons]
      by_cases hc : c.isHigh = true
      · obtain ⟨high', hrest⟩ := ihhigh c seen hc
        rw [hc] at hpoint
        exact ⟨high', hpoint.append hrest⟩
      · rw [Bool.not_eq_true] at hc
        obtain ⟨high', hrest⟩ := ihplain (c :: seen)
        rw [hc] at hpoint
        rw [Text.joined_cons_of_not_isHigh hc, List.reverse_cons, List.append_assoc]
        exact ⟨high', hpoint.append hrest⟩
    refine ⟨fun seen => hnext seen false (fun h => by cases h), fun a seen ha => ?_⟩
    by_cases hc : c.isLow = true
    · obtain ⟨high', hrest⟩ := ihplain (a.pair c :: seen)
      rw [List.flatMap_cons, Text.joined_pair ha hc, List.reverse_cons, List.append_assoc]
      exact ⟨high', (lexes_writePoint_low ha hc).append hrest⟩
    · rw [Bool.not_eq_true] at hc
      rw [Text.joined_cons_cons_of_not_isLow hc, List.reverse_cons, List.append_assoc]
      exact hnext (a :: seen) true fun _ => hc

/-- Inside a string every layout spells a text without halves as it is. -/
theorem lexes_scalar (ht : t.isScalar = true) : ∃ high, Lexes d (.quoted seen false)
    (t.flatMap (writePoint ascii)) (.quoted (t.reverse ++ seen) high) [] := by
  induction t generalizing seen with
  | nil => exact ⟨false, .done _⟩
  | cons c t ih =>
    rw [Text.isScalar, List.all_cons, Bool.and_eq_true] at ht
    have hpoint : Lexes d (.quoted seen false) (writePoint ascii c) (.quoted (c :: seen) c.isHigh) [] :=
      lexes_writePoint (fun h => by cases h) (Or.inr ht.1)
    rw [CodePoint.isHigh_of_char? ht.1] at hpoint
    obtain ⟨high, hrest⟩ := @ih (c :: seen) ht.2
    rw [List.flatMap_cons, List.reverse_cons, List.append_assoc]
    exact ⟨high, hpoint.append hrest⟩

/-- A written string is read as itself with its halves joined. -/
theorem lexes_writeText (ht : d.Allows t) (hascii : ascii = true ∨ d.halves = false) :
    Lexes d .between (writeText ascii t) .between [.atom (.text t.joined)] := by
  have hbody : ∃ high, Lexes d (.quoted [] false) (t.flatMap (writePoint ascii))
      (.quoted t.joined.reverse high) [] := by
    rcases hascii with rfl | hhalves
    · obtain ⟨high, hbody⟩ := (lexes_ascii (d := d) t).1 []
      rw [List.append_nil] at hbody
      exact ⟨high, hbody⟩
    · have hscalar : t.isScalar = true := ht.resolve_left (by rw [hhalves]; decide)
      have hbody : ∃ high, Lexes d (.quoted [] false) (t.flatMap (writePoint ascii)) _ _ :=
        lexes_scalar hscalar
      obtain ⟨high, hbody⟩ := hbody
      rw [List.append_nil] at hbody
      rw [Text.joined_of_isScalar hscalar]
      exact ⟨high, hbody⟩
  obtain ⟨high, hbody⟩ := hbody
  have hclose : Lexer.step d (.quoted t.joined.reverse high) (.scalar '"') =
      .ok (.between, [.atom (.text t.joined)]) := by
    have hallowed : (d.halves || Text.isScalar t.joined.reverse) = true := by
      rw [Bool.or_eq_true, Text.isScalar, List.all_reverse]
      exact ht.joined
    rw [Lexer.step, if_pos rfl, if_pos hallowed, List.reverse_reverse]
  exact .silent rfl (hbody.append (.single hclose))

end ManifestGraph.Json
