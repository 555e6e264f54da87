/-
  Lower case is reached in one step: every code point of a lower-case form is its own lower-case form
  (`mem_lower`), so lower case of lower case changes nothing (`lower_lower`). The table of capitals is
  looked at once, pair by pair: no run of capitals meets the lower-case forms of another (`runs_apart`).

  Of the signs that matter in names only letters come out of letters: an `@` is there before if it is
  there after (`at_mem_lower`). Nor does lower case bring in lone halves (`isScalar_lower`).
-/
import ManifestGraph.Proofs.Text.Halves
import ManifestGraph.Text.Lower

namespace ManifestGraph

namespace CodePoint

/-- A code point that lower case keeps, wherever it stands. -/
structure IsLow (c : CodePoint) : Prop where
  lower_eq : c.lower = [c]
  ne_sigma : c ≠ Text.capitalSigma
  ne_at : c ≠ '@'

/-! ## The table of capitals -/

/-- The run does not contain a lower-case form that lies between two numbers; `odd` says that these
forms are two apart. -/
def missesForms (low high : Nat) (odd : Bool) (run : Nat × Nat × Nat × Int) : Bool :=
  Nat.blt high run.1 || (Nat.blt run.2.1 low
    || (odd && (Nat.beq run.2.2.1 2 && (Nat.ble run.1 low && Nat.beq ((low - run.1) % 2) 1))))

/-- The lower-case forms of a run are small letters, outside of all runs. -/
def goesLow (run : Nat × Nat × Nat × Int) : Bool :=
  let low := (run.1 + run.2.2.2).toNat
  let high := (run.2.1 + run.2.2.2).toNat
  Nat.blt 0x5A low && ((Nat.blt high 0x130 || Nat.blt 0x130 low)
    && lowerRuns.toList.all (missesForms low high (Nat.beq run.2.2.1 2 || Nat.beq run.1 run.2.1)))

theorem runs_goLow : lowerRuns.toList.all goesLow = true := by decide +kernel

/-- A code point with this number stands in the run. -/
def InRun (n : Nat) (run : Nat × Nat × Nat × Int) : Prop :=
  run.1 ≤ n ∧ n ≤ run.2.1 ∧ (n - run.1) % run.2.2.1 = 0

theorem not_inRun_of_missesForms {low high n m : Nat} {run form : Nat × Nat × Nat × Int}
    (h : missesForms low high (Nat.beq form.2.2.1 2 || Nat.beq form.1 form.2.1) run = true)
    (hn : InRun n form) (hlow : (low : Int) = form.1 + form.2.2.2)
    (hhigh : (high : Int) = form.2.1 + form.2.2.2) (hm : (m : Int) = n + form.2.2.2) :
    ¬ InRun m run := by
  obtain ⟨h1, h2, h3⟩ := hn
  rintro ⟨m1, m2, m3⟩
  simp only [missesForms, Bool.or_eq_true, Bool.and_eq_true, Nat.blt_eq, Nat.ble_eq,
    Nat.beq_eq] at h
  rcases h with h | h | ⟨hodd, h4, h5, h6⟩
  · omega
  · omega
  · rw [h4] at m3
    rcases hodd with hodd | hodd
    · rw [hodd] at h3; omega
    · omega

/-- The lower-case form of a capital in a run. -/
theorem isLow_of_inRun {run : Nat × Nat × Nat × Int} {n : Nat} {c : CodePoint}
    (hrun : run ∈ lowerRuns.toList) (hn : InRun n run)
    (hc : ofNat? (n + run.2.2.2).toNat = some c) : c.IsLow := by
  have hnum := toNat_of_ofNat? hc
  have hgood := List.all_eq_true.mp runs_goLow run hrun
  simp only [goesLow, Bool.and_eq_true, Bool.or_eq_true, Nat.blt_eq] at hgood
  obtain ⟨hlow, hdot, hmiss⟩ := hgood
  have hout : ∀ other ∈ lowerRuns.toList, ¬ InRun c.toNat other := fun other hother =>
    not_inRun_of_missesForms (List.all_eq_true.mp hmiss other hother) hn
      (by omega) (by have := hn.1; have := hn.2.1; omega) (by have := hn.1; omega)
  have hne : c.toNat ≠ 0x130 ∧ 0x5A < c.toNat := by
    obtain ⟨h1, h2, _⟩ := hn
    omega
  refine ⟨?_, ?_, ?_⟩
  · unfold lower
    dsimp only
    by_cases hsmall : c.toNat < 0x80
    · rw [if_pos hsmall, if_neg (by simp; omega)]
    · rw [if_neg hsmall, if_neg hne.1]
      have hnone : (lowerRuns.find? fun run =>
          run.1 ≤ c.toNat && c.toNat ≤ run.2.1 && (c.toNat - run.1) % run.2.2.1 = 0) = none := by
        rw [Array.find?_eq_none]
        intro other hother hin
        simp only [Bool.and_eq_true, decide_eq_true_eq] at hin
        exact hout other (Array.mem_toList_iff.mpr hother) ⟨hin.1.1, hin.1.2, hin.2⟩
      rw [hnone]
  · rintro rfl
    -- the capital sigma stands in a run of its own
    exact hout (0x3A3, 0x3AB, 1, 32) (by decide +kernel) ⟨by decide, by decide, by decide⟩
  · rintro rfl
    exact absurd hne.2 (by decide)

theorem isLow_of_ascii {c : CodePoint} (hn : c.toNat < 0x80)
    (hc : c.toNat < 0x41 ∨ 0x5A < c.toNat) (hat : c ≠ '@') : c.IsLow := by
  refine ⟨?_, ?_, hat⟩
  · rw [lower, if_pos hn, if_neg (by simp; omega)]
  · rintro rfl
    exact absurd hn (by decide)

/-- Lower case of one code point consists of small letters, unless it changes nothing. -/
theorem mem_lower {c p : CodePoint} (h : p ∈ c.lower) : p.IsLow ∨ c.lower = [c] := by
  unfold lower at h ⊢
  dsimp only at h ⊢
  split at h
  next hsmall =>
    rw [if_pos hsmall]
    split at h
    next hcap =>
      simp only [Bool.and_eq_true, decide_eq_true_eq] at hcap
      have hnum := toNat_of_ofNat? (Option.mem_toList.mp h)
      refine Or.inl (isLow_of_ascii (by omega) (by omega) ?_)
      rintro rfl
      have : (scalar '@').toNat = 0x40 := rfl
      omega
    next hcap => exact Or.inr (if_neg hcap)
  next hsmall =>
    rw [if_neg hsmall]
    split at h
    next =>
      -- the dotted capital i: a small i and a mark
      refine Or.inl ?_
      rcases List.mem_cons.mp h with rfl | h
      · exact isLow_of_ascii (by decide) (by decide) (by decide)
      · rw [List.mem_singleton.mp h]
        exact ⟨by decide +kernel, by decide, by decide⟩
    next hdot =>
      rw [if_neg hdot]
      split at h
      next run hrun =>
        have hin := Array.find?_some hrun
        simp only [Bool.and_eq_true, decide_eq_true_eq] at hin
        exact Or.inl (isLow_of_inRun (Array.mem_toList_iff.mpr (Array.mem_of_find?_eq_some hrun))
          ⟨hin.1.1, hin.1.2, hin.2⟩ (Option.mem_toList.mp h))
      next => exact Or.inr rfl

/-! ## Halves -/

/-- The lower-case forms of a run are no halves. -/
def missesHalves (run : Nat × Nat × Nat × Int) : Bool :=
  Nat.blt (run.2.1 + run.2.2.2).toNat 0xD800 || Nat.blt 0xDFFF (run.1 + run.2.2.2).toNat

theorem runs_missHalves : lowerRuns.toList.all missesHalves = true := by decide +kernel

theorem isSome_char?_of_toNat {c : CodePoint} (h : c.toNat < 0xD800 ∨ 0xDFFF < c.toNat) :
    c.char?.isSome = true := by
  cases c with
  | scalar c => rfl
  | surrogate n => rw [toNat_surrogate] at h; omega

/-- Lower case of a character consists of characters. -/
theorem isSome_char?_of_mem_lower {c p : CodePoint} (hc : c.char?.isSome = true) (h : p ∈ c.lower) :
    p.char?.isSome = true := by
  unfold lower at h
  dsimp only at h
  split at h
  next =>
    split at h
    next hcap =>
      simp only [Bool.and_eq_true, decide_eq_true_eq] at hcap
      have hnum := toNat_of_ofNat? (Option.mem_toList.mp h)
      exact isSome_char?_of_toNat (by omega)
    next => rw [List.mem_singleton.mp h]; exact hc
  next =>
    split at h
    next => exact List.all_eq_true.mp (Text.isScalar_ofString "i\u0307") p h
    next =>
      split at h
      next run hrun =>
        have hin := Array.find?_some hrun
        simp only [Bool.and_eq_true, decide_eq_true_eq] at hin
        have hmisses := List.all_eq_true.mp runs_missHalves run
          (Array.mem_toList_iff.mpr (Array.mem_of_find?_eq_some hrun))
        simp only [missesHalves, Bool.or_eq_true, Nat.blt_eq] at hmisses
        have hnum := toNat_of_ofNat? (Option.mem_toList.mp h)
        exact isSome_char?_of_toNat (by omega)
      next => rw [List.mem_singleton.mp h]; exact hc

end CodePoint

namespace Text

open CodePoint (IsLow)

/-! ## Whole texts -/

theorem isLow_sigma : IsLow 'σ' := ⟨by decide +kernel, by decide, by decide⟩

theorem isLow_finalSigma : IsLow 'ς' := ⟨by decide +kernel, by decide, by decide⟩

/-- A code point of a lower-case text is its own lower-case form; an `@` was there before. -/
theorem mem_lowerAfter {before t : Text} {p : CodePoint} (h : p ∈ lowerAfter before t) :
    p.IsLow ∨ p = '@' ∧ p ∈ t := by
  induction t generalizing before with
  | nil => exact absurd h List.not_mem_nil
  | cons c t ih =>
    rw [lowerAfter] at h
    rcases List.mem_append.mp h with h | h
    · split at h
      next =>
        split at h
        · rw [List.mem_singleton.mp h]; exact Or.inl isLow_finalSigma
        · rw [List.mem_singleton.mp h]; exact Or.inl isLow_sigma
      next hsigma =>
        rcases CodePoint.mem_lower h with hlow | hsame
        · exact Or.inl hlow
        · rw [hsame, List.mem_singleton] at h
          subst h
          by_cases hat : p = '@'
          · exact Or.inr ⟨hat, List.mem_cons_self⟩
          · exact Or.inl ⟨hsame, hsigma, hat⟩
    · rcases ih h with hlow | ⟨hat, hmem⟩
      · exact Or.inl hlow
      · exact Or.inr ⟨hat, List.mem_cons_of_mem c hmem⟩

theorem at_mem_lower {t : Text} (h : CodePoint.scalar '@' ∈ t.lower) : CodePoint.scalar '@' ∈ t := by
  rcases mem_lowerAfter h with hlow | ⟨_, hmem⟩
  · exact absurd rfl hlow.ne_at
  · exact hmem

/-- A text of small letters is its own lower-case form. -/
theorem lowerAfter_of_stable {t : Text} (before : Text)
    (h : ∀ p ∈ t, p.lower = [p] ∧ p ≠ capitalSigma) : lowerAfter before t = t := by
  induction t generalizing before with
  | nil => rfl
  | cons c t ih =>
    obtain ⟨hc, hsigma⟩ := h c List.mem_cons_self
    rw [lowerAfter, if_neg hsigma, hc, ih _ fun p hp => h p (List.mem_cons_of_mem c hp)]
    rfl

theorem stable_of_mem_lower {t : Text} {p : CodePoint} (h : p ∈ t.lower) :
    p.lower = [p] ∧ p ≠ capitalSigma := by
  rcases mem_lowerAfter h with hlow | ⟨rfl, _⟩
  · exact ⟨hlow.lower_eq, hlow.ne_sigma⟩
  · exact ⟨by decide, by decide⟩

/-- Lower case of lower case changes nothing. -/
theorem lower_lower (t : Text) : t.lower.lower = t.lower :=
  lowerAfter_of_stable [] fun _ => stable_of_mem_lower

theorem isScalar_lowerAfter {t : Text} (before : Text) (h : t.isScalar = true) :
    (lowerAfter before t).isScalar = true := by
  induction t generalizing before with
  | nil => rfl
  | cons c t ih =>
    rw [isScalar, List.all_cons, Bool.and_eq_true] at h
    rw [lowerAfter, isScalar_append]
    refine ⟨?_, ih _ h.2⟩
    split
    next => split <;> exact isScalar_ofString _
    next => exact List.all_eq_true.mpr fun p hp => CodePoint.isSome_char?_of_mem_lower h.1 hp

/-- Lower case of a text without lone halves has none. -/
theorem isScalar_lower {t : Text} (h : t.isScalar = true) : t.lower.isScalar = true :=
  isScalar_lowerAfter [] h

theorem isScalar_replace {t : Text} {a b : CodePoint} (hb : b.char?.isSome = true)
    (h : t.isScalar = true) : (t.replace a b).isScalar = true := by
  refine List.all_eq_true.mpr fun c hc => ?_
  obtain ⟨c', hc', rfl⟩ := List.mem_map.mp hc
  split
  next => exact hb
  next => exact List.all_eq_true.mp h c' hc'

end Text
end ManifestGraph
