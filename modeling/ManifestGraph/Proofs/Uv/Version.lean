/-
  The version that is read from what uv prints. It is made of three numerals with dots between them, and of
  all such places in the text the first one counts, with all the digits that stand there (`Leftmost`,
  `triple?_eq_some`). The output is accepted just if these numerals, as numbers, are not before the first
  release that can export (`ok_checkVersion_iff`).
-/
import ManifestGraph.Proofs.Text.Splitting
import ManifestGraph.Uv.Version

namespace ManifestGraph.Uv

variable {t ds rest before after binary output : Text} {numerals : List Text} {e : Failure}

/-! ## Numerals -/

/-- Digits of any script, at least one. -/
structure IsNumeral (ds : Text) : Prop where
  filled : ds ≠ []
  digits : ∀ c ∈ ds, isDigit c = true

/-- No digit comes next. -/
def Stops (rest : Text) : Prop := ∀ c ∈ rest.head?, isDigit c = false

theorem takeWhile_of_stops (h : Stops rest) : rest.takeWhile isDigit = [] := by
  cases rest with
  | nil => rfl
  | cons c rest => rw [List.takeWhile_cons_of_neg (by rw [h c rfl]; exact Bool.false_ne_true)]

theorem dropWhile_of_stops (h : Stops rest) : rest.dropWhile isDigit = rest := by
  cases rest with
  | nil => rfl
  | cons c rest => rw [List.dropWhile_cons_of_neg (by rw [h c rfl]; exact Bool.false_ne_true)]

theorem stops_dropWhile (t : Text) : Stops (t.dropWhile isDigit) := by
  intro c hc
  have hdrop := List.head?_dropWhile_not isDigit t
  rw [Option.mem_def.mp hc] at hdrop
  simpa using hdrop

theorem stops_dot (rest : Text) : Stops (.scalar '.' :: rest) := by
  rintro c hc
  obtain rfl := Option.mem_some.mp hc
  decide

/-- All the digits at the start are taken. -/
theorem digits?_eq_some : digits? t = some (ds, rest) ↔ IsNumeral ds ∧ Stops rest ∧ t = ds ++ rest := by
  unfold digits?
  constructor
  · intro h
    split at h
    next => cases h
    next hne =>
      cases h
      exact ⟨⟨hne, fun c hc => List.mem_takeWhile_imp hc⟩, stops_dropWhile t,
        List.takeWhile_append_dropWhile.symm⟩
  · rintro ⟨hds, hstops, rfl⟩
    rw [List.takeWhile_append_of_pos hds.digits, List.dropWhile_append_of_pos hds.digits,
      takeWhile_of_stops hstops, dropWhile_of_stops hstops, List.append_nil]
    cases ds with
    | nil => exact absurd rfl hds.filled
    | cons c ds => rfl

theorem dot?_eq_some : dot? t = some rest ↔ t = .scalar '.' :: rest := by
  unfold dot?
  split
  next => simp [eq_comm]
  next hne =>
    constructor
    · intro h; cases h
    · intro h; exact absurd h (hne rest)

/-! ## Versions -/

/-- Three numerals. -/
structure IsTriple (numerals : List Text) : Prop where
  three : numerals.length = 3
  numeral : ∀ ds ∈ numerals, IsNumeral ds

/-- A version as it is written. -/
def dotted (numerals : List Text) : Text := Text.join [.scalar '.'] numerals

theorem dotted_triple (major minor patch : Text) :
    dotted [major, minor, patch] = major ++ .scalar '.' :: (minor ++ .scalar '.' :: patch) := by
  rw [dotted, Text.join_cons_of_ne_nil major (List.cons_ne_nil _ _),
    Text.join_cons_of_ne_nil minor (List.cons_ne_nil _ _), Text.join_singleton]

/-- In a text a version stands behind some other text. No version starts before it, and no digit comes
behind it. -/
structure Leftmost (t before : Text) (numerals : List Text) (after : Text) : Prop where
  text : t = before ++ dotted numerals ++ after
  triple : IsTriple numerals
  whole : Stops after
  first : ∀ before' numerals' after', IsTriple numerals' → t = before' ++ dotted numerals' ++ after' →
    before.length ≤ before'.length

theorem tripleHere?_eq_some : tripleHere? t = some numerals ↔
    IsTriple numerals ∧ ∃ after, Stops after ∧ t = dotted numerals ++ after := by
  constructor
  · intro h
    obtain ⟨⟨major, t₁⟩, htaken, h⟩ := Option.bind_eq_some_iff.mp h
    obtain ⟨t₂, hdot, h⟩ := Option.bind_eq_some_iff.mp h
    obtain ⟨⟨minor, t₃⟩, htaken', h⟩ := Option.bind_eq_some_iff.mp h
    obtain ⟨t₄, hdot', h⟩ := Option.bind_eq_some_iff.mp h
    obtain ⟨⟨patch, after⟩, htaken'', h⟩ := Option.bind_eq_some_iff.mp h
    cases h
    obtain ⟨hmajor, _, rfl⟩ := digits?_eq_some.mp htaken
    obtain rfl := dot?_eq_some.mp hdot
    obtain ⟨hminor, _, rfl⟩ := digits?_eq_some.mp htaken'
    obtain rfl := dot?_eq_some.mp hdot'
    obtain ⟨hpatch, hafter, rfl⟩ := digits?_eq_some.mp htaken''
    refine ⟨⟨rfl, by simp [hmajor, hminor, hpatch]⟩, after, hafter, ?_⟩
    rw [dotted_triple]
    simp only [List.append_assoc, List.cons_append]
  · rintro ⟨⟨hthree, hnumerals⟩, after, hafter, rfl⟩
    obtain ⟨major, minor, patch, rfl⟩ := List.length_eq_three.mp hthree
    have htext : dotted [major, minor, patch] ++ after =
        major ++ .scalar '.' :: (minor ++ .scalar '.' :: (patch ++ after)) := by
      rw [dotted_triple]
      simp only [List.append_assoc, List.cons_append]
    have hmajor : digits? (dotted [major, minor, patch] ++ after) =
        some (major, .scalar '.' :: (minor ++ .scalar '.' :: (patch ++ after))) :=
      digits?_eq_some.mpr ⟨hnumerals _ (by simp), stops_dot _, htext⟩
    have hminor : digits? (minor ++ .scalar '.' :: (patch ++ after)) =
        some (minor, .scalar '.' :: (patch ++ after)) :=
      digits?_eq_some.mpr ⟨hnumerals _ (by simp), stops_dot _, rfl⟩
    have hpatch : digits? (patch ++ after) = some (patch, after) :=
      digits?_eq_some.mpr ⟨hnumerals _ (by simp), hafter, rfl⟩
    refine Option.bind_eq_some_iff.mpr ⟨_, hmajor, Option.bind_eq_some_iff.mpr
      ⟨_, dot?_eq_some.mpr rfl, Option.bind_eq_some_iff.mpr ⟨_, hminor, Option.bind_eq_some_iff.mpr
        ⟨_, dot?_eq_some.mpr rfl, Option.bind_eq_some_iff.mpr ⟨_, hpatch, rfl⟩⟩⟩⟩⟩

/-- Where a version starts, one with all its digits does. -/
theorem isSome_tripleHere? (h : IsTriple numerals) (after : Text) :
    (tripleHere? (dotted numerals ++ after)).isSome := by
  obtain ⟨hthree, hnumerals⟩ := h
  obtain ⟨major, minor, patch, rfl⟩ := List.length_eq_three.mp hthree
  have hpatch : IsNumeral (patch ++ after.takeWhile isDigit) := by
    refine ⟨fun hnil => (hnumerals patch (by simp)).filled (List.append_eq_nil_iff.mp hnil).1, ?_⟩
    exact List.forall_mem_append.mpr
      ⟨(hnumerals patch (by simp)).digits, fun c hc => List.mem_takeWhile_imp hc⟩
  have htriple : IsTriple [major, minor, patch ++ after.takeWhile isDigit] :=
    ⟨rfl, by simp [hnumerals, hpatch]⟩
  have htext : dotted [major, minor, patch] ++ after =
      dotted [major, minor, patch ++ after.takeWhile isDigit] ++ after.dropWhile isDigit := by
    rw [dotted_triple, dotted_triple]
    simp only [List.append_assoc, List.cons_append, List.takeWhile_append_dropWhile]
  exact Option.isSome_of_eq_some
    (tripleHere?_eq_some.mpr ⟨htriple, _, stops_dropWhile after, htext⟩)

/-- Where no version starts, the leftmost one is that of the rest. -/
theorem leftmost_cons_iff {c : CodePoint}
    (hnone : ∀ numerals after, IsTriple numerals → c :: t ≠ dotted numerals ++ after) :
    (∃ before after, Leftmost (c :: t) before numerals after) ↔
      ∃ before after, Leftmost t before numerals after := by
  constructor
  · rintro ⟨before, after, h⟩
    cases before with
    | nil => exact absurd h.text (hnone numerals after h.triple)
    | cons c' before =>
      refine ⟨before, after, (List.cons.inj h.text).2, h.triple, h.whole, ?_⟩
      intro before' numerals' after' htriple htext
      exact Nat.le_of_succ_le_succ (h.first (c :: before') numerals' after' htriple (by rw [htext]; rfl))
  · rintro ⟨before, after, h⟩
    refine ⟨c :: before, after, by rw [h.text]; rfl, h.triple, h.whole, ?_⟩
    intro before' numerals' after' htriple htext
    cases before' with
    | nil => exact absurd htext (hnone numerals' after' htriple)
    | cons c' before' =>
      exact Nat.succ_le_succ (h.first before' numerals' after' htriple (List.cons.inj htext).2)

/-- The version that is found is the first one of the text. -/
theorem triple?_eq_some :
    triple? t = some numerals ↔ ∃ before after, Leftmost t before numerals after := by
  induction t with
  | nil =>
    constructor
    · intro h; cases h
    · rintro ⟨before, after, htext, ⟨hthree, _⟩, _⟩
      obtain ⟨major, minor, patch, rfl⟩ := List.length_eq_three.mp hthree
      rw [dotted_triple] at htext
      simp at htext
  | cons c t ih =>
    rw [triple?]
    split
    next found hhere =>
      obtain ⟨htriple, after, hafter, htext⟩ := tripleHere?_eq_some.mp hhere
      constructor
      · intro h
        cases h
        exact ⟨[], after, htext, htriple, hafter, fun _ _ _ _ _ => Nat.zero_le _⟩
      · -- a version that is leftmost can only be the one that starts here
        rintro ⟨before, after', h⟩
        have hbefore : before = [] :=
          List.eq_nil_of_length_eq_zero (Nat.le_zero.mp (h.first [] found after htriple htext))
        have hsame : tripleHere? (c :: t) = some numerals :=
          tripleHere?_eq_some.mpr ⟨h.triple, after', h.whole, by rw [h.text, hbefore]; rfl⟩
        rw [hhere] at hsame
        exact hsame
    next hhere =>
      have hnone : ∀ numerals' after', IsTriple numerals' → c :: t ≠ dotted numerals' ++ after' := by
        intro numerals' after' h htext
        have hsome := isSome_tripleHere? h after'
        rw [← htext, hhere] at hsome
        cases hsome
      rw [ih]
      exact (leftmost_cons_iff hnone).symm

/-! ## Releases -/

/-- Versions are ordered like the lists of their numbers. -/
theorem Version.lt_iff (a b : Version) :
    a.lt b = true ↔ List.Lex (· < ·) [a.major, a.minor, a.patch] [b.major, b.minor, b.patch] := by
  simp [Version.lt, List.cons_lex_cons_iff]

/-- The first version in the text can be read, and it is not before the first release that exports. -/
def Supports (output : Text) : Prop :=
  ∃ before numerals after, Leftmost output before numerals after ∧
    (∀ ds ∈ numerals, ds.length ≤ Text.maxNumeralDigits) ∧
    ¬ List.Lex (· < ·) (numerals.map numeralValue) [0, 9, 11]

/-- The first version in the text, if there is one, has no numeral that is too long to be read. -/
def Legible (output : Text) : Prop :=
  ∀ before numerals after, Leftmost output before numerals after →
    ∀ ds ∈ numerals, ds.length ≤ Text.maxNumeralDigits

/-- The failure is a structured error without a family of its own. -/
def IsGeneral (e : Failure) : Prop := ∃ detail, e.fault.reason = .inFamily .general detail

/-- The version that is found is the only one that is leftmost, so it decides. -/
theorem supports_iff (hfound : triple? output = some numerals) : Supports output ↔
    (∀ ds ∈ numerals, ds.length ≤ Text.maxNumeralDigits) ∧
      ¬ List.Lex (· < ·) (numerals.map numeralValue) [0, 9, 11] := by
  constructor
  · rintro ⟨before, numerals', after, hleftmost, h⟩
    obtain rfl : numerals = numerals' :=
      Option.some.inj (hfound.symm.trans (triple?_eq_some.mpr ⟨before, after, hleftmost⟩))
    exact h
  · obtain ⟨before, after, hleftmost⟩ := triple?_eq_some.mp hfound
    exact fun h => ⟨before, numerals, after, hleftmost, h⟩

/-- What uv prints is accepted just if it names a release that can export. -/
theorem ok_checkVersion_iff : (∃ v, checkVersion binary output = .ok v) ↔ Supports output := by
  unfold checkVersion
  split
  next major minor patch hfound =>
    rw [supports_iff hfound]
    split
    next ds hlong =>
      have hlength := List.find?_some hlong
      constructor
      · rintro ⟨v, h⟩; cases h
      · rintro ⟨hshort, _⟩
        exact absurd (hshort ds (List.mem_of_find?_eq_some hlong)) (by simpa using hlength)
    next hshort =>
      have hshort : ∀ ds ∈ [major, minor, patch], ds.length ≤ Text.maxNumeralDigits := by
        simpa using hshort
      dsimp only
      split
      next hbefore =>
        rw [Version.lt_iff] at hbefore
        constructor
        · rintro ⟨v, h⟩; cases h
        · rintro ⟨_, h⟩; exact absurd hbefore h
      next hnot =>
        rw [Version.lt_iff] at hnot
        exact ⟨fun _ => ⟨hshort, hnot⟩, fun _ => ⟨_, rfl⟩⟩
  next hnone =>
    constructor
    · rintro ⟨v, h⟩; cases h
    · rintro ⟨before, numerals, after, hleftmost, _⟩
      obtain ⟨major, minor, patch, rfl⟩ := List.length_eq_three.mp hleftmost.triple.three
      exact absurd (triple?_eq_some.mpr ⟨before, after, hleftmost⟩) (hnone major minor patch)

example : (checkVersion "uv" "rustc 1 uv 0.10.0.4").toOption = some ⟨0, 10, 0⟩ := by decide +kernel

/-- What is not accepted fails with a structured error, unless a numeral is too long. -/
theorem isGeneral_checkVersion (hlegible : Legible output) (h : checkVersion binary output = .error e) :
    IsGeneral e := by
  unfold checkVersion at h
  split at h
  next major minor patch hfound =>
    obtain ⟨before, after, hleftmost⟩ := triple?_eq_some.mp hfound
    split at h
    next ds hlong =>
      have hshort := hlegible before _ after hleftmost ds (List.mem_of_find?_eq_some hlong)
      have hlength := List.find?_some hlong
      exact absurd hshort (by simpa using hlength)
    next =>
      dsimp only at h
      split at h
      next => cases h; exact ⟨_, rfl⟩
      next => cases h
  next => cases h; exact ⟨_, rfl⟩

end ManifestGraph.Uv
