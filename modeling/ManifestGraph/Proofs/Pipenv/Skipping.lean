/-
  What is decided of a marker. The text is searched for the name of the platform's variable, for a platform in
  quotes and for `!=`; of a marker that is written in any way, this finds the first platform that a literal of
  it names, and whether some comparison is one with `!=` (`Marker.guess`, `markerMatches_eq`). The guess is one
  comparison for all of them. Where it fails, the marker is false under all values of the other variables just if
  its platform comparisons alone make it so (`Marker.eval_eq_false_iff`).
-/
import ManifestGraph.Proofs.Pipenv.Markers
import Mathlib.Data.List.Find

namespace ManifestGraph.Pipenv

/-! ## What a marker means -/

/-- What the variables stand for. -/
abbrev Environment := Variable → Text

/-- The platform of an environment. -/
def Environment.platform (env : Environment) : Text := env .sysPlatform

/-- Whether the platform is a given one, or is another one than that. -/
structure PlatformTest where
  platform : Text
  differs : Bool
  deriving DecidableEq

/-- The test comes out true on a platform. -/
def PlatformTest.holds (g : PlatformTest) (p : Text) : Bool := (p == g.platform) != g.differs

/-- The test that a comparison is, if it compares the platform with one of the known ones. -/
def Comparison.test? (c : Comparison) : Option PlatformTest :=
  if c.subject = .sysPlatform ∧ c.reversed = false ∧ platforms.contains c.literal.content then
    match c.operator with
    | .sign .eq => some ⟨c.literal.content, false⟩
    | .sign .ne => some ⟨c.literal.content, true⟩
    | _ => none
  else none

/-- How comparisons come out, given the value of their variable. Platforms are compared as texts; about other
comparisons, such as those of versions, nothing is said. -/
structure Comparing where
  holds : Comparison → Text → Bool
  tests : ∀ c g s, c.test? = some g → holds c s = g.holds s

/-- The marker is true in an environment. -/
def Marker.eval (w : Comparing) (env : Environment) : Marker → Bool
  | comparison c => w.holds c (env c.subject)
  | both a b => a.eval w env && b.eval w env
  | either a b => a.eval w env || b.eval w env

/-- The marker could be true on a platform, as far as its platform tests tell. -/
def Marker.possible (p : Text) : Marker → Bool
  | comparison c => c.test?.all fun g => g.holds p
  | both a b => a.possible p && b.possible p
  | either a b => a.possible p || b.possible p

variable {m : Marker} {t pat p : Text} {w : Comparing} {env : Environment} {c : Comparison} {l : Literal}
  {ts : List Token}

theorem Comparison.subject_of_test? {g : PlatformTest} (h : c.test? = some g) : c.subject = .sysPlatform := by
  unfold test? at h
  split at h
  next hall => exact hall.1
  next => cases h

/-- A comparison that is false just if it is a platform test that is. -/
def Comparing.generous : Comparing where
  holds c s := c.test?.all fun g => g.holds s
  tests c g s h := by rw [h]; rfl

theorem Marker.possible_of_eval (h : m.eval w env = true) : m.possible env.platform = true := by
  induction m with
  | comparison c =>
    show c.test?.all _ = true
    cases htest : c.test? with
    | none => rfl
    | some g =>
      have heval : w.holds c (env c.subject) = true := h
      rw [w.tests c g _ htest, Comparison.subject_of_test? htest] at heval
      exact heval
  | both a b iha ihb =>
    have heval : (a.eval w env && b.eval w env) = true := h
    rw [Bool.and_eq_true] at heval
    exact Bool.and_eq_true_iff.mpr ⟨iha heval.1, ihb heval.2⟩
  | either a b iha ihb =>
    have heval : (a.eval w env || b.eval w env) = true := h
    rw [Bool.or_eq_true] at heval
    exact Bool.or_eq_true_iff.mpr (heval.imp iha ihb)

theorem Marker.eval_generous (h : env.platform = p) : m.eval .generous env = m.possible p := by
  induction m with
  | comparison c =>
    show (c.test?.all fun g => g.holds (env c.subject)) = c.test?.all fun g => g.holds p
    cases htest : c.test? with
    | none => rfl
    | some g => rw [Comparison.subject_of_test? htest, ← h]; rfl
  | both a b iha ihb => rw [eval, possible, iha, ihb]
  | either a b iha ihb => rw [eval, possible, iha, ihb]

/-- On a platform the marker is false in all environments just if its platform tests make it so. -/
theorem Marker.eval_eq_false_iff :
    (∀ w env, env.platform = p → m.eval w env = false) ↔ m.possible p = false := by
  constructor
  · intro h
    have heval := h .generous (fun _ => p) rfl
    rwa [eval_generous rfl] at heval
  · rintro h w env rfl
    rw [← Bool.not_eq_true]
    intro heval
    cases h.symm.trans (possible_of_eval heval)

/-! ## What its text tells -/

theorem isInfixOf_iff (pat t : Text) : pat.isInfixOf t = true ↔ pat <:+: t := by
  induction t with
  | nil => rw [Text.isInfixOf, List.isEmpty_iff, List.infix_nil]
  | cons c t ih =>
    rw [Text.isInfixOf, Bool.or_eq_true, List.isPrefixOf_iff_prefix, ih, List.infix_cons_iff]

/-- The literal names a platform: it is the platform, or has it in the other quotes in it. -/
def Literal.names (l : Literal) (p : Text) : Bool :=
  l.content == p || (quoted (!l.double) p).isInfixOf l.content

/-- The comparison speaks of the variable of the platform, be it in its literal. -/
def Comparison.speaks (c : Comparison) : Bool :=
  c.subject = .sysPlatform || Text.isInfixOf "sys_platform" c.literal.content

/-- The comparison has `!=` in it, be it in its literal. -/
def Comparison.differs (c : Comparison) : Bool :=
  c.operator = .sign .ne || Text.isInfixOf "!=" c.literal.content

/-- The test for which a marker is taken. -/
def Marker.guess (m : Marker) : Option PlatformTest :=
  if m.comparisons.any Comparison.speaks then
    (platforms.find? fun p => m.comparisons.any fun c => c.literal.names p).map fun p =>
      ⟨p, m.comparisons.any Comparison.differs⟩
  else none

/-- The tokens of a marker that belong to no comparison. -/
def connectives : List Token := [.word .conjunction, .word .disjunction, .opening, .closing]

theorem exists_mem_append_iff {α : Type} {P : α → Prop} {as bs : List α} :
    (∃ a ∈ as ++ bs, P a) ↔ (∃ a ∈ as, P a) ∨ ∃ b ∈ bs, P b := by
  simp only [List.mem_append, or_and_right, exists_or]

/-- What no connective has, a token has just if one of some comparison has it. -/
theorem Reads.exists_iff {P : Token → Prop} {level : Level} (h : Reads level m ts)
    (hconnectives : ∀ token ∈ connectives, ¬ P token) :
    (∃ token ∈ ts, P token) ↔ ∃ c ∈ m.comparisons, ∃ token ∈ c.tokens, P token := by
  have hconjunction := hconnectives (.word .conjunction) (by simp [connectives])
  have hdisjunction := hconnectives (.word .disjunction) (by simp [connectives])
  have hopening := hconnectives .opening (by simp [connectives])
  have hclosing := hconnectives .closing (by simp [connectives])
  induction h with
  | comparison c => simp [Marker.comparisons]
  | grouped h ih => simpa [hopening, hclosing, or_and_right, exists_or] using ih
  | unit h ih => exact ih
  | both ha hb iha ihb =>
    rw [exists_mem_append_iff, List.exists_mem_cons_iff, Marker.comparisons, exists_mem_append_iff,
      or_iff_right hconjunction]
    exact or_congr iha ihb
  | all h ih => exact ih
  | either ha hb iha ihb =>
    rw [exists_mem_append_iff, List.exists_mem_cons_iff, Marker.comparisons, exists_mem_append_iff,
      or_iff_right hdisjunction]
    exact or_congr iha ihb

theorem Comparison.exists_token_iff {P : Token → Prop} :
    (∃ token ∈ c.tokens, P token) ↔ P (.word (.name c.subject)) ∨
      (∃ token ∈ c.operator.tokens, P token) ∨ P (.literal c.literal) := by
  unfold tokens
  split
  next =>
    rw [exists_mem_append_iff, List.exists_mem_cons_iff, List.exists_mem_cons_iff]
    simp only [List.not_mem_nil, false_and, exists_false, or_false]
    exact or_comm.trans (or_congr_right or_comm)
  next =>
    rw [exists_mem_append_iff, List.exists_mem_cons_iff, List.exists_mem_cons_iff]
    simp only [List.not_mem_nil, false_and, exists_false, or_false]
    exact or_assoc

/-- A whole fragment that no connective has stands in a marker just if it stands in one of its comparisons. -/
theorem Marker.Spells.infix_iff (h : m.Spells t) (hwhole : Whole pat)
    (hconnectives : ∀ token ∈ connectives, ¬ pat <:+: token.text) :
    pat <:+: t ↔ ∃ c ∈ m.comparisons, pat <:+: c.subject.text ∨
      (∃ token ∈ c.operator.tokens, pat <:+: token.text) ∨ pat <:+: c.literal.text := by
  obtain ⟨ts, hreads, hlaid⟩ := h
  rw [hlaid.infix_iff hwhole, hreads.exists_iff hconnectives]
  simp only [Comparison.exists_token_iff]
  rfl

/-! ## Fragments of literals -/

variable {a : CodePoint}

theorem infix_cons_of_not_mem (h : a ∉ pat) : pat <:+: a :: t ↔ pat <:+: t := by
  rw [List.infix_cons_iff]
  refine ⟨?_, Or.inr⟩
  rintro (hstart | hinside)
  · cases pat with
    | nil => exact List.nil_infix
    | cons b pat =>
      obtain ⟨rfl, _⟩ := List.cons_prefix_cons.mp hstart
      exact absurd List.mem_cons_self h
  · exact hinside

theorem infix_concat_of_not_mem (h : a ∉ pat) : pat <:+: t ++ [a] ↔ pat <:+: t := by
  rw [← List.reverse_infix, List.reverse_append, List.reverse_singleton, List.singleton_append,
    infix_cons_of_not_mem (fun hmem => h (List.mem_reverse.mp hmem)), List.reverse_infix]

/-- A fragment without its quotation mark stands in a literal just if it stands between the marks. -/
theorem Literal.infix_text_iff (h : quotation l.double ∉ pat) : pat <:+: l.text ↔ pat <:+: l.content := by
  rw [text, quoted, infix_cons_of_not_mem h, infix_concat_of_not_mem h]

/-- A text in the quotation marks of a literal stands in it just if it is what stands between the marks. -/
theorem Literal.quoted_infix_text_iff : quoted l.double p <:+: l.text ↔ l.content = p := by
  constructor
  · rintro ⟨before, after, h⟩
    cases before with
    | nil =>
      obtain ⟨_, hrest⟩ := List.cons.inj h
      have hsplit : p ++ quotation l.double :: after = l.content ++ quotation l.double :: [] := by
        rw [← hrest]
        simp
      exact ((List.append_cons_inj_of_notMem l.closed List.not_mem_nil).mp hsplit.symm).1
    | cons b before =>
      obtain ⟨_, hrest⟩ := List.cons.inj h
      have hsplit : l.content ++ quotation l.double :: [] =
          before ++ quotation l.double :: (p ++ quotation l.double :: after) := by
        rw [← hrest]
        simp [quoted]
      have hnil := ((List.append_cons_inj_of_notMem l.closed List.not_mem_nil).mp hsplit).2.2
      exact absurd hnil.symm (by simp)
  · rintro rfl
    exact List.infix_refl _

/-! ## The guess -/

theorem any_comparison_iff {f : Comparison → Bool} {P : Comparison → Prop}
    (h : ∀ c, P c ↔ f c = true) : (∃ c ∈ m.comparisons, P c) ↔ m.comparisons.any f = true := by
  rw [List.any_eq_true]
  exact exists_congr fun c => and_congr_right fun _ => h c

theorem Marker.Spells.speaks_eq (h : m.Spells t) :
    Text.isInfixOf "sys_platform" t = m.comparisons.any Comparison.speaks := by
  have hwhole : Whole "sys_platform" := whole_of_wordPoints (by decide) (by decide)
  have hsubject : ∀ v : Variable, Text.ofString "sys_platform" <:+: v.text ↔ v = .sysPlatform :=
    fun v => by cases v <;> decide
  have hoperator : ∀ o : Operator, ¬ ∃ token ∈ o.tokens, Text.ofString "sys_platform" <:+: token.text := by
    rintro (s | _ | _)
    · cases s <;> decide
    all_goals decide
  have hquote : ∀ double, quotation double ∉ Text.ofString "sys_platform" := by decide
  rw [Bool.eq_iff_iff, isInfixOf_iff, h.infix_iff hwhole (by decide)]
  refine any_comparison_iff fun c => ?_
  rw [Comparison.speaks, hsubject, or_iff_right (hoperator _), Literal.infix_text_iff (hquote _),
    Bool.or_eq_true, decide_eq_true_eq, isInfixOf_iff]

theorem Marker.Spells.differs_eq (h : m.Spells t) :
    Text.isInfixOf "!=" t = m.comparisons.any Comparison.differs := by
  have hsubject : ∀ v : Variable, ¬ Text.ofString "!=" <:+: v.text := fun v => by cases v <;> decide
  have hoperator : ∀ o : Operator,
      (∃ token ∈ o.tokens, Text.ofString "!=" <:+: token.text) ↔ o = .sign .ne := by
    rintro (s | _ | _)
    · cases s <;> decide
    all_goals decide
  have hquote : ∀ double, quotation double ∉ Text.ofString "!=" := by decide
  rw [Bool.eq_iff_iff, isInfixOf_iff, h.infix_iff whole_differs (by decide)]
  refine any_comparison_iff fun c => ?_
  rw [Comparison.differs, or_iff_right (hsubject _), hoperator, Literal.infix_text_iff (hquote _),
    Bool.or_eq_true, decide_eq_true_eq, isInfixOf_iff]

theorem quotation_mem_quoted (double : Bool) (p : Text) : quotation double ∈ quoted double p :=
  List.mem_cons_self

/-- Only literals have quotation marks. -/
theorem Token.exists_literal {double : Bool} {token : Token} (h : quotation double ∈ token.text) :
    ∃ l, token = .literal l := by
  cases token with
  | word w => cases (isWordPoint_quotation double).symm.trans (w.isWordPoint_of_mem h)
  | sign s =>
    have hsign : quotation double ∉ s.text := by cases double <;> cases s <;> decide
    exact absurd h hsign
  | literal l => exact ⟨l, rfl⟩
  | opening => exact absurd h (by cases double <;> decide)
  | closing => exact absurd h (by cases double <;> decide)

theorem ne_literal_of_connective {token : Token} (h : token ∈ connectives) : ∀ l, token ≠ .literal l := by
  rintro l rfl
  simp [connectives] at h

theorem ne_literal_of_operator {o : Operator} {token : Token} (h : token ∈ o.tokens) :
    ∀ l, token ≠ .literal l := by
  rintro l rfl
  cases o <;> simp [Operator.tokens] at h

/-- A literal has a platform in quotes of either kind in it if it names the platform. -/
theorem Literal.names_iff (hp : ∀ double, quotation double ∉ p) :
    (quoted false p <:+: l.text ∨ quoted true p <:+: l.text) ↔ l.names p = true := by
  have hother : quotation l.double ∉ quoted (!l.double) p := by
    unfold quoted
    simp only [List.mem_cons, List.mem_append, List.not_mem_nil, or_false, not_or]
    have hne : quotation l.double ≠ quotation (!l.double) := by cases l.double <;> decide
    exact ⟨hne, hp _, hne⟩
  rw [names, Bool.or_eq_true, beq_iff_eq, isInfixOf_iff, ← infix_text_iff hother,
    ← quoted_infix_text_iff (l := l)]
  cases l.double with
  | false => exact Iff.rfl
  | true => exact or_comm

/-- A platform in quotes stands in a marker just if it stands in one of its literals. -/
theorem Marker.Spells.quoted_infix_iff (h : m.Spells t) (double : Bool) (hp : p ∈ platforms) :
    quoted double p <:+: t ↔ ∃ c ∈ m.comparisons, quoted double p <:+: c.literal.text := by
  have hno : ∀ token : Token, (∀ l, token ≠ .literal l) → ¬ quoted double p <:+: token.text := by
    intro token htoken hin
    obtain ⟨l, hl⟩ := Token.exists_literal (hin.subset (quotation_mem_quoted double p))
    exact htoken l hl
  rw [h.infix_iff (whole_quoted double hp) fun token htoken => hno token (ne_literal_of_connective htoken)]
  refine exists_congr fun c => and_congr_right fun _ => ?_
  have hsubject : ¬ quoted double p <:+: c.subject.text := hno (.word (.name c.subject)) fun l => nofun
  have hoperator : ¬ ∃ token ∈ c.operator.tokens, quoted double p <:+: token.text :=
    fun ⟨token, htoken, hin⟩ => hno token (ne_literal_of_operator htoken) hin
  rw [or_iff_right hsubject, or_iff_right hoperator]

theorem Marker.Spells.names_eq (h : m.Spells t) (hp : p ∈ platforms) :
    Pipenv.names t p = m.comparisons.any fun c => c.literal.names p := by
  have hquote : ∀ double, quotation double ∉ p := fun double hmem =>
    nomatch (isWordPoint_quotation double).symm.trans (isWordPoint_of_platform hp _ hmem)
  show ((quoted false p).isInfixOf t || (quoted true p).isInfixOf t) = _
  rw [Bool.eq_iff_iff, Bool.or_eq_true, isInfixOf_iff, isInfixOf_iff, h.quoted_infix_iff false hp,
    h.quoted_infix_iff true hp, ← exists_or]
  simp only [← and_or_left]
  exact any_comparison_iff fun c => Literal.names_iff hquote

/-- A marker that is written in any way is taken for its guess. -/
theorem Marker.Spells.markerMatches_eq (h : m.Spells t) (p : Text) :
    markerMatches t p = m.guess.all fun g => g.holds (decidingPlatform p) := by
  have hfind : platforms.find? (Pipenv.names t) =
      platforms.find? fun p => m.comparisons.any fun c => c.literal.names p :=
    List.find?_congr fun p hp => h.names_eq hp
  unfold markerMatches Marker.guess
  dsimp only
  rw [h.speaks_eq, h.differs_eq, hfind]
  cases m.comparisons.any Comparison.speaks with
  | false => rfl
  | true =>
    cases platforms.find? fun p => m.comparisons.any fun c => c.literal.names p <;> rfl

/-- A single platform test is taken for itself. -/
theorem guess_of_test? {g : PlatformTest} (h : c.test? = some g) : (Marker.comparison c).guess = some g := by
  obtain ⟨subject, operator, ⟨double, content, closed⟩, reversed⟩ := c
  unfold Comparison.test? at h
  split at h
  next hall =>
    obtain ⟨rfl, rfl, hcontent⟩ := hall
    have hknown : content = "win32" ∨ content = "darwin" ∨ content = "linux" := by
      simpa [platforms] using hcontent
    dsimp only at h
    split at h
    next => cases h; rcases hknown with rfl | rfl | rfl <;> cases double <;> rfl
    next => cases h; rcases hknown with rfl | rfl | rfl <;> cases double <;> rfl
    next => cases h
  next => cases h

/-- So a single test, in whatever parentheses, is decided as it comes out. -/
theorem markerMatches_of_test? {g : PlatformTest} (h : c.test? = some g)
    (hspells : (Marker.comparison c).Spells t) (henv : env.platform = decidingPlatform p) :
    markerMatches t p = (Marker.comparison c).eval w env := by
  rw [hspells.markerMatches_eq, guess_of_test? h, ← henv]
  show g.holds env.platform = w.holds c (env c.subject)
  rw [w.tests c g _ h, Comparison.subject_of_test? h]
  rfl

end ManifestGraph.Pipenv
