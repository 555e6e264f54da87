/-
  Markers: conditions on the environment of a package, built with `and`, `or` and parentheses from comparisons
  of a variable with a literal. A marker is written as tokens (`Reads`, where `and` binds stronger than `or`),
  and these as a text, with blanks before and after each of them (`Laid`). Two tokens cannot be taken for one
  another's parts: a fragment that no two tokens make together stands in the text just if it stands in one of
  them (`Laid.infix_iff`). Such fragments are all words, `!=`, and the platforms in quotes.
-/
import ManifestGraph.Pipenv.Marker
import Mathlib.Data.List.Infix

namespace ManifestGraph.Pipenv

/-! ## Tokens -/

/-- What a marker can ask about the environment. -/
inductive Variable where
  | osName
  | sysPlatform
  | platformMachine
  | platformImplementation
  | platformRelease
  | platformSystem
  | platformVersion
  | pythonVersion
  | pythonFullVersion
  | implementationName
  | implementationVersion
  | extra
  deriving DecidableEq

/-- The name of a variable. -/
def Variable.text : Variable → Text
  | osName => "os_name"
  | sysPlatform => "sys_platform"
  | platformMachine => "platform_machine"
  | platformImplementation => "platform_python_implementation"
  | platformRelease => "platform_release"
  | platformSystem => "platform_system"
  | platformVersion => "platform_version"
  | pythonVersion => "python_version"
  | pythonFullVersion => "python_full_version"
  | implementationName => "implementation_name"
  | implementationVersion => "implementation_version"
  | extra => "extra"

/-- An operator that is not a word. -/
inductive Sign where
  | eq
  | ne
  | le
  | lt
  | ge
  | gt
  | compatible
  | identical
  deriving DecidableEq

/-- How a sign is written. -/
def Sign.text : Sign → Text
  | eq => "=="
  | ne => "!="
  | le => "<="
  | lt => "<"
  | ge => ">="
  | gt => ">"
  | compatible => "~="
  | identical => "==="

/-- How a variable is compared with a literal. -/
inductive Operator where
  | sign (s : Sign)
  | within
  | notWithin
  deriving DecidableEq

/-- A quotation mark. -/
def quotation (double : Bool) : CodePoint := if double then '"' else '\''

/-- A text in quotation marks. -/
def quoted (double : Bool) (t : Text) : Text := quotation double :: (t ++ [quotation double])

/-- A text between two quotation marks, which it does not contain. -/
structure Literal where
  double : Bool := false
  content : Text
  closed : quotation double ∉ content
  deriving DecidableEq

/-- How a literal is written. -/
def Literal.text (l : Literal) : Text := quoted l.double l.content

/-- A word outside of literals. -/
inductive Word where
  | name (v : Variable)
  | conjunction
  | disjunction
  | negation
  | within

/-- How a word is written. -/
def Word.text : Word → Text
  | name v => v.text
  | conjunction => "and"
  | disjunction => "or"
  | negation => "not"
  | within => "in"

/-- A part of a marker that is written without blanks in it, unless they are within a literal. -/
inductive Token where
  | word (w : Word)
  | sign (s : Sign)
  | literal (l : Literal)
  | opening
  | closing

namespace Token

/-- How a token is written. -/
def text : Token → Text
  | word w => w.text
  | sign s => s.text
  | literal l => l.text
  | opening => "("
  | closing => ")"

/-- The token is a word. -/
def isWord : Token → Bool
  | word _ => true
  | _ => false

/-- How the tokens other than literals are written. -/
def fixedTexts : List Text :=
  ["os_name", "sys_platform", "platform_machine", "platform_python_implementation", "platform_release",
    "platform_system", "platform_version", "python_version", "python_full_version", "implementation_name",
    "implementation_version", "extra", "and", "or", "not", "in",
    "==", "!=", "<=", "<", ">=", ">", "~=", "===", "(", ")"]

/-- What is said of all texts of tokens has to be looked at for literals, and for finitely many others. -/
theorem forall_text {P : Text → Prop} (hfixed : ∀ t ∈ fixedTexts, P t) (hliteral : ∀ l : Literal, P l.text)
    (token : Token) : P token.text := by
  cases token with
  | word w =>
    refine hfixed _ ?_
    cases w with
    | name v => cases v <;> decide
    | _ => decide
  | sign s => exact hfixed _ (by cases s <;> decide)
  | literal l => exact hliteral l
  | _ => exact hfixed _ (by decide)

end Token

/-- A code point of words. -/
def isWordPoint (c : CodePoint) : Bool := c.isLetter || c.isDigit || c = '_'

/-- A blank between tokens. -/
def isGap (c : CodePoint) : Bool := c = ' ' || c = '\t'

/-! ## Markers -/

/-- A comparison of a variable with a literal, which may also stand on the left. -/
structure Comparison where
  subject : Variable
  operator : Operator
  literal : Literal
  reversed : Bool := false
  deriving DecidableEq

/-- The tokens of an operator. -/
def Operator.tokens : Operator → List Token
  | sign s => [.sign s]
  | within => [.word .within]
  | notWithin => [.word .negation, .word .within]

/-- The tokens of a comparison. -/
def Comparison.tokens (c : Comparison) : List Token :=
  if c.reversed then .literal c.literal :: c.operator.tokens ++ [.word (.name c.subject)]
  else .word (.name c.subject) :: c.operator.tokens ++ [.literal c.literal]

/-- A condition on the environment. -/
inductive Marker where
  | comparison (c : Comparison)
  | both (a b : Marker)
  | either (a b : Marker)

/-- The comparisons of a marker. -/
def Marker.comparisons : Marker → List Comparison
  | comparison c => [c]
  | both a b => a.comparisons ++ b.comparisons
  | either a b => a.comparisons ++ b.comparisons

/-- Where a marker can stand: as one side of `and`, as one side of `or`, or alone. -/
inductive Level where
  | unit
  | all
  | any

/-- The tokens are a way to write a marker. -/
inductive Reads : Level → Marker → List Token → Prop
  | comparison (c : Comparison) : Reads .unit (.comparison c) c.tokens
  | grouped {m : Marker} {ts : List Token} (h : Reads .any m ts) :
      Reads .unit m (.opening :: ts ++ [.closing])
  | unit {m : Marker} {ts : List Token} (h : Reads .unit m ts) : Reads .all m ts
  | both {a b : Marker} {ts us : List Token} (ha : Reads .all a ts) (hb : Reads .unit b us) :
      Reads .all (.both a b) (ts ++ .word .conjunction :: us)
  | all {m : Marker} {ts : List Token} (h : Reads .all m ts) : Reads .any m ts
  | either {a b : Marker} {ts us : List Token} (ha : Reads .any a ts) (hb : Reads .all b us) :
      Reads .any (.either a b) (ts ++ .word .disjunction :: us)

/-- The text is made of the tokens, with blanks between them; two words are not written as one. -/
inductive Laid : List Token → Text → Prop
  | done {gap : Text} (hgap : ∀ c ∈ gap, isGap c = true) : Laid [] gap
  | next {token : Token} {ts : List Token} {gap rest : Text} (hgap : ∀ c ∈ gap, isGap c = true)
      (hword : token.isWord = true → ∀ c ∈ rest.head?, isWordPoint c = false) (h : Laid ts rest) :
      Laid (token :: ts) (gap ++ (token.text ++ rest))

/-- The text is a way to write the marker. -/
def Marker.Spells (m : Marker) (t : Text) : Prop := ∃ ts, Reads .any m ts ∧ Laid ts t

/-! ## Writing markers -/

/-- Tokens with a blank before each of them. -/
def blanksBefore (ts : List Token) : Text := ts.flatMap fun token => ' ' :: token.text

/-- Tokens with a blank between them. -/
def layOut : List Token → Text
  | [] => []
  | token :: ts => token.text ++ blanksBefore ts

theorem not_wordPoint_of_head?_blanksBefore {ts : List Token} :
    ∀ c ∈ (blanksBefore ts).head?, isWordPoint c = false := by
  cases ts with
  | nil => nofun
  | cons _ _ => rintro c ⟨⟩; decide

theorem laid_blanksBefore (ts : List Token) : Laid ts (blanksBefore ts) := by
  induction ts with
  | nil => exact .done (List.forall_mem_nil _)
  | cons token ts ih =>
    show Laid (token :: ts) ([.scalar ' '] ++ (token.text ++ blanksBefore ts))
    exact .next (by decide) (fun _ => not_wordPoint_of_head?_blanksBefore) ih

theorem laid_layOut (ts : List Token) : Laid ts (layOut ts) := by
  cases ts with
  | nil => exact .done (List.forall_mem_nil _)
  | cons token ts =>
    show Laid (token :: ts) ([] ++ (token.text ++ blanksBefore ts))
    exact .next (List.forall_mem_nil _) (fun _ => not_wordPoint_of_head?_blanksBefore) (laid_blanksBefore ts)

theorem Marker.spells_layOut {m : Marker} {ts : List Token} (h : Reads .any m ts) : m.Spells (layOut ts) :=
  ⟨ts, h, laid_layOut ts⟩

/-- Every marker can be written. -/
theorem Marker.exists_spells (m : Marker) : ∃ t, m.Spells t := by
  have hunit : ∃ ts, Reads .unit m ts := by
    induction m with
    | comparison c => exact ⟨_, .comparison c⟩
    | both a b iha ihb =>
      obtain ⟨ts, ha⟩ := iha
      obtain ⟨us, hb⟩ := ihb
      exact ⟨_, .grouped (.all (.both (.unit ha) hb))⟩
    | either a b iha ihb =>
      obtain ⟨ts, ha⟩ := iha
      obtain ⟨us, hb⟩ := ihb
      exact ⟨_, .grouped (.either (.all (.unit ha)) (.unit hb))⟩
  obtain ⟨ts, hts⟩ := hunit
  exact ⟨_, spells_layOut (.all (.unit hts))⟩

/-! ## Fragments -/

variable {pat t u v : Text} {ts : List Token} {token : Token} {b : CodePoint} {m : Marker} {p : Text}

/-- Wherever the fragment is cut in two, no token ends with the one part and another begins with the rest,
unless both are words. -/
structure Whole (pat : Text) : Prop where
  nonempty : pat ≠ []
  unblank : ∀ c ∈ pat, isGap c = false
  uncut : ∀ {u v : Text} {b : CodePoint} {token next : Token}, pat = u ++ b :: v → u ≠ [] →
    u <:+ token.text → next.text.head? = some b → token.isWord = true ∧ isWordPoint b = true

theorem Token.text_ne_nil (token : Token) : token.text ≠ [] :=
  token.forall_text (P := (· ≠ [])) (by decide) fun _ => List.cons_ne_nil _ _

/-- What is not blank at the start of the text is the start of a token. -/
theorem Laid.exists_head (h : Laid ts t) (hb : t.head? = some b) (hgap : isGap b = false) :
    ∃ next : Token, next.text.head? = some b := by
  cases h with
  | done hblank => cases hgap.symm.trans (hblank b (List.mem_of_head? hb))
  | @next token ts gap rest hblank hword h =>
    cases gap with
    | nil =>
      refine ⟨token, ?_⟩
      obtain ⟨c, cs, hcons⟩ := List.exists_cons_of_ne_nil token.text_ne_nil
      rw [List.nil_append, hcons] at hb
      rw [hcons]
      exact hb
    | cons c gap =>
      cases hb
      cases hgap.symm.trans (hblank b List.mem_cons_self)

/-- A fragment that is whole stands in the text just if it stands in a token. -/
theorem Laid.infix_iff (hwhole : Whole pat) (h : Laid ts t) :
    pat <:+: t ↔ ∃ token ∈ ts, pat <:+: token.text := by
  have hblank : ∀ {u gap : Text}, (∀ c ∈ gap, isGap c = true) → u ≠ [] → u ⊆ pat → ¬ u <:+: gap := by
    intro u gap hgap hu hsub hinside
    obtain ⟨c, hc⟩ := List.exists_mem_of_ne_nil u hu
    cases (hwhole.unblank c (hsub hc)).symm.trans (hgap c (hinside.subset hc))
  induction h with
  | done hgap =>
    refine ⟨fun h => absurd h (hblank hgap hwhole.nonempty (List.Subset.refl _)), ?_⟩
    rintro ⟨_, h, _⟩
    cases h
  | @next token ts gap rest hgap hword h ih =>
    have hafter : pat <:+: token.text ++ rest ↔ pat <:+: token.text ∨ pat <:+: rest := by
      rw [List.infix_append_iff]
      refine ⟨?_, fun h => h.imp_right Or.inl⟩
      rintro (hin | hin | ⟨u, v, hpat, hu, hv⟩)
      · exact Or.inl hin
      · exact Or.inr hin
      -- the fragment is cut between the token and the next one
      · by_cases hnil : u = []
        · rw [hpat, hnil]
          exact Or.inr hv.isInfix
        cases v with
        | nil => rw [hpat, List.append_nil]; exact Or.inl hu.isInfix
        | cons b v =>
          have hb : b ∈ pat := by rw [hpat]; simp
          have hhead : rest.head? = some b := by
            obtain ⟨tail, rfl⟩ := hv
            rfl
          obtain ⟨next, hnext⟩ := h.exists_head hhead (hwhole.unblank b hb)
          obtain ⟨hisWord, hpoint⟩ := hwhole.uncut hpat hnil hu hnext
          cases hpoint.symm.trans (hword hisWord b (Option.mem_def.mpr hhead))
    have hgone : pat <:+: gap ++ (token.text ++ rest) ↔ pat <:+: token.text ++ rest := by
      rw [List.infix_append_iff]
      refine ⟨?_, fun h => Or.inr (Or.inl h)⟩
      rintro (hin | hin | ⟨u, v, hpat, hu, hv⟩)
      · exact absurd hin (hblank hgap hwhole.nonempty (List.Subset.refl _))
      · exact hin
      · by_cases hnil : u = []
        · rw [hpat, hnil]
          exact hv.isInfix
        · exact absurd hu.isInfix (hblank hgap hnil (by rw [hpat]; exact List.subset_append_left u v))
    rw [hgone, hafter, List.exists_mem_cons_iff]
    exact or_congr_right ih

/-! ## Fragments that are whole -/

theorem Word.isWordPoint_of_mem {w : Word} {c : CodePoint} (h : c ∈ w.text) : isWordPoint c = true := by
  have hall : w.text.all isWordPoint = true := by
    rcases w with v | _ | _ | _ | _
    · cases v <;> decide
    all_goals decide
  exact List.all_eq_true.mp hall c h

theorem Token.isWordPoint_of_isWord {c : CodePoint} (h : token.isWord = true) (hc : c ∈ token.text) :
    isWordPoint c = true := by
  cases token with
  | word w => exact w.isWordPoint_of_mem hc
  | _ => cases h

theorem Literal.getLast?_text (l : Literal) : l.text.getLast? = some (quotation l.double) := by
  rw [Literal.text, quoted, ← List.cons_append, List.getLast?_concat]

theorem isWordPoint_quotation (double : Bool) : isWordPoint (quotation double) = false := by
  cases double <;> decide

/-- Only words end like words. -/
theorem Token.isWord_of_getLast? {a : CodePoint} (h : token.text.getLast? = some a)
    (ha : isWordPoint a = true) : token.isWord = true := by
  have hends : token.isWord = true ∨ token.text.getLast?.all (fun c => !isWordPoint c) = true := by
    rcases token with w | s | l | _ | _
    · exact Or.inl rfl
    · exact Or.inr (by cases s <;> decide)
    · refine Or.inr ?_
      show l.text.getLast?.all _ = true
      rw [l.getLast?_text]
      simp [isWordPoint_quotation]
    all_goals exact Or.inr (by decide)
  rw [h] at hends
  simpa [ha] using hends

theorem getLast?_of_suffix (h : u <:+ t) (hu : u ≠ []) : t.getLast? = u.getLast? := by
  obtain ⟨w, rfl⟩ := h
  rw [List.getLast?_append_of_ne_nil _ hu]

theorem isGap_of_isWordPoint {c : CodePoint} (h : isWordPoint c = true) : isGap c = false := by
  by_contra hgap
  rw [Bool.not_eq_false, isGap, Bool.or_eq_true, decide_eq_true_eq, decide_eq_true_eq] at hgap
  rcases hgap with rfl | rfl <;> cases h

/-- A fragment is whole if it could be part of a word. -/
theorem whole_of_wordPoints (hnil : pat ≠ []) (h : ∀ c ∈ pat, isWordPoint c = true) : Whole pat where
  nonempty := hnil
  unblank c hc := isGap_of_isWordPoint (h c hc)
  uncut {u v b token next} hpat hu hsuffix _ := by
    have hlast : token.text.getLast? = some (u.getLast hu) := by
      rw [getLast?_of_suffix hsuffix hu, List.getLast?_eq_some_getLast hu]
    have hmem : u.getLast hu ∈ pat := by
      rw [hpat]
      exact List.mem_append_left _ (List.getLast_mem hu)
    exact ⟨Token.isWord_of_getLast? hlast (h _ hmem), h b (by rw [hpat]; simp)⟩

/-- An exclamation mark ends no token. -/
theorem Token.getLast?_ne (token : Token) : token.text.getLast? ≠ some (.scalar '!') := by
  refine token.forall_text (P := fun t => t.getLast? ≠ some (.scalar '!')) (by decide) fun l => ?_
  rw [l.getLast?_text]
  cases l.double <;> decide

theorem whole_differs : Whole "!=" where
  nonempty := by decide
  unblank := by decide
  uncut {u v b token next} hpat hu hsuffix _ := by
    -- it can only be cut before the equals sign
    match u, hu, hpat with
    | [c], hu, hpat =>
      obtain ⟨rfl, _⟩ := List.cons.inj hpat
      exact absurd (getLast?_of_suffix hsuffix hu) token.getLast?_ne
    | c :: d :: u, _, hpat =>
      have hlength := congrArg List.length hpat
      simp [Text.ofString] at hlength

/-- The first letters of the platforms. -/
def platformStarts : List (Option CodePoint) := platforms.map List.head?

/-- No token starts like a platform. -/
theorem Token.head?_not_mem (token : Token) : token.text.head? ∉ platformStarts := by
  refine token.forall_text (P := fun t => t.head? ∉ platformStarts) (by decide) fun l => ?_
  show some (quotation l.double) ∉ platformStarts
  cases l.double <;> decide

theorem isWordPoint_of_platform (hp : p ∈ platforms) : ∀ c ∈ p, isWordPoint c = true := by
  have hall : ∀ p ∈ platforms, p.all isWordPoint = true := by decide
  exact List.all_eq_true.mp (hall p hp)

theorem ne_nil_of_platform (hp : p ∈ platforms) : p ≠ [] := by
  rintro rfl
  exact absurd hp (by decide)

/-- The platform in quotes is a whole fragment. -/
theorem whole_quoted (double : Bool) (hp : p ∈ platforms) :
    Whole (quoted double p) where
  nonempty := List.cons_ne_nil _ _
  unblank := by
    have hquote : isGap (quotation double) = false := by cases double <;> decide
    simp only [quoted, List.mem_cons, List.mem_append, List.not_mem_nil, or_false]
    rintro c (rfl | hc | rfl)
    · exact hquote
    · exact isGap_of_isWordPoint (isWordPoint_of_platform hp c hc)
    · exact hquote
  uncut {u v b token next} hpat hu hsuffix hnext := by
    exfalso
    cases u with
    | nil => exact hu rfl
    | cons c u =>
      obtain ⟨rfl, hrest⟩ := List.cons.inj hpat
      change p ++ [quotation double] = u ++ b :: v at hrest
      by_cases hnil : u = []
      -- cut before the platform: no token starts like it
      · subst hnil
        obtain ⟨a, rest, rfl⟩ := List.exists_cons_of_ne_nil (ne_nil_of_platform hp)
        obtain ⟨rfl, _⟩ := List.cons.inj hrest
        exact next.head?_not_mem (hnext ▸ List.mem_map_of_mem hp)
      -- cut within or after it: the token ends like a word, and has a quote in it
      · have hlength : u.length ≤ p.length := by
          have h := congrArg List.length hrest
          simp only [List.length_append, List.length_cons, List.length_nil] at h
          omega
        have hu' : u <+: p ++ [quotation double] := by
          rw [hrest]
          exact List.prefix_append u _
        have hstart : u <+: p :=
          List.prefix_of_prefix_length_le hu' (List.prefix_append p _) hlength
        have hlast : token.text.getLast? = some (u.getLast hnil) := by
          rw [getLast?_of_suffix ((List.suffix_cons _ u).trans hsuffix) hnil,
            List.getLast?_eq_some_getLast hnil]
        have hisWord := Token.isWord_of_getLast? hlast
          (isWordPoint_of_platform hp _ (hstart.subset (List.getLast_mem hnil)))
        have hpoint := Token.isWordPoint_of_isWord hisWord (hsuffix.subset List.mem_cons_self)
        cases (isWordPoint_quotation double).symm.trans hpoint

end ManifestGraph.Pipenv
