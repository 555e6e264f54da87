/-
  What is read is legible (`legible_of_readFrom`), in whatever text it is spelled: the lexer hands out
  legible atoms only, and the reader counts the levels. A dialect that is laxer reads everything that a
  stricter one reads, to the same value (`readFrom_mono`).
-/
import ManifestGraph.Proofs.Json.Steps
import ManifestGraph.Proofs.Text.Digits

namespace ManifestGraph.Json

variable {d d' : Dialect} {t : Text} {v : Data} {opened : List Frame} {r r' : Reader}

/-! ## Atoms -/

theorem isDigit_of_mem_takeWhile {c : CodePoint} (h : c ∈ t.takeWhile CodePoint.isDigit) :
    c.isDigit = true :=
  List.all_eq_true.mp (List.all_takeWhile) c h

theorem legible_of_unsigned? {negative : Bool} (h : unsigned? d negative t = .ok v) :
    Legible d 0 v := by
  unfold unsigned? at h
  dsimp only at h
  split at h
  next => cases h
  split at h
  next => cases h
  split at h
  next => cases h
  next fraction rest _ exponent _ =>
  split at h
  next => cases h
  next hlong =>
  split at h
  next hwhole =>
    have hlen : (t.takeWhile CodePoint.isDigit).length ≤ maxDigits := by
      rw [hwhole] at hlong
      simpa using hlong
    have hvalue := Text.digitsValue_lt fun c => isDigit_of_mem_takeWhile (t := t) (c := c)
    have hbound : Text.digitsValue (t.takeWhile CodePoint.isDigit) < 10 ^ maxDigits :=
      Nat.lt_of_lt_of_le hvalue (Nat.pow_le_pow_right (by decide) hlen)
    cases h
    refine .int ?_
    split <;> omega
  next =>
    cases h
    exact .float (Binary64.canonical_ofDecimal _ _ _)

/-- A bare word stands for the same value in every dialect, or for a number. -/
theorem bareValue_cases (t : Text) :
    (∃ v, (∀ d, Legible d 0 v) ∧ ∀ d, bareValue d t = .ok v) ∨
      ∃ negative rest, ∀ d, bareValue d t = unsigned? d negative rest := by
  by_cases htrue : t = ("true" : String)
  · exact Or.inl ⟨.bool true, fun _ => .bool 0 true, fun d => by rw [htrue]; rfl⟩
  by_cases hfalse : t = ("false" : String)
  · exact Or.inl ⟨.bool false, fun _ => .bool 0 false, fun d => by rw [hfalse]; rfl⟩
  by_cases hnull : t = ("null" : String)
  · exact Or.inl ⟨.null, fun _ => .null 0, fun d => by rw [hnull]; rfl⟩
  by_cases hnan : t = ("NaN" : String)
  · exact Or.inl ⟨.float .nan, fun _ => .float trivial, fun d => by rw [hnan]; rfl⟩
  by_cases hinfinity : t = ("Infinity" : String)
  · exact Or.inl ⟨.float (.infinite false), fun _ => .float trivial, fun d => by rw [hinfinity]; rfl⟩
  by_cases hminus : t = ("-Infinity" : String)
  · exact Or.inl ⟨.float (.infinite true), fun _ => .float trivial, fun d => by rw [hminus]; rfl⟩
  by_cases hsign : ∃ rest, t = .scalar '-' :: rest
  · obtain ⟨rest, rfl⟩ := hsign
    refine Or.inr ⟨true, rest, fun d => ?_⟩
    rw [bareValue, if_neg htrue, if_neg hfalse, if_neg hnull, if_neg hnan, if_neg hinfinity, if_neg hminus]
  · refine Or.inr ⟨false, t, fun d => ?_⟩
    rw [bareValue, if_neg htrue, if_neg hfalse, if_neg hnull, if_neg hnan, if_neg hinfinity, if_neg hminus]
    exact fun rest h => hsign ⟨rest, h⟩

theorem legible_of_bareValue (h : bareValue d t = .ok v) : Legible d 0 v := by
  rcases bareValue_cases t with ⟨w, hw, hword⟩ | ⟨negative, rest, hnumber⟩
  · cases (hword d).symm.trans h
    exact hw d
  · exact legible_of_unsigned? ((hnumber d).symm.trans h)

/-- The atom of a token is legible. -/
def Token.Legible (d : Dialect) (token : Token) : Prop :=
  ∀ v, token = .atom v → Json.Legible d 0 v

theorem legible_of_punctuation? {c : CodePoint} {token : Token} (h : punctuation? c = some token) :
    token.Legible d := by
  intro v hv
  rw [hv] at h
  unfold punctuation? at h
  split at h <;> cases h

theorem legible_of_start {c : CodePoint} {p : Lexer × List Token} (h : start c = .ok p) :
    ∀ token ∈ p.2, token.Legible d := by
  unfold start at h
  split at h
  next => cases h; exact fun _ hmem => absurd hmem List.not_mem_nil
  split at h
  next => cases h; exact fun _ hmem => absurd hmem List.not_mem_nil
  split at h
  next => cases h; exact fun _ hmem => absurd hmem List.not_mem_nil
  split at h
  next token htoken =>
    cases h
    intro x hx
    rw [List.mem_singleton.mp hx]
    exact legible_of_punctuation? htoken
  next => cases h

/-- A step of the lexer hands out legible atoms. -/
theorem legible_of_lexerStep {l : Lexer} {c : CodePoint} {p : Lexer × List Token}
    (h : l.step d c = .ok p) : ∀ token ∈ p.2, token.Legible d := by
  have hatom : ∀ v, Legible d 0 v → (Token.atom v).Legible d := by
    intro v hv w hw
    cases hw
    exact hv
  have hnone : ∀ token ∈ ([] : List Token), token.Legible d := fun _ h => absurd h List.not_mem_nil
  cases l with
  | between => exact legible_of_start h
  | bare seen =>
    cases hc : isBare c with
    | true => rw [Lexer.step, if_pos hc] at h; cases h; exact hnone
    | false =>
      obtain ⟨v, q, hv, hstart, rfl⟩ := (step_bare_eq_ok hc).mp h
      exact List.forall_mem_cons.mpr ⟨hatom v (legible_of_bareValue hv), legible_of_start hstart⟩
  | quoted seen high =>
    by_cases hquote : c = .scalar '"'
    · subst hquote
      obtain ⟨hallows, rfl⟩ := step_quote_eq_ok.mp h
      exact List.forall_mem_singleton.mpr (hatom _ (.text hallows))
    · rw [Lexer.step, if_neg hquote] at h
      split at h
      next => cases h; exact hnone
      split at h
      next => cases h
      next => cases h; exact hnone
  | escape seen high =>
    rw [Lexer.step] at h
    split at h
    next => cases h; exact hnone
    split at h
    next => cases h; exact hnone
    next => cases h
  | hex seen high left value =>
    rw [Lexer.step] at h
    split at h
    next => cases h
    dsimp only at h
    split at h
    next => cases h; exact hnone
    next => cases h; exact hnone

theorem legible_of_finish {l : Lexer} {tokens : List Token} (h : l.finish d = .ok tokens) :
    ∀ token ∈ tokens, token.Legible d := by
  cases l with
  | between => cases h; exact fun _ hmem => absurd hmem List.not_mem_nil
  | bare seen =>
    obtain ⟨v, hv, rfl⟩ := finish_bare_eq_ok.mp h
    refine List.forall_mem_singleton.mpr fun w hw => ?_
    cases hw
    exact legible_of_bareValue hv
  | _ => cases h

/-! ## The reader -/

/-- The items are legible in some levels. -/
def LegibleItems (d : Dialect) (n : Nat) (items : List Data) : Prop := ∀ x ∈ items, Legible d n x

/-- What a container holds so far is legible in the levels that are left inside of it. -/
def Frame.Legible (d : Dialect) (n : Nat) : Frame → Prop
  | .items before => LegibleItems d n before
  | .member before name => LegibleMembers d n before ∧ d.Allows name

/-- The open containers nest no deeper than the dialect reads, and what they hold is legible. -/
def Nested (d : Dialect) : List Frame → Prop
  | [] => True
  | f :: opened => opened.length < d.maxDepth ∧ f.Legible d (d.maxDepth - (opened.length + 1)) ∧
      Nested d opened

/-- Everything that a reader holds is legible. -/
def Reader.Legible (d : Dialect) : Reader → Prop
  | .value opened => Nested d opened
  | .firstItem opened | .firstKey opened =>
    Nested d opened ∧ (d.countsEmpty = true → opened.length < d.maxDepth)
  | .afterItem items opened => Nested d (.items items :: opened)
  | .key members opened | .afterMember members opened => opened.length < d.maxDepth ∧
      LegibleMembers d (d.maxDepth - (opened.length + 1)) members ∧ Nested d opened
  | .colon members name opened => Nested d (.member members name :: opened)
  | .done v => Json.Legible d d.maxDepth v

theorem Nested.length_le (h : Nested d opened) : opened.length ≤ d.maxDepth := by
  cases opened with
  | nil => exact Nat.zero_le _
  | cons f opened => exact h.1

theorem Nested.deliver (h : Nested d opened) (hv : Legible d (d.maxDepth - opened.length) v) :
    (Reader.deliver v opened).Legible d := by
  cases opened with
  | nil => exact (hv : Legible d (d.maxDepth - 0) v)
  | cons f opened =>
    obtain ⟨hlt, hf, hopened⟩ := h
    cases f with
    | items before => exact ⟨hlt, List.forall_mem_cons.mpr ⟨hv, hf⟩, hopened⟩
    | member before name => exact ⟨hlt, List.forall_mem_cons.mpr ⟨⟨hf.2, hv⟩, hf.1⟩, hopened⟩

theorem legible_of_beginValue {token : Token} (h : Nested d opened) (htoken : token.Legible d)
    (hr : Reader.beginValue d opened token = .ok r') : r'.Legible d := by
  cases token with
  | atom v =>
    cases hr
    exact h.deliver ((htoken v rfl).mono (Nat.zero_le _))
  | listOpen =>
    obtain ⟨hcounts, rfl⟩ := beginValue_listOpen_eq_ok.mp hr
    exact ⟨h, hcounts⟩
  | recordOpen =>
    obtain ⟨hcounts, rfl⟩ := beginValue_recordOpen_eq_ok.mp hr
    exact ⟨h, hcounts⟩
  | _ => cases hr

/-- A list that is closed takes one of the levels that are left. -/
theorem Nested.closeList {items : List Data} (h : Nested d opened) (hlt : opened.length < d.maxDepth)
    (hitems : LegibleItems d (d.maxDepth - (opened.length + 1)) items) :
    (Reader.deliver (.list items.reverse) opened).Legible d := by
  refine h.deliver ?_
  rw [show d.maxDepth - opened.length = d.maxDepth - (opened.length + 1) + 1 by omega]
  exact .list fun x hx => hitems x (List.mem_reverse.mp hx)

theorem Nested.closeRecord {members : List (Text × Data)} (h : Nested d opened)
    (hlt : opened.length < d.maxDepth)
    (hmembers : LegibleMembers d (d.maxDepth - (opened.length + 1)) members) :
    (Reader.deliver (.record members.reverse) opened).Legible d := by
  refine h.deliver ?_
  rw [show d.maxDepth - opened.length = d.maxDepth - (opened.length + 1) + 1 by omega]
  exact LegibleMembers.toRecord fun m hm => hmembers m (List.mem_reverse.mp hm)

theorem allows_of_legible {name : Text} (h : (Token.atom (.text name)).Legible d) : d.Allows name := by
  cases h _ rfl with
  | text h => exact h

/-- One token keeps everything legible that the reader holds. -/
theorem legible_of_readerStep {token : Token} (h : r.Legible d) (htoken : token.Legible d)
    (hr : r.step d token = .ok r') : r'.Legible d := by
  cases r with
  | value opened => exact legible_of_beginValue h htoken hr
  | firstItem opened =>
    obtain ⟨hopened, hcounts⟩ := h
    by_cases hclose : token = .listClose
    · subst hclose
      cases hr
      exact hopened.deliver (.emptyList fun hc => Nat.sub_pos_of_lt (hcounts hc))
    · obtain ⟨hlt, hbegin⟩ := (step_firstItem_eq_ok hclose).mp hr
      have hnested : Nested d (.items [] :: opened) := ⟨hlt, List.forall_mem_nil _, hopened⟩
      exact legible_of_beginValue hnested htoken hbegin
  | afterItem items opened =>
    obtain ⟨hlt, hitems, hopened⟩ := h
    cases token with
    | comma => cases hr; exact ⟨hlt, hitems, hopened⟩
    | listClose => cases hr; exact hopened.closeList hlt hitems
    | _ => cases hr
  | firstKey opened =>
    obtain ⟨hopened, hcounts⟩ := h
    cases token with
    | recordClose =>
      cases hr
      exact hopened.deliver (.emptyRecord fun hc => Nat.sub_pos_of_lt (hcounts hc))
    | atom v =>
      cases v with
      | text name =>
        obtain ⟨hlt, rfl⟩ := step_firstKey_eq_ok.mp hr
        exact ⟨hlt, ⟨List.forall_mem_nil _, allows_of_legible htoken⟩, hopened⟩
      | _ => cases hr
    | _ => cases hr
  | key members opened =>
    obtain ⟨hlt, hmembers, hopened⟩ := h
    cases token with
    | atom v =>
      cases v with
      | text name => cases hr; exact ⟨hlt, ⟨hmembers, allows_of_legible htoken⟩, hopened⟩
      | _ => cases hr
    | _ => cases hr
  | colon members name opened =>
    cases token with
    | colon => cases hr; exact h
    | _ => cases hr
  | afterMember members opened =>
    obtain ⟨hlt, hmembers, hopened⟩ := h
    cases token with
    | comma => cases hr; exact ⟨hlt, hmembers, hopened⟩
    | recordClose => cases hr; exact hopened.closeRecord hlt hmembers
    | _ => cases hr
  | done v => cases token <;> cases hr

theorem legible_of_run {tokens : List Token} (h : r.Legible d) (htokens : ∀ x ∈ tokens, x.Legible d)
    (hr : r.run d tokens = .ok r') : r'.Legible d := by
  induction tokens generalizing r with
  | nil => cases hr; exact h
  | cons x tokens ih =>
    obtain ⟨r₁, hstep, hrun⟩ := run_cons_eq_ok.mp hr
    have h₁ := legible_of_readerStep h (htokens x List.mem_cons_self) hstep
    exact ih h₁ (fun y hy => htokens y (List.mem_cons_of_mem _ hy)) hrun

/-! ## Documents -/

/-- A reader at the beginning of a document holds nothing. -/
theorem Reader.legible_value : (Reader.value []).Legible d := trivial

/-- What is read is legible. -/
theorem legible_of_readFrom {l : Lexer} (h : r.Legible d) (hread : readFrom d l r t = .ok v) :
    Legible d d.maxDepth v := by
  induction t generalizing l r with
  | nil =>
    obtain ⟨tokens, hfinish, hrun⟩ := readFrom_nil_eq_ok.mp hread
    exact legible_of_run h (legible_of_finish hfinish) hrun
  | cons c t ih =>
    obtain ⟨l', tokens, r', hstep, hrun, hrest⟩ := readFrom_cons_eq_ok.mp hread
    exact ih (legible_of_run h (legible_of_lexerStep hstep) hrun) hrest

/-! ## Laxer dialects -/

/-- The second dialect reads all that the first one reads. -/
structure Dialect.Laxer (d d' : Dialect) : Prop where
  halves : d.halves = true → d'.halves = true
  longFloats : d.longFloats = true → d'.longFloats = true
  depth : d.maxDepth < d'.maxDepth

theorem laxer_strict_lenient : strict.Laxer lenient := ⟨by decide, by decide, by decide⟩

theorem unsigned?_mono (hd : d.Laxer d') {negative : Bool} (h : unsigned? d negative t = .ok v) :
    unsigned? d' negative t = .ok v := by
  unfold unsigned? at h ⊢
  dsimp only at h ⊢
  split at h
  next => cases h
  next hzero =>
  rw [if_neg hzero]
  split at h
  next => cases h
  next fraction rest _ =>
  split at h
  next => cases h
  next exponent _ =>
  split at h
  next => cases h
  next hlong =>
  rw [if_neg ?_]
  · exact h
  · intro hlong'
    refine hlong ?_
    rw [Bool.and_eq_true, Bool.or_eq_true, Bool.not_eq_true'] at hlong' ⊢
    refine ⟨hlong'.1, hlong'.2.imp_right fun hfloat => ?_⟩
    rw [Bool.eq_false_iff] at hfloat ⊢
    exact fun hlf => hfloat (hd.longFloats hlf)

theorem bareValue_mono (hd : d.Laxer d') (h : bareValue d t = .ok v) : bareValue d' t = .ok v := by
  rcases bareValue_cases t with ⟨w, _, hword⟩ | ⟨negative, rest, hnumber⟩
  · rw [hword d']
    exact (hword d).symm.trans h
  · rw [hnumber d']
    exact unsigned?_mono hd ((hnumber d).symm.trans h)

theorem lexerStep_mono (hd : d.Laxer d') {l : Lexer} {c : CodePoint} {p : Lexer × List Token}
    (h : l.step d c = .ok p) : l.step d' c = .ok p := by
  cases l with
  | bare seen =>
    cases hc : isBare c with
    | true => rw [Lexer.step, if_pos hc] at h ⊢; exact h
    | false =>
      rw [step_bare_eq_ok hc] at h ⊢
      obtain ⟨v, q, hv, hrest⟩ := h
      exact ⟨v, q, bareValue_mono hd hv, hrest⟩
  | quoted seen high =>
    by_cases hquote : c = .scalar '"'
    · subst hquote
      rw [step_quote_eq_ok] at h ⊢
      exact ⟨h.1.imp_left hd.halves, h.2⟩
    · rw [Lexer.step, if_neg hquote] at h ⊢
      exact h
  | _ => exact h

theorem finish_mono (hd : d.Laxer d') {l : Lexer} {tokens : List Token} (h : l.finish d = .ok tokens) :
    l.finish d' = .ok tokens := by
  cases l with
  | bare seen =>
    rw [finish_bare_eq_ok] at h ⊢
    obtain ⟨v, hv, htokens⟩ := h
    exact ⟨v, bareValue_mono hd hv, htokens⟩
  | _ => exact h

theorem beginValue_mono {token : Token} (hlt : opened.length < d'.maxDepth)
    (h : Reader.beginValue d opened token = .ok r') : Reader.beginValue d' opened token = .ok r' := by
  cases token with
  | listOpen => exact beginValue_listOpen_eq_ok.mpr ⟨fun _ => hlt, (beginValue_listOpen_eq_ok.mp h).2⟩
  | recordOpen => exact beginValue_recordOpen_eq_ok.mpr ⟨fun _ => hlt, (beginValue_recordOpen_eq_ok.mp h).2⟩
  | _ => exact h

theorem readerStep_mono (hd : d.Laxer d') {token : Token} (hr : r.Legible d)
    (h : r.step d token = .ok r') : r.step d' token = .ok r' := by
  have hdepth := hd.depth
  cases r with
  | value opened => exact beginValue_mono (by have := Nested.length_le hr; omega) h
  | firstItem opened =>
    by_cases hclose : token = .listClose
    · subst hclose; exact h
    · obtain ⟨hlt, hbegin⟩ := (step_firstItem_eq_ok hclose).mp h
      refine (step_firstItem_eq_ok hclose).mpr ⟨by omega, beginValue_mono ?_ hbegin⟩
      rw [List.length_cons]
      omega
  | firstKey opened =>
    cases token with
    | atom v =>
      cases v with
      | text name =>
        obtain ⟨hlt, hkey⟩ := step_firstKey_eq_ok.mp h
        exact step_firstKey_eq_ok.mpr ⟨by omega, hkey⟩
      | _ => cases h
    | _ => exact h
  | key members opened =>
    cases token with
    | atom v => cases v <;> exact h
    | _ => exact h
  | _ => cases token <;> exact h

theorem run_mono (hd : d.Laxer d') {tokens : List Token} (hr : r.Legible d)
    (htokens : ∀ x ∈ tokens, x.Legible d) (h : r.run d tokens = .ok r') : r.run d' tokens = .ok r' := by
  induction tokens generalizing r with
  | nil => exact h
  | cons x tokens ih =>
    obtain ⟨r₁, hstep, hrun⟩ := run_cons_eq_ok.mp h
    have hr₁ := legible_of_readerStep hr (htokens x List.mem_cons_self) hstep
    have hrun' := ih hr₁ (fun y hy => htokens y (List.mem_cons_of_mem _ hy)) hrun
    exact run_cons_eq_ok.mpr ⟨r₁, readerStep_mono hd hr hstep, hrun'⟩

/-- A laxer dialect reads the same value. -/
theorem readFrom_mono (hd : d.Laxer d') {l : Lexer} (hr : r.Legible d)
    (h : readFrom d l r t = .ok v) : readFrom d' l r t = .ok v := by
  induction t generalizing l r with
  | nil =>
    obtain ⟨tokens, hfinish, hrun⟩ := readFrom_nil_eq_ok.mp h
    have hrun' := run_mono hd hr (legible_of_finish hfinish) hrun
    exact readFrom_nil_eq_ok.mpr ⟨tokens, finish_mono hd hfinish, hrun'⟩
  | cons c t ih =>
    obtain ⟨l', tokens, r', hstep, hrun, hrest⟩ := readFrom_cons_eq_ok.mp h
    have htokens := legible_of_lexerStep hstep
    have hrun' := run_mono hd hr htokens hrun
    have hrest' := ih (legible_of_run hr htokens hrun) hrest
    exact readFrom_cons_eq_ok.mpr ⟨l', tokens, r', lexerStep_mono hd hstep, hrun', hrest'⟩

end ManifestGraph.Json
