/-
  What the lexer and the reader can do in one step. A step that depends on the dialect is taken just if the
  dialect allows it: a bare word has to be a value (`step_bare_eq_ok`), a string holds no lone halves unless
  they are let in (`step_quote_eq_ok`), and containers do not nest too deep (`beginValue_listOpen_eq_ok`,
  `step_firstItem_eq_ok`, `step_firstKey_eq_ok`). A text that is read goes through such steps, one for each
  code point (`readFrom_cons_eq_ok`).
-/
import ManifestGraph.Proofs.Data.Results
import ManifestGraph.Proofs.Json.Legible

namespace ManifestGraph.Json

variable {d : Dialect} {l : Lexer} {seen t : Text} {c : CodePoint} {p : Lexer × List Token}
  {token : Token} {tokens : List Token} {opened : List Frame} {r r' : Reader} {v : Data}

/-! ## The lexer -/

/-- A word ends at any code point that is not part of it, which starts what comes next. -/
theorem step_bare_eq_ok (hc : isBare c = false) : (Lexer.bare seen).step d c = .ok p ↔
    ∃ v q, bareValue d seen.reverse = .ok v ∧ start c = .ok q ∧ p = (q.1, .atom v :: q.2) := by
  rw [Lexer.step, if_neg (by rw [hc]; decide), Except.bind_eq_ok]
  refine exists_congr fun v => ?_
  rw [Except.bind_eq_ok]
  constructor
  · rintro ⟨hv, q, hq, h⟩
    cases h
    exact ⟨q, hv, hq, rfl⟩
  · rintro ⟨q, hv, hq, rfl⟩
    exact ⟨hv, q, hq, rfl⟩

theorem finish_bare_eq_ok : (Lexer.bare seen).finish d = .ok tokens ↔
    ∃ v, bareValue d seen.reverse = .ok v ∧ tokens = [.atom v] := by
  rw [Lexer.finish]
  cases bareValue d seen.reverse with
  | error e => exact ⟨fun h => (nomatch h), fun ⟨_, h, _⟩ => (nomatch h)⟩
  | ok v =>
    constructor
    · intro h
      cases h
      exact ⟨v, rfl, rfl⟩
    · rintro ⟨_, hv, rfl⟩
      cases hv
      rfl

/-- The quotation mark ends a string, if the dialect allows what it holds. -/
theorem step_quote_eq_ok {high : Bool} : (Lexer.quoted seen high).step d (.scalar '"') = .ok p ↔
    d.Allows seen.reverse ∧ p = (.between, [.atom (.text seen.reverse)]) := by
  have hallows : d.Allows seen.reverse ↔ (d.halves || Text.isScalar seen) = true := by
    rw [Dialect.Allows, Text.isScalar, List.all_reverse, Bool.or_eq_true, Text.isScalar]
  rw [Lexer.step, if_pos rfl, Except.ite_ok_eq_ok, hallows]

/-! ## The reader -/

theorem mayNest_iff : Reader.mayNest d opened = true ↔ opened.length < d.maxDepth := decide_eq_true_iff

/-- A container that is refused where it opens nests too deep in a dialect that counts empty ones too. -/
theorem nestsTooDeep_iff : (d.countsEmpty && !Reader.mayNest d opened) = true ↔
    ¬ (d.countsEmpty = true → opened.length < d.maxDepth) := by
  rw [Bool.and_eq_true, Bool.not_eq_true', ← Bool.not_eq_true, mayNest_iff, Classical.not_imp]

theorem beginValue_listOpen_eq_ok : Reader.beginValue d opened .listOpen = .ok r ↔
    (d.countsEmpty = true → opened.length < d.maxDepth) ∧ r = .firstItem opened := by
  rw [Reader.beginValue, Except.ite_error_eq_ok, nestsTooDeep_iff, not_not]

theorem beginValue_recordOpen_eq_ok : Reader.beginValue d opened .recordOpen = .ok r ↔
    (d.countsEmpty = true → opened.length < d.maxDepth) ∧ r = .firstKey opened := by
  rw [Reader.beginValue, Except.ite_error_eq_ok, nestsTooDeep_iff, not_not]

/-- The first item of a list is read like any other, if one more container may be opened. -/
theorem step_firstItem (htoken : token ≠ .listClose) : Reader.step d (.firstItem opened) token =
    if Reader.mayNest d opened then Reader.beginValue d (.items [] :: opened) token
    else .error .listTooDeep := by
  cases token with
  | listClose => exact absurd rfl htoken
  | _ => rfl

theorem step_firstItem_eq_ok (htoken : token ≠ .listClose) :
    Reader.step d (.firstItem opened) token = .ok r ↔
      opened.length < d.maxDepth ∧ Reader.beginValue d (.items [] :: opened) token = .ok r := by
  rw [step_firstItem htoken, ← mayNest_iff]
  split
  next h => exact (and_iff_right h).symm
  next h => exact ⟨fun hr => (nomatch hr), fun hr => absurd hr.1 h⟩

theorem step_firstKey_eq_ok {name : Text} :
    Reader.step d (.firstKey opened) (.atom (.text name)) = .ok r ↔
      opened.length < d.maxDepth ∧ r = .colon [] name opened := by
  rw [Reader.step, Except.ite_ok_eq_ok, mayNest_iff]

/-! ## Both in turn -/

theorem run_cons_eq_ok : Reader.run d r (token :: tokens) = .ok r' ↔
    ∃ r₁, r.step d token = .ok r₁ ∧ Reader.run d r₁ tokens = .ok r' := by
  rw [Reader.run, Except.bind_eq_ok]

/-- What a text that is read goes through, one code point at a time. -/
theorem readFrom_cons_eq_ok : readFrom d l r (c :: t) = .ok v ↔
    ∃ l' tokens r', l.step d c = .ok (l', tokens) ∧ r.run d tokens = .ok r' ∧
      readFrom d l' r' t = .ok v := by
  rw [readFrom, Except.bind_eq_ok]
  constructor
  · rintro ⟨⟨l', tokens⟩, hstep, h⟩
    obtain ⟨r', hrun, hrest⟩ := Except.bind_eq_ok.mp h
    exact ⟨l', tokens, r', hstep, hrun, hrest⟩
  · rintro ⟨l', tokens, r', hstep, hrun, hrest⟩
    exact ⟨(l', tokens), hstep, Except.bind_eq_ok.mpr ⟨r', hrun, hrest⟩⟩

/-- At its end the reader is done. -/
theorem readFrom_nil_eq_ok : readFrom d l r [] = .ok v ↔
    ∃ tokens, l.finish d = .ok tokens ∧ r.run d tokens = .ok (.done v) := by
  rw [readFrom, Except.bind_eq_ok]
  refine exists_congr fun tokens => and_congr_right fun _ => ?_
  rw [Except.bind_eq_ok]
  constructor
  · rintro ⟨r', hrun, h⟩
    cases r' with
    | done w => cases h; exact hrun
    | _ => cases h
  · exact fun hrun => ⟨_, hrun, rfl⟩

end ManifestGraph.Json
