/-
  Lines of bytes. `InLines` says what lines are, without a reader: pieces without a line end, each with one
  of the three line ends behind it. `lines` finds them (`inLines_iff`). A line feed between two byte
  strings leaves the lines of both as they are, but for an empty line that may arise between them
  (`lines_append_newline`): the line feed ends a line, is a line, or belongs to the carriage return before.

  Text in printable ASCII holds no line end, so that many such texts, each with a line feed behind it, are
  cut into just these texts again (`lines_flatten`).
-/
import ManifestGraph.Proofs.Bytes.Encoding

namespace ManifestGraph

variable {bs bs' body rest : Bytes} {ls ls' : List Bytes} {t : Text}

/-- The bytes hold no line end. -/
def Bytes.Unbroken (bs : Bytes) : Prop := 0x0A ∉ bs ∧ 0x0D ∉ bs

/-- The bytes are one line with its line feed. -/
def Bytes.IsLine (bs : Bytes) : Prop := ∃ body : Bytes, body.Unbroken ∧ bs = body ++ [0x0A]

namespace Bytes

/-- The bytes are some lines, each with LF, CR LF or CR behind it; only the last one may go without, and is
then not empty. -/
inductive InLines : Bytes → List Bytes → Prop where
  | none : InLines [] []
  | last {body : Bytes} (hbody : Unbroken body) (hne : body ≠ []) : InLines body [body]
  | lf {body bs : Bytes} {ls : List Bytes} (hbody : Unbroken body) (rest : InLines bs ls) :
      InLines (body ++ 0x0A :: bs) (body :: ls)
  | crlf {body bs : Bytes} {ls : List Bytes} (hbody : Unbroken body) (rest : InLines bs ls) :
      InLines (body ++ 0x0D :: 0x0A :: bs) (body :: ls)
  | cr {body bs : Bytes} {ls : List Bytes} (hbody : Unbroken body) (hlf : bs.head? ≠ some 0x0A)
      (rest : InLines bs ls) : InLines (body ++ 0x0D :: bs) (body :: ls)

theorem unbroken_nil : Unbroken [] := ⟨List.not_mem_nil, List.not_mem_nil⟩

theorem unbroken_cons {b : UInt8} :
    Unbroken (b :: body) ↔ b ≠ 0x0A ∧ b ≠ 0x0D ∧ Unbroken body := by
  simp only [Unbroken, List.mem_cons, not_or, ne_eq, eq_comm (a := b)]
  tauto

theorem lines_cons_of_unbroken {b : UInt8} (ha : b ≠ 0x0A) (hd : b ≠ 0x0D) (bs : Bytes) :
    lines (b :: bs) = match lines bs with
      | line :: rest => (b :: line) :: rest
      | [] => [[b]] := by
  rw [lines.eq_def]
  split
  next heq => cases heq
  next heq => cases heq; exact absurd rfl hd
  next heq =>
    cases heq
    exact if_neg (by simp [ha, hd])

/-- What stands before the first line end is the first line. -/
theorem lines_body_append (h : body.Unbroken) (hrest : lines rest = [] :: ls) :
    lines (body ++ rest) = body :: ls := by
  induction body with
  | nil => exact hrest
  | cons b body ih =>
    obtain ⟨ha, hd, hbody⟩ := unbroken_cons.mp h
    rw [List.cons_append, lines_cons_of_unbroken ha hd, ih hbody]

/-- The first line ends at the first line feed. -/
theorem lines_append (h : body.Unbroken) (rest : Bytes) :
    lines (body ++ 0x0A :: rest) = body :: lines rest :=
  lines_body_append h rfl

/-! ## Lines told without a reader -/

/-- A carriage return ends a line by itself, unless a line feed follows. -/
theorem lines_cr (h : bs.head? ≠ some 0x0A) : lines (0x0D :: bs) = [] :: lines bs := by
  rw [lines.eq_def]
  split
  next heq => cases heq
  next heq => cases heq; exact absurd rfl h
  next heq => cases heq; rfl

theorem lines_of_unbroken (h : body.Unbroken) (hne : body ≠ []) : lines body = [body] := by
  induction body with
  | nil => exact absurd rfl hne
  | cons b body ih =>
    obtain ⟨ha, hd, hbody⟩ := unbroken_cons.mp h
    rw [lines_cons_of_unbroken ha hd]
    cases body with
    | nil => rfl
    | cons c body => rw [ih hbody (List.cons_ne_nil c body)]

theorem InLines.lines_eq (h : InLines bs ls) : lines bs = ls := by
  induction h with
  | none => rfl
  | last hbody hne => exact lines_of_unbroken hbody hne
  | lf hbody _ ih => rw [lines_append hbody, ih]
  | crlf hbody _ ih => exact lines_body_append hbody (congrArg _ ih)
  | cr hbody hlf _ ih => exact lines_body_append hbody ((lines_cr hlf).trans (congrArg _ ih))

/-- One more byte, which ends no line, stands at the start of the first line. -/
theorem InLines.cons {b : UInt8} {line : Bytes} (ha : b ≠ 0x0A) (hd : b ≠ 0x0D)
    (h : InLines bs (line :: ls)) : InLines (b :: bs) ((b :: line) :: ls) := by
  have hcons : ∀ {body : Bytes}, Unbroken body → Unbroken (b :: body) :=
    fun hbody => unbroken_cons.mpr ⟨ha, hd, hbody⟩
  cases h with
  | last hbody _ => exact .last (hcons hbody) (List.cons_ne_nil b _)
  | lf hbody rest => exact .lf (hcons hbody) rest
  | crlf hbody rest => exact .crlf (hcons hbody) rest
  | cr hbody hlf rest => exact .cr (hcons hbody) hlf rest

theorem inLines_lines (bs : Bytes) : InLines bs (lines bs) := by
  fun_induction lines bs with
  | case1 => exact .none
  | case2 bs ih => exact .crlf unbroken_nil ih
  | case3 b bs hcrlf hend ih =>
    rcases Bool.or_eq_true_iff.mp hend with ha | hd
    · rw [of_decide_eq_true ha]
      exact .lf unbroken_nil ih
    · obtain rfl := of_decide_eq_true hd
      refine .cr unbroken_nil (fun hhead => ?_) ih
      obtain ⟨rest, rfl⟩ := List.head?_eq_some_iff.mp hhead
      exact hcrlf rest rfl rfl
  | case4 b bs _ hend line rest hlines ih =>
    rw [hlines] at ih
    simp only [Bool.or_eq_true, decide_eq_true_eq, not_or] at hend
    exact ih.cons hend.1 hend.2
  | case5 b bs _ hend hlines ih =>
    rw [hlines] at ih
    simp only [Bool.or_eq_true, decide_eq_true_eq, not_or] at hend
    cases ih
    exact .last (unbroken_cons.mpr ⟨hend.1, hend.2, unbroken_nil⟩) (List.cons_ne_nil b [])

theorem inLines_iff : InLines bs ls ↔ lines bs = ls :=
  ⟨InLines.lines_eq, fun h => h ▸ inLines_lines bs⟩

/-- Lines before and after a line feed; there may be an empty one between them. -/
theorem InLines.append_newline (h : InLines bs ls) (h' : InLines bs' ls') :
    ∃ between, (between = [] ∨ between = [[]]) ∧
      InLines (bs ++ 0x0A :: bs') (ls ++ between ++ ls') := by
  induction h with
  | none => exact ⟨[[]], Or.inr rfl, .lf unbroken_nil h'⟩
  | last hbody _ => exact ⟨[], Or.inl rfl, .lf hbody h'⟩
  | @lf body bs ls hbody _ ih =>
    obtain ⟨between, hbetween, hrest⟩ := ih
    refine ⟨between, hbetween, ?_⟩
    rw [List.append_assoc body]
    exact .lf hbody hrest
  | @crlf body bs ls hbody _ ih =>
    obtain ⟨between, hbetween, hrest⟩ := ih
    refine ⟨between, hbetween, ?_⟩
    rw [List.append_assoc body]
    exact .crlf hbody hrest
  | @cr body bs ls hbody hlf rest ih =>
    cases bs with
    | nil =>
      -- the carriage return and the line feed are one line end
      obtain rfl : [] = ls := rest.lines_eq
      refine ⟨[], Or.inl rfl, ?_⟩
      rw [List.append_assoc body]
      exact .crlf hbody h'
    | cons b bs =>
      obtain ⟨between, hbetween, hrest⟩ := ih
      refine ⟨between, hbetween, ?_⟩
      rw [List.append_assoc body]
      exact .cr hbody hlf hrest

theorem lines_append_newline (bs bs' : Bytes) : ∃ between, (between = [] ∨ between = [[]]) ∧
    lines (bs ++ 0x0A :: bs') = lines bs ++ between ++ lines bs' := by
  obtain ⟨between, hbetween, h⟩ := (inLines_lines bs).append_newline (inLines_lines bs')
  exact ⟨between, hbetween, h.lines_eq⟩

/-! ## Lines that are written -/

theorem lines_flatten {bodies : List Bytes} (h : ∀ body ∈ bodies, Unbroken body) :
    lines (bodies.map (· ++ [0x0A])).flatten = bodies := by
  induction bodies with
  | nil => rfl
  | cons body bodies ih =>
    rw [List.map_cons, List.flatten_cons, List.append_assoc, List.singleton_append,
      lines_append (h body List.mem_cons_self), ih fun b hb => h b (List.mem_cons_of_mem _ hb)]

/-- Some parts with a separator between them and at the end are the parts with the separator after each. -/
theorem intercalate_append_singleton {α : Type} (sep : α) {parts : List (List α)} (h : parts ≠ []) :
    [sep].intercalate parts ++ [sep] = (parts.map (· ++ [sep])).flatten := by
  induction parts with
  | nil => exact absurd rfl h
  | cons part parts ih =>
    cases parts with
    | nil => rw [List.intercalate_singleton, List.map_singleton, List.flatten_singleton]
    | cons next parts =>
      rw [List.intercalate_cons_cons, List.append_assoc, ih (List.cons_ne_nil _ _)]
      rfl

end Bytes

/-- Printable ASCII holds no line end. -/
theorem Utf8.unbroken_encode (h : t.Plain) : (encode t).Unbroken := by
  have hbyte : ∀ b ∈ encode t, 0x20 ≤ b.toNat := by
    intro b hb
    obtain ⟨c, hc, hb⟩ := List.mem_flatMap.mp hb
    have hplain := CodePoint.isPlain_iff.mp (h c hc)
    unfold encodePoint at hb
    dsimp only at hb
    rw [if_pos (by omega)] at hb
    rw [List.mem_singleton.mp hb, toNat_toUInt8 (by omega)]
    exact hplain.1
  exact ⟨fun hm => absurd (hbyte _ hm) (by decide), fun hm => absurd (hbyte _ hm) (by decide)⟩

end ManifestGraph
