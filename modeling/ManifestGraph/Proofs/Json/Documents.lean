/-
  JSON documents as bytes. A document that the strict reader takes, the free reader reads to the same
  value, settled (`readLenient_of_readStrict`); and both readers read back what an ASCII layout wrote
  (`readStrict_writeBytes`, `readLenient_writeBytes`).
-/
import ManifestGraph.Proofs.Json.Ascii
import ManifestGraph.Proofs.Json.Reading
import ManifestGraph.Proofs.Json.RoundTrip

namespace ManifestGraph.Json

open CodePoint (isPlain_iff)
open Text (isScalar_append)

variable {d : Dialect} {s : Style} {t : Text} {v : Data} {bs : Bytes}

/-! ## Characters that no JSON text holds -/

/-- No step of the lexer takes a null character. -/
theorem lexerStep_null (l : Lexer) (p : Lexer × List Token) : l.step d (.scalar '\x00') ≠ .ok p := by
  have hstart : start (.scalar '\x00') = .error .malformed := rfl
  intro h
  cases l with
  | between => rw [Lexer.step, hstart] at h; cases h
  | bare seen =>
    obtain ⟨v, q, _, hnext, _⟩ := (step_bare_eq_ok rfl).mp h
    rw [hstart] at hnext
    cases hnext
  | quoted seen high =>
    rw [Lexer.step, if_neg (by decide), if_neg (by decide), if_pos (by decide)] at h
    cases h
  | escape seen high => rw [Lexer.step, if_neg (by decide)] at h; cases h
  | hex seen high left value => rw [Lexer.step] at h; cases h

theorem ne_null_of_readFrom {l : Lexer} {r : Reader} (h : readFrom d l r t = .ok v) :
    ∀ c ∈ t, c.toNat ≠ 0 := by
  induction t generalizing l r with
  | nil => exact List.forall_mem_nil _
  | cons c t ih =>
    obtain ⟨l', tokens, r', hstep, _, hrest⟩ := readFrom_cons_eq_ok.mp h
    refine List.forall_mem_cons.mpr ⟨fun hc => ?_, ih hrest⟩
    rw [CodePoint.eq_scalar_of_toNat_eq (x := '\x00') hc] at hstep
    exact lexerStep_null l _ hstep

/-- A text that starts with a byte order mark is not read. -/
theorem head_ne_mark {r : Reader} (h : readFrom d .between r t = .ok v) :
    t.head? ≠ some (.scalar '\uFEFF') := by
  intro hhead
  obtain ⟨t', rfl⟩ := List.head?_eq_some_iff.mp hhead
  obtain ⟨l', tokens, r', hstep, _, _⟩ := readFrom_cons_eq_ok.mp h
  have hstart : start (.scalar '\uFEFF') = .error .malformed := rfl
  rw [Lexer.step, hstart] at hstep
  cases hstep

/-! ## The strict and the free reader -/

theorem read_eq_ok : read d t = .ok v ↔
    ∃ w, readFrom d .between (.value []) t = .ok w ∧ (if d.repeats then w else w.settled) = v := by
  rw [read, Except.bind_eq_ok]
  exact exists_congr fun w => and_congr_right fun _ => ⟨Except.ok.inj, congrArg _⟩

theorem readStrict_eq_some (h : readStrict bs = some v) :
    ∃ t, Utf8.decode bs = .ok t ∧ readFrom strict .between (.value []) t = .ok v := by
  unfold readStrict at h
  split at h
  next t hdecode =>
    obtain ⟨w, hread, rfl⟩ := read_eq_ok.mp (Except.eq_ok_of_toOption h)
    exact ⟨t, hdecode, hread⟩
  next => cases h

theorem legible_of_readStrict (h : readStrict bs = some v) : Legible strict strict.maxDepth v := by
  obtain ⟨t, _, hread⟩ := readStrict_eq_some h
  exact legible_of_readFrom Reader.legible_value hread

theorem read_lenient (h : readFrom lenient .between (.value []) t = .ok v) :
    read lenient t = .ok v.settled :=
  read_eq_ok.mpr ⟨v, h, rfl⟩

theorem legible_of_read_lenient (h : read lenient t = .ok v) : Legible lenient lenient.maxDepth v := by
  obtain ⟨w, hread, rfl⟩ := read_eq_ok.mp h
  exact (legible_of_readFrom Reader.legible_value hread).settled

/-- The free reader reads what the strict one reads, and keeps the last of repeated keys. -/
theorem readLenient_of_readStrict (h : readStrict bs = some v) : readLenient bs = .ok v.settled := by
  obtain ⟨t, hdecode, hread⟩ := readStrict_eq_some h
  have hbytes := Encoding.decode_of_utf8 hdecode (ne_null_of_readFrom hread) (head_ne_mark hread)
  rw [readLenient, hbytes]
  exact read_lenient (readFrom_mono laxer_strict_lenient Reader.legible_value hread)

theorem readLenient_eq_ok (h : readLenient bs = .ok v) : ∃ t, read lenient t = .ok v := by
  unfold readLenient at h
  split at h
  next t _ => exact ⟨t, h⟩
  next => cases h

theorem legible_of_readLenient (h : readLenient bs = .ok v) : Legible lenient lenient.maxDepth v := by
  obtain ⟨t, hread⟩ := readLenient_eq_ok h
  exact legible_of_read_lenient hread

/-! ## Written documents -/

theorem read_lenient_write (hs : s.Lays) (hascii : s.ascii = true)
    (h : Legible lenient lenient.maxDepth v) : read lenient (write s v) = .ok v.joined.settled :=
  read_lenient (readFrom_write hs (Or.inl hascii) h)

/-- The free reader reads back what was written in ASCII, with halves joined and keys settled. -/
theorem readLenient_writeBytes (hs : s.Lays) (hplain : s.Plain)
    (h : Legible lenient lenient.maxDepth v) : readLenient (writeBytes s v) = .ok v.joined.settled := by
  rw [readLenient, writeBytes, Encoding.decode_encode_printable (plain_write hplain v)]
  exact read_lenient_write hs hplain.ascii h

theorem readStrict_of_decode (hs : s.Lays) (h : Legible strict strict.maxDepth v)
    (hdecode : Utf8.decode (writeBytes s v) = .ok (write s v)) : readStrict (writeBytes s v) = some v := by
  rw [readStrict, hdecode]
  dsimp only
  rw [read, readFrom_write hs (Or.inr rfl) h, h.joined_eq rfl]
  rfl

/-- The strict reader reads back what was written in ASCII. -/
theorem readStrict_writeBytes (hs : s.Lays) (hplain : s.Plain) (h : Legible strict strict.maxDepth v) :
    readStrict (writeBytes s v) = some v :=
  readStrict_of_decode hs h (Utf8.decode_encode (plain_write hplain v).isScalar)

/-! ## Documents written as they are -/

theorem writePoint_surrogate (n : Fin 2048) : writePoint false (.surrogate n) = [.surrogate n] := by
  have hne : ∀ x : Char, CodePoint.surrogate n ≠ .scalar x := fun _ h => nomatch h
  unfold writePoint
  rw [if_neg (hne _), if_neg (hne _), if_neg (hne _), if_neg (hne _), if_neg (hne _), if_neg (hne _),
    if_neg (hne _)]
  dsimp only
  rw [CodePoint.toNat_surrogate, if_neg (by omega)]
  rfl

theorem isScalar_of_writeText (h : (writeText false t).isScalar = true) : t.isScalar = true := by
  rw [writeText, isScalar_append, isScalar_append] at h
  refine List.all_eq_true.mpr fun c hc => ?_
  cases c with
  | scalar c => rfl
  | surrogate n =>
    have hmem : CodePoint.surrogate n ∈ t.flatMap (writePoint false) := by
      refine List.mem_flatMap.mpr ⟨_, hc, ?_⟩
      rw [writePoint_surrogate]
      exact List.mem_singleton_self _
    exact List.all_eq_true.mp h.1.2 _ hmem

theorem isScalar_writePoint {c : CodePoint} (hc : c.char?.isSome = true) :
    Text.isScalar (writePoint false c) = true := by
  rcases writePoint_cases false c with ⟨e, he, hwrite⟩ | ⟨_, _, hwrite⟩
  · have hplain : Text.Plain [.scalar '\\', e] :=
      List.forall_mem_cons.mpr ⟨rfl, List.forall_mem_singleton.mpr (isPlain_iff.mpr he.printable)⟩
    rw [hwrite]
    exact hplain.isScalar
  · rw [hwrite, Bool.not_false, Bool.true_or, if_pos rfl]
    split
    next => exact (plain_escapeUnit _).isScalar
    next => exact List.all_eq_true.mpr (List.forall_mem_singleton.mpr hc)

theorem isScalar_writeText (h : t.isScalar = true) : (writeText false t).isScalar = true := by
  rw [writeText, isScalar_append, isScalar_append]
  refine ⟨⟨rfl, List.all_eq_true.mpr fun c hc => ?_⟩, rfl⟩
  obtain ⟨a, ha, hca⟩ := List.mem_flatMap.mp hc
  exact List.all_eq_true.mp (isScalar_writePoint (List.all_eq_true.mp h a ha)) c hca

section Scalar

variable {n : Nat} {d' : Dialect} (hs : s.ascii = false)

theorem isScalar_of_writeItems {items : List Data} (h : (writeItems s items).isScalar = true) :
    ∀ x ∈ items, (write s x).isScalar = true := by
  induction items with
  | nil => exact List.forall_mem_nil _
  | cons x items ih =>
    rw [writeItems, isScalar_append, isScalar_append] at h
    exact List.forall_mem_cons.mpr ⟨h.2.1, ih h.2.2⟩

include hs

theorem isScalar_of_writeMembers {members : List (Text × Data)}
    (h : (writeMembers s members).isScalar = true) :
    ∀ m ∈ members, m.1.isScalar = true ∧ (write s m.2).isScalar = true := by
  induction members with
  | nil => exact List.forall_mem_nil _
  | cons m members ih =>
    rw [writeMembers, hs, isScalar_append, isScalar_append, isScalar_append, isScalar_append] at h
    exact List.forall_mem_cons.mpr ⟨⟨isScalar_of_writeText h.2.1, h.2.2.2.1⟩, ih h.2.2.2.2⟩

/-- A value that is written without lone halves is legible without them. -/
theorem Legible.of_isScalar (h : Legible d n v) (hcounts : d'.countsEmpty = d.countsEmpty)
    (hscalar : (write s v).isScalar = true) : Legible d' n v := by
  induction h with
  | null n => exact .null n
  | bool n b => exact .bool n b
  | int h => exact .int h
  | float h => exact .float h
  | text =>
    rw [write, hs] at hscalar
    exact .text (Or.inr (isScalar_of_writeText hscalar))
  | emptyList h => exact .emptyList fun hc => h (hcounts ▸ hc)
  | @list n items _ ih =>
    cases items with
    | nil => exact .list (List.forall_mem_nil _)
    | cons x items =>
      rw [write, ← List.singleton_append, isScalar_append, isScalar_append] at hscalar
      have hall : ∀ y ∈ x :: items, (write s y).isScalar = true :=
        List.forall_mem_cons.mpr ⟨hscalar.2.1, isScalar_of_writeItems hscalar.2.2⟩
      exact .list fun y hy => ih y hy (hall y hy)
  | emptyRecord h => exact .emptyRecord fun hc => h (hcounts ▸ hc)
  | @record n members _ _ ih =>
    cases members with
    | nil => exact .record (List.forall_mem_nil _) (List.forall_mem_nil _)
    | cons m members =>
      rw [write, hs, ← List.singleton_append, isScalar_append, isScalar_append, isScalar_append,
        isScalar_append] at hscalar
      obtain ⟨_, hkey, _, hvalue, hrest⟩ := hscalar
      have hall : ∀ y ∈ m :: members, y.1.isScalar = true ∧ (write s y.2).isScalar = true :=
        List.forall_mem_cons.mpr
          ⟨⟨isScalar_of_writeText hkey, hvalue⟩, isScalar_of_writeMembers hs hrest⟩
      exact .record (fun y hy => Or.inr (hall y hy).1) fun y hy => ih y hy (hall y hy).2

end Scalar

section Written

variable {n : Nat} (hs : s.Lays) (hascii : s.ascii = false)

include hs

theorem Style.Lays.isScalar_comma : s.comma.isScalar = true := by
  obtain ⟨k, hk⟩ := hs.comma
  rw [hk]
  exact List.all_eq_true.mpr (List.forall_mem_cons.mpr ⟨rfl, fun c hc => by
    rw [List.eq_of_mem_replicate hc]; rfl⟩)

theorem Style.Lays.isScalar_colon : s.colon.isScalar = true := by
  obtain ⟨k, hk⟩ := hs.colon
  rw [hk]
  exact List.all_eq_true.mpr (List.forall_mem_cons.mpr ⟨rfl, fun c hc => by
    rw [List.eq_of_mem_replicate hc]; rfl⟩)

theorem isScalar_writeItems {items : List Data} (h : ∀ x ∈ items, (write s x).isScalar = true) :
    (writeItems s items).isScalar = true := by
  induction items with
  | nil => rfl
  | cons x items ih =>
    rw [List.forall_mem_cons] at h
    rw [writeItems, isScalar_append, isScalar_append]
    exact ⟨hs.isScalar_comma, h.1, ih h.2⟩

include hascii

theorem isScalar_writeMembers {members : List (Text × Data)}
    (h : ∀ m ∈ members, m.1.isScalar = true ∧ (write s m.2).isScalar = true) :
    (writeMembers s members).isScalar = true := by
  induction members with
  | nil => rfl
  | cons m members ih =>
    rw [List.forall_mem_cons] at h
    rw [writeMembers, hascii, isScalar_append, isScalar_append, isScalar_append, isScalar_append]
    exact ⟨hs.isScalar_comma, isScalar_writeText h.1.1, hs.isScalar_colon, h.1.2, ih h.2⟩

/-- A value without lone halves is written without them. -/
theorem isScalar_write (h : Legible d n v) (hhalves : d.halves = false) :
    (write s v).isScalar = true := by
  have hallowed : ∀ t, d.Allows t → t.isScalar = true := by
    intro t ht
    rcases ht with ht | ht
    · rw [hhalves] at ht; cases ht
    · exact ht
  induction h with
  | null => rfl
  | bool _ b => cases b <;> rfl
  | int => exact (plain_of_allBare (allBare_ofInt _)).isScalar
  | float => exact (plain_of_allBare (allBare_render _)).isScalar
  | text h => rw [write, hascii]; exact isScalar_writeText (hallowed _ h)
  | emptyList => rfl
  | emptyRecord => rfl
  | @list n items _ ih =>
    cases items with
    | nil => rfl
    | cons x items =>
      rw [List.forall_mem_cons] at ih
      rw [write, ← List.singleton_append, isScalar_append, isScalar_append]
      exact ⟨rfl, ih.1, isScalar_writeItems hs ih.2⟩
  | @record n members hkeys _ ih =>
    cases members with
    | nil => rfl
    | cons m members =>
      rw [List.forall_mem_cons] at hkeys ih
      rw [write, hascii, ← List.singleton_append, isScalar_append, isScalar_append, isScalar_append,
        isScalar_append]
      exact ⟨rfl, isScalar_writeText (hallowed _ hkeys.1), hs.isScalar_colon, ih.1,
        isScalar_writeMembers hs hascii fun y hy => ⟨hallowed _ (hkeys.2 y hy), ih.2 y hy⟩⟩

end Written

/-- The strict dialect, but with lone halves in strings. -/
def loose : Dialect := { strict with halves := true }

/-- What is written as it is can be read back strictly if it holds no lone halves. -/
theorem readStrict_write (hs : s.Lays) (hascii : s.ascii = false) (h : Legible loose strict.maxDepth v)
    (hscalar : (write s v).isScalar = true) : readStrict (writeBytes s v) = some v :=
  readStrict_of_decode hs (h.of_isScalar hascii rfl hscalar) (Utf8.decode_encode hscalar)

theorem isScalar_of_readStrict {w : Data} (h : readStrict (writeBytes s v) = some w) :
    (write s v).isScalar = true := by
  obtain ⟨t, hdecode, _⟩ := readStrict_eq_some h
  exact Utf8.isScalar_of_decode_encode hdecode

end ManifestGraph.Json
