/-
  Reports are read line by line, all or none. A line tells a report if it is a record that names its files
  by texts, or not at all (`Tells`); the reports of an output are those that its lines tell, in order, and
  lines of white space tell nothing (`ofNumbered_eq_ok`). So a line feed between two outputs changes
  nothing but the numbers of the lines (`ofLines_append_newline`).
-/
import ManifestGraph.Proofs.Data.Related
import ManifestGraph.Proofs.Record.Lines

namespace ManifestGraph

/-- The lines that hold something other than white space. -/
def Bytes.filledLines (bs : Bytes) : List Bytes := bs.lines.filter fun line => !line.allBlank

theorem Bytes.filledLines_append_newline (a b : Bytes) :
    filledLines (a ++ 0x0A :: b) = a.filledLines ++ b.filledLines := by
  obtain ⟨between, hbetween, hlines⟩ := lines_append_newline a b
  have hblank : between.filter (fun line : Bytes => !line.allBlank) = [] := by
    rcases hbetween with rfl | rfl <;> rfl
  simp [filledLines, hlines, hblank]

namespace Record

variable {bs a b output : Bytes} {ls : List Bytes} {d : Data} {key : Text} {file : Option Text}
  {r : Record} {records : List Record} {line : Nat} {e : Failure}

/-! ## What a line says -/

/-- What a record says of a file: its name, or nothing, which null says too. -/
inductive NamesFile (d : Data) (key : Text) : Option Text → Prop where
  | absent (h : d.get? key = none) : NamesFile d key none
  | null (h : d.get? key = some .null) : NamesFile d key none
  | text {name : Text} (h : d.get? key = some (.text name)) : NamesFile d key (some name)

/-- The record has something under the key that is neither null nor a text. -/
def Misnames (d : Data) (key : Text) : Prop :=
  ∃ v, d.get? key = some v ∧ v ≠ .null ∧ ∀ name, v ≠ .text name

/-- The report has what the record says: the names of the files, and of the other members the values as
JSON again, unless they are null. -/
structure ToldBy (d : Data) (r : Record) : Prop where
  targetFile : ∃ file, NamesFile d "normalisedTargetFile" file ∧ r.targetFile = file.getD []
  pluginFile : NamesFile d "targetFileFromPlugin" r.pluginFile
  graph : r.graph = (d.get? "depGraph").bind Line.raw
  target : r.target = (d.get? "target").bind Line.raw
  error : r.error = (d.get? "error").bind Line.raw

/-- The line is a record that tells the report. -/
def Tells (bs : Bytes) (r : Record) : Prop :=
  ∃ members, Json.readLenient bs = .ok (.record members) ∧ ToldBy (.record members) r

/-- The line is no record, or one that names a file by something other than a text. -/
def Unreadable (bs : Bytes) : Prop :=
  (∀ members, Json.readLenient bs ≠ .ok (.record members)) ∨
    ∃ members, Json.readLenient bs = .ok (.record members) ∧
      (Misnames (.record members) "normalisedTargetFile" ∨
        Misnames (.record members) "targetFileFromPlugin")

/-- The line is nested too deep to tell whether it is JSON. -/
def TooDeep (bs : Bytes) : Prop := ∃ fault, Json.readLenient bs = .error fault ∧ fault.isDepth = true

theorem textMember_eq_ok : textMember d key line = .ok file ↔ NamesFile d key file := by
  unfold textMember
  constructor
  · intro h
    split at h
    next hget => cases h; exact .absent hget
    next hget => cases h; exact .null hget
    next name hget => cases h; exact .text hget
    next => cases h
  · intro h
    cases h with
    | absent hget => rw [hget]
    | null hget => rw [hget]
    | text hget => rw [hget]

theorem textMember_eq_error (h : textMember d key line = .error e) :
    e = .of (.output (.memberNotText line key)) := by
  unfold textMember at h
  split at h
  next => cases h
  next => cases h
  next => cases h
  next => cases h; rfl

theorem misnames_iff : Misnames d key ↔ ∀ file, ¬NamesFile d key file := by
  constructor
  · rintro ⟨v, hget, hnull, htext⟩ file h
    cases h with
    | absent h => rw [hget] at h; cases h
    | null h => exact hnull (Option.some.inj (hget.symm.trans h))
    | text h => exact htext _ (Option.some.inj (hget.symm.trans h))
  · intro h
    cases hget : d.get? key with
    | none => exact absurd (.absent hget) (h none)
    | some v =>
      refine ⟨v, hget, ?_, ?_⟩
      · rintro rfl
        exact h none (.null hget)
      · rintro name rfl
        exact h (some name) (.text hget)

theorem ofLine_eq_ok : ofLine line bs = .ok r ↔ Tells bs r := by
  unfold ofLine
  constructor
  · intro h
    split at h
    next => split at h <;> cases h
    next members hread =>
      obtain ⟨file, hfile, h⟩ := Except.bind_eq_ok.mp h
      obtain ⟨plugin, hplugin, h⟩ := Except.bind_eq_ok.mp h
      cases h
      exact ⟨members, hread, ⟨file, textMember_eq_ok.mp hfile, rfl⟩, textMember_eq_ok.mp hplugin,
        Line.rawMember_eq _ _, Line.rawMember_eq _ _, Line.rawMember_eq _ _⟩
    next => cases h
  · rintro ⟨members, hread, ⟨file, hfile, htarget⟩, hplugin, hgraph, htarget', herror⟩
    rw [hread]
    refine Except.bind_eq_ok.mpr ⟨file, textMember_eq_ok.mpr hfile, ?_⟩
    refine Except.bind_eq_ok.mpr ⟨r.pluginFile, textMember_eq_ok.mpr hplugin, ?_⟩
    rw [Line.rawMember_eq, Line.rawMember_eq, Line.rawMember_eq, ← htarget, ← hgraph, ← htarget', ← herror]

/-- A line tells a report unless it is unreadable. -/
theorem exists_tells_iff : (∃ r, Tells bs r) ↔ ¬Unreadable bs := by
  constructor
  · rintro ⟨r, members, hread, ⟨file, hfile, _⟩, hplugin, _⟩ (h | ⟨members', hread', h⟩)
    · exact h members hread
    · obtain rfl : members' = members := by rw [hread] at hread'; cases hread'; rfl
      rcases h with h | h
      · exact misnames_iff.mp h file hfile
      · exact misnames_iff.mp h r.pluginFile hplugin
  · intro h
    simp only [Unreadable, not_or, not_exists, not_and, not_forall, not_not, misnames_iff] at h
    obtain ⟨⟨members, hread⟩, hnames⟩ := h
    obtain ⟨⟨file, hfile⟩, ⟨plugin, hplugin⟩⟩ := hnames members hread
    exact ⟨⟨_, file.getD [], plugin, _, _⟩, members, hread, ⟨file, hfile, rfl⟩, hplugin, rfl, rfl, rfl⟩

/-- A line that is not read as a report is unreadable output, unless it is nested too deep. -/
theorem isOutputFault_of_ofLine (h : ofLine line bs = .error e) (hdeep : ¬TooDeep bs) :
    e.fault.reason.isOutputFault = true := by
  unfold ofLine at h
  split at h
  next fault hread =>
    split at h
    next hd => exact absurd ⟨fault, hread, hd⟩ hdeep
    next => cases h; rfl
  next members _ =>
    rcases Except.bind_eq_error.mp h with h | ⟨file, _, h⟩
    · rw [textMember_eq_error h]; rfl
    rcases Except.bind_eq_error.mp h with h | ⟨plugin, _, h⟩
    · rw [textMember_eq_error h]; rfl
    · cases h
  next => cases h; rfl

/-! ## All lines -/

theorem ofNumbered_eq_ok : ofNumbered line ls = .ok records ↔
    List.Forall₂ Tells (ls.filter fun bs => !bs.allBlank) records := by
  induction ls generalizing line records with
  | nil =>
    rw [List.filter_nil, List.forall₂_nil_left_iff, ofNumbered, Except.ok.injEq, eq_comm]
  | cons bs ls ih =>
    rw [ofNumbered]
    split
    next hblank => rw [List.filter_cons_of_neg (by simpa using hblank), ih]
    next hblank =>
      rw [List.filter_cons_of_pos (by simpa using hblank), List.forall₂_cons_left_iff,
        Except.bind_eq_ok]
      simp only [Except.bind_eq_ok, ofLine_eq_ok, ih, Except.ok.injEq]
      grind

/-- The reading of all lines fails at one of them. -/
theorem exists_of_ofNumbered_eq_error (h : ofNumbered line ls = .error e) :
    ∃ bs ∈ ls.filter (fun bs => !bs.allBlank), ∃ n, ofLine n bs = .error e := by
  induction ls generalizing line with
  | nil => cases h
  | cons bs ls ih =>
    rw [ofNumbered] at h
    split at h
    next hblank =>
      rw [List.filter_cons_of_neg (by simpa using hblank)]
      exact ih h
    next hblank =>
      rw [List.filter_cons_of_pos (by simpa using hblank)]
      rcases Except.bind_eq_error.mp h with h | ⟨r, _, h⟩
      · exact ⟨bs, List.mem_cons_self, line, h⟩
      rcases Except.bind_eq_error.mp h with h | ⟨records, _, h⟩
      · obtain ⟨bs', hmem, hbs'⟩ := ih h
        exact ⟨bs', List.mem_cons_of_mem _ hmem, hbs'⟩
      · cases h

theorem ofLines_eq_ok : ofLines output = .ok records ↔ List.Forall₂ Tells output.filledLines records :=
  ofNumbered_eq_ok

/-- Two outputs with a line feed between them are read if both are, and as what they are read as. -/
theorem ofLines_append_newline : ofLines (a ++ 0x0A :: b) = .ok records ↔
    ∃ before after, ofLines a = .ok before ∧ ofLines b = .ok after ∧ records = before ++ after := by
  simp only [ofLines_eq_ok, Bytes.filledLines_append_newline, forall₂_append_left_iff]

theorem exists_ofLines_eq_error_iff :
    (∃ e, ofLines output = .error e) ↔ ∃ line ∈ output.filledLines, Unreadable line := by
  have hfails : (∃ e, ofLines output = .error e) ↔ ¬∃ records, ofLines output = .ok records := by
    cases ofLines output <;> simp
  rw [hfails]
  simp only [ofLines_eq_ok, exists_forall₂_iff, exists_tells_iff]
  push Not
  rfl

/-- Reading is all or nothing, and line by line. What is read of two outputs with a line feed between them
is what is read of both. An output is cut at each of the three line ends; it is read as one report for each
line that is not white space, in order, unless one of these is unreadable: then, and only then, the reading
fails, and as unreadable output if no line is nested too deep. -/
theorem ofLines_linewise :
    (∀ a b records, ofLines (a ++ 0x0A :: b) = .ok records ↔
      ∃ before after, ofLines a = .ok before ∧ ofLines b = .ok after ∧ records = before ++ after) ∧
    ∀ output : Bytes, output.InLines output.lines ∧
      (∀ records, ofLines output = .ok records ↔ List.Forall₂ Tells output.filledLines records) ∧
      ((∃ e, ofLines output = .error e) ↔ ∃ line ∈ output.filledLines, Unreadable line) ∧
      ((∀ line ∈ output.filledLines, ¬TooDeep line) →
        ∀ e, ofLines output = .error e → e.fault.reason.isOutputFault = true) := by
  refine ⟨fun a b records => ofLines_append_newline, fun output => ?_⟩
  refine ⟨Bytes.inLines_lines output, fun records => ofLines_eq_ok, exists_ofLines_eq_error_iff, ?_⟩
  intro hdeep e he
  obtain ⟨bs, hmem, n, hline⟩ := exists_of_ofNumbered_eq_error he
  exact isOutputFault_of_ofLine hline (hdeep bs hmem)

/-- A report, a line of white space, a number and another report, with a line end of each kind. -/
def mixedLines : Bytes := Utf8.encode "\x7b\"normalisedTargetFile\":\"a\"\x7d\r\n\x0b\t\r7\n\x7b\x7d"

theorem ofLines_linewise_mixed :
    (∀ line ∈ mixedLines.filledLines, ¬TooDeep line) ∧
      ∃ e, ofLines mixedLines = .error e ∧ e.fault.reason.isOutputFault = true := by
  have hread : ∀ line ∈ mixedLines.filledLines, (Json.readLenient line).toOption.isSome = true := by
    decide +kernel
  have hdeep : ∀ line ∈ mixedLines.filledLines, ¬TooDeep line := by
    rintro line hline ⟨fault, hfault, _⟩
    have hsome := hread line hline
    rw [hfault] at hsome
    cases hsome
  have hnone : (ofLines mixedLines).toOption.isSome = false := by decide +kernel
  cases hlines : ofLines mixedLines with
  | ok records => rw [hlines] at hnone; cases hnone
  | error e => exact ⟨hdeep, e, rfl, (ofLines_linewise.2 mixedLines).2.2.2 hdeep e hlines⟩

end Record
end ManifestGraph
