/-
  Reports on lines. A report takes its target from a line as JSON that was read and written again
  (`spelled_of_records`); and a line that spells the members of a report is read as that report, with the
  halves in its texts joined and its values settled (`ofLine_write`).
-/
import ManifestGraph.Fallback.Resolver
import ManifestGraph.Proofs.Bytes.Lines
import ManifestGraph.Proofs.Graph.Document
import ManifestGraph.Proofs.Machine

namespace ManifestGraph

open Json (Legible LegibleMembers lenient)

/-! ## What a report holds -/

namespace Record

variable {r : Record} {records : List Record} {bs output : Bytes} {line : Nat} {d v : Data} {key : Text}

/-- The target, if there is one, is a value that was read from a record and written again. -/
def Spelled (r : Record) : Prop :=
  ∀ bs, r.target = some bs → ∃ v, bs = Json.writeBytes Json.Style.compactAscii v ∧ v ≠ .null ∧
    Legible lenient (lenient.maxDepth - 1) v

theorem legible_of_get? {n : Nat} (h : Legible lenient n d) (hget : d.get? key = some v) :
    Legible lenient (n - 1) v := by
  cases d with
  | record members =>
    have hlookup : List.lookup key members.reverse = some v := hget
    have hmem := List.mem_reverse.mp (mem_of_lookup hlookup)
    cases h with
    | emptyRecord => cases hmem
    | record _ hall => exact hall _ hmem
  | _ => cases hget

theorem exists_of_rawMember (h : rawMember d key = some bs) :
    ∃ v, d.get? key = some v ∧ v ≠ .null ∧ bs = Json.writeBytes Json.Style.compactAscii v := by
  unfold rawMember at h
  split at h
  next => cases h
  next => cases h
  next v hnull hget => cases h; exact ⟨v, hget, fun hv => hnull hv, rfl⟩

theorem spelled_of_ofLine (h : ofLine line bs = .ok r) : r.Spelled := by
  unfold ofLine at h
  split at h
  next => split at h <;> cases h
  next members hread =>
    obtain ⟨targetFile, _, h⟩ := Except.bind_eq_ok.mp h
    obtain ⟨pluginFile, _, h⟩ := Except.bind_eq_ok.mp h
    cases h
    intro bs' hbs'
    obtain ⟨v, hget, hnull, rfl⟩ := exists_of_rawMember hbs'
    exact ⟨v, rfl, hnull, legible_of_get? (Json.legible_of_readLenient hread) hget⟩
  next => cases h

theorem spelled_of_ofNumbered {bodies : List Bytes} (h : ofNumbered line bodies = .ok records) :
    ∀ r ∈ records, r.Spelled := by
  induction bodies generalizing line records with
  | nil => cases h; exact List.forall_mem_nil _
  | cons body bodies ih =>
    rw [ofNumbered] at h
    split at h
    next => exact ih h
    next =>
      obtain ⟨r, hr, h⟩ := Except.bind_eq_ok.mp h
      obtain ⟨rest, hrest, h⟩ := Except.bind_eq_ok.mp h
      cases h
      exact List.forall_mem_cons.mpr ⟨spelled_of_ofLine hr, ih hrest⟩

theorem spelled_of_ofBlocks : ∀ r ∈ ofBlocks output, r.Spelled := by
  intro r hr bs hbs
  obtain ⟨block, _, hblock⟩ := List.mem_filterMap.mp hr
  obtain ⟨⟨_, rest⟩, _, hblock⟩ := Option.bind_eq_some_iff.mp hblock
  obtain ⟨⟨graph, target⟩, _, hblock⟩ := Option.bind_eq_some_iff.mp hblock
  cases hblock
  cases hbs

theorem ofLines_of_records {form : Fallback.GraphForm} (hform : form ≠ .blocks)
    (h : form.records output = .ok records) : ofLines output = .ok records := by
  unfold Fallback.GraphForm.records at h
  cases hread : ofLines output with
  | ok records' => cases form <;> first | exact absurd rfl hform | (rw [hread] at h; exact h)
  | error e => cases form <;> first | exact absurd rfl hform | (rw [hread] at h; cases h)

/-- The reports in either form take their targets from JSON that was written again, if they have any. -/
theorem spelled_of_records {form : Fallback.GraphForm} (h : form.records output = .ok records) :
    ∀ r ∈ records, r.Spelled := by
  by_cases hform : form = .blocks
  · rw [hform] at h
    cases h
    exact spelled_of_ofBlocks
  · exact spelled_of_ofNumbered (ofLines_of_records hform h)

/-! ## Written lines -/

section Written

variable {s : Json.Style} {body : α → Data} {report : α → Record} {xs : List α}

/-- A written record starts with a brace. -/
theorem not_blank_writeBytes (s : Json.Style) (members : Members) :
    (Json.writeBytes s (.record members)).allBlank = false := by
  have hwrite : ∃ t, Json.write s (.record members) = CodePoint.scalar '\x7b' :: t := by
    cases members with
    | nil => exact ⟨_, rfl⟩
    | cons m members => exact ⟨_, rfl⟩
  obtain ⟨t, ht⟩ := hwrite
  rw [Json.writeBytes, ht]
  rfl

theorem ofNumbered_writeBytes (hbody : ∀ x, ∃ members, body x = .record members)
    (h : ∀ x ∈ xs, ∀ line, ofLine line (Json.writeBytes s (body x)) = .ok (report x)) (line : Nat) :
    ofNumbered line (xs.map fun x => Json.writeBytes s (body x)) = .ok (xs.map report) := by
  induction xs generalizing line with
  | nil => rfl
  | cons x xs ih =>
    rw [List.forall_mem_cons] at h
    obtain ⟨members, hmembers⟩ := hbody x
    have hblank : (Json.writeBytes s (body x)).allBlank = false := by
      rw [hmembers]
      exact not_blank_writeBytes s members
    rw [List.map_cons, ofNumbered, hblank, if_neg Bool.false_ne_true, h.1 line]
    show (ofNumbered (line + 1) _ >>= fun records => .ok (report x :: records)) = _
    rw [ih h.2 (line + 1)]
    rfl

/-- Records that are written one after the other are read as reports, if each of them is. -/
theorem ofLines_writeBytes (hplain : s.Plain) (hbody : ∀ x, ∃ members, body x = .record members)
    (h : ∀ x ∈ xs, ∀ line, ofLine line (Json.writeBytes s (body x)) = .ok (report x)) :
    ofLines (xs.map fun x => Json.writeBytes s (body x) ++ [0x0A]).flatten = .ok (xs.map report) := by
  have hunbroken : ∀ written ∈ xs.map fun x => Json.writeBytes s (body x), Bytes.Unbroken written := by
    intro written hwritten
    obtain ⟨x, _, rfl⟩ := List.mem_map.mp hwritten
    exact Utf8.unbroken_encode (Json.plain_write hplain _)
  have hlines : Bytes.lines (xs.map fun x => Json.writeBytes s (body x) ++ [0x0A]).flatten =
      xs.map fun x => Json.writeBytes s (body x) := by
    have hflatten := Bytes.lines_flatten hunbroken
    rwa [List.map_map] at hflatten
  rw [ofLines, hlines]
  exact ofNumbered_writeBytes hbody h 1

end Written

/-! ## What a line says -/

/-- The values that a line gives about a project. -/
structure Line where
  targetFile : Text
  graph : Option Data
  pluginFile : Option Text
  target : Option Data
  error : Option Data

namespace Line

variable {l : Line} {s : Json.Style} {n : Nat}

/-- The line as a record. -/
def toData (l : Line) : Data :=
  .record (member "normalisedTargetFile" (.text l.targetFile) ++ optionalMember "depGraph" l.graph
    ++ optionalMember "targetFileFromPlugin" (l.pluginFile.map .text)
    ++ optionalMember "target" l.target ++ optionalMember "error" l.error)

/-- The line with the halves in its texts joined and its values settled. -/
def normal (l : Line) : Line where
  targetFile := l.targetFile.joined
  graph := l.graph.map fun d => d.joined.settled
  pluginFile := l.pluginFile.map Text.joined
  target := l.target.map fun d => d.joined.settled
  error := l.error.map fun d => d.joined.settled

/-- The names of the members are distinct and hold no halves. -/
theorem toData_normal (l : Line) : l.toData.joined.settled = l.normal.toData := by
  obtain ⟨targetFile, graph, pluginFile, target, error⟩ := l
  cases graph <;> cases pluginFile <;> cases target <;> cases error <;> rfl

/-- A value as bytes, unless it is null. -/
def raw : Data → Option Bytes
  | .null => none
  | d => some (Json.writeBytes Json.Style.compactAscii d)

theorem raw_of_ne_null (h : d ≠ .null) : raw d = some (Json.writeBytes Json.Style.compactAscii d) := by
  cases d with
  | null => exact absurd rfl h
  | _ => rfl

/-- The report of a line. -/
def toRecord (l : Line) : Record where
  graph := l.graph.bind raw
  targetFile := l.targetFile
  pluginFile := l.pluginFile
  target := l.target.bind raw
  error := l.error.bind raw

theorem rawMember_eq (d : Data) (key : Text) : rawMember d key = (d.get? key).bind raw := by
  unfold rawMember
  split
  next h => rw [h]; rfl
  next h => rw [h]; rfl
  next v hnull h =>
    rw [h, Option.bind_some, raw_of_ne_null fun hv => hnull hv]

/-- The record says what the line does, in any order of its members. -/
structure SaidBy (l : Line) (members : Members) : Prop where
  targetFile : (Data.record members).get? "normalisedTargetFile" = some (.text l.targetFile)
  graph : (Data.record members).get? "depGraph" = l.graph
  pluginFile : (Data.record members).get? "targetFileFromPlugin" = l.pluginFile.map .text
  target : (Data.record members).get? "target" = l.target
  error : (Data.record members).get? "error" = l.error

/-- Bytes that spell a record that says what a line does are read as its report. -/
theorem SaidBy.ofLine_eq {members : Members} (h : l.SaidBy members)
    (hread : Json.readLenient bs = .ok (.record members)) : ofLine line bs = .ok l.toRecord := by
  have hfile : textMember (.record members) "normalisedTargetFile" line = .ok (some l.targetFile) := by
    rw [textMember, h.targetFile]
  have hplugin : textMember (.record members) "targetFileFromPlugin" line = .ok l.pluginFile := by
    rw [textMember, h.pluginFile]
    cases l.pluginFile <;> rfl
  rw [ofLine, hread]
  dsimp only
  rw [hfile, hplugin, rawMember_eq, rawMember_eq, rawMember_eq, h.graph, h.target, h.error]
  rfl

theorem exists_saidBy_toData (l : Line) : ∃ members, l.toData = .record members ∧ l.SaidBy members := by
  obtain ⟨targetFile, graph, pluginFile, target, error⟩ := l
  refine ⟨_, rfl, ?_⟩
  cases graph <;> cases pluginFile <;> cases target <;> cases error <;> exact ⟨rfl, rfl, rfl, rfl, rfl⟩

/-- The values of a line are legible in some levels. -/
structure Legible (n : Nat) (l : Line) : Prop where
  graph : ∀ d, l.graph = some d → Json.Legible lenient n d
  target : ∀ d, l.target = some d → Json.Legible lenient n d
  error : ∀ d, l.error = some d → Json.Legible lenient n d

theorem Legible.toData (h : l.Legible n) : Json.Legible lenient (n + 1) l.toData := by
  have hfile : LegibleMembers lenient n (member "normalisedTargetFile" (.text l.targetFile)) :=
    legible_member (by decide) (.text (Or.inl rfl))
  exact LegibleMembers.toRecord ((((hfile.append
    (legible_optionalMember (by decide) h.graph)).append
    (legible_optionalText (by decide) fun _ _ => Or.inl rfl)).append
    (legible_optionalMember (by decide) h.target)).append (legible_optionalMember (by decide) h.error))

/-- A line that is written in ASCII is read as its report, with halves joined and values settled. -/
theorem ofLine_write (hs : s.Lays) (hplain : s.Plain) (h : l.Legible (lenient.maxDepth - 1)) :
    ofLine line (Json.writeBytes s l.toData) = .ok l.normal.toRecord := by
  obtain ⟨members, hmembers, hsaid⟩ := l.normal.exists_saidBy_toData
  refine hsaid.ofLine_eq ?_
  rw [Json.readLenient_writeBytes hs hplain h.toData, l.toData_normal, hmembers]

/-- Lines that are written one after the other are read as their reports. -/
theorem ofLines_write (hs : s.Lays) (hplain : s.Plain) {ls : List Line}
    (h : ∀ l ∈ ls, l.Legible (lenient.maxDepth - 1)) :
    ofLines (ls.map fun l => Json.writeBytes s l.toData ++ [0x0A]).flatten =
      .ok (ls.map fun l => l.normal.toRecord) := by
  refine ofLines_writeBytes hplain (fun l => ⟨_, rfl⟩) fun l hl line => ?_
  exact ofLine_write hs hplain (h l hl)

end Line
end Record
end ManifestGraph
