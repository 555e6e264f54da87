/-
  The line protocol loses nothing but split characters. The outputs that reports are made into are written
  as one line each, and the lines are read and made into outputs again that differ in one way only: two
  halves of a surrogate pair that stood apart are the character that they make (`reread_of_records`).
-/
import ManifestGraph.Proofs.Fallback.Resolver

namespace ManifestGraph.Fallback

open Json (Style)

variable {form : GraphForm} {output : Bytes} {parsed records : List Record} {outputs : List Output}
  {o o' : Output} {p : Output.Parts} {m m' : Machine}

/-! ## One output -/

/-- What becomes of an output that is written as a line and read again. The names are the same, but for
halves that make a character. The target is there if it was, and it is the same JSON text but for keys
that the text repeats, of which the last counts. The payload is empty if it was, else it holds the same
graph. The errors are the same. -/
structure Reread (o o' : Output) : Prop where
  targetFile : o'.targetFile = o.targetFile.joined
  pluginFile : o'.pluginFile = o.pluginFile.map Text.joined
  target : o.target = none ∧ o'.target = none ∨ ∃ t v, o.target = some t ∧
    Json.readFrom Json.lenient .between (.value []) t = .ok v ∧
    t = Json.write Style.compactAscii v ∧ o'.target = some (Json.write Style.compactAscii v.settled)
  graph : o.payload = [] ∧ o'.payload = [] ∨
    ∃ g, DependencyGraph.decode o.payload = .ok g ∧ DependencyGraph.decode o'.payload = .ok g
  contentType : o'.contentType = o.contentType
  errors : o'.errors = o.errors

/-- Names without split characters are kept as they are. -/
theorem Reread.names_eq (h : Reread o o') (hfile : o.targetFile.isScalar = true)
    (hplugin : ∀ t, o.pluginFile = some t → t.isScalar = true) :
    o'.targetFile = o.targetFile ∧ o'.pluginFile = o.pluginFile := by
  refine ⟨by rw [h.targetFile, Text.joined_of_isScalar hfile], ?_⟩
  rw [h.pluginFile]
  cases hname : o.pluginFile with
  | none => rfl
  | some t => rw [Option.map_some, Text.joined_of_isScalar (hplugin t hname)]

theorem reread_of_carries (h : o.Carries p) : Reread o (reread o p) where
  targetFile := rfl
  pluginFile := rfl
  target := by
    cases hv : p.target with
    | none => exact Or.inl ⟨by rw [h.target, hv]; rfl, by rw [reread, Output.Parts.written, hv]; rfl⟩
    | some v =>
      have hlegible : Json.Legible Json.lenient Json.lenient.maxDepth v :=
        (h.value v hv).2.mono (Nat.sub_le _ _)
      refine Or.inr ⟨Json.write Style.compactAscii v, v.joined, ?_, ?_, ?_, ?_⟩
      · rw [h.target, hv]; rfl
      · exact Json.readFrom_write Json.lays_compactAscii (Or.inl rfl) hlegible
      · exact (Json.write_joined rfl v).symm
      · rw [reread, Output.Parts.written, hv]; rfl
  graph := by
    cases hd : p.graph with
    | none => exact Or.inl ⟨h.empty hd, by rw [reread, Output.Parts.written, hd]; rfl⟩
    | some d =>
      obtain ⟨hread, g, hfit, _⟩ := h.graph d hd
      have hpayload : (reread o p).payload = Json.writeBytes Style.compactAscii d.settled := by
        rw [reread, Output.Parts.written, hd]
        rfl
      refine Or.inr ⟨g, DependencyGraph.decode_eq_ok.mpr ⟨d, hread, hfit⟩, ?_⟩
      rw [hpayload]
      exact DependencyGraph.decode_eq_ok.mpr
        ⟨d.settled, readStrict_graph h hd, DependencyGraph.settles_fit d g hfit⟩
  contentType := h.json.symm
  errors := rfl

/-! ## All outputs of a run -/

/-- All outputs carry their parts. -/
theorem exists_carries_all (hspelled : ∀ r ∈ records, r.Spelled)
    (h : outputsOf records m = (.ok outputs, m')) :
    ∃ carried : List (Output × Output.Parts), carried.map Prod.fst = outputs ∧
      ∀ x ∈ carried, x.1.Carries x.2 := by
  induction records generalizing m outputs with
  | nil =>
    obtain ⟨houtputs, _⟩ := Run.pure_eq_ok.mp h
    exact ⟨[], houtputs, List.forall_mem_nil _⟩
  | cons r rs ih =>
    obtain ⟨o, m₁, os, ho, hos, rfl⟩ := outputsOf_cons.mp h
    obtain ⟨p, hp⟩ := exists_carries (hspelled r List.mem_cons_self) ho
    obtain ⟨carried, rfl, hcarried⟩ := ih (fun r' hr' => hspelled r' (List.mem_cons_of_mem _ hr')) hos
    exact ⟨(o, p) :: carried, rfl, List.forall_mem_cons.mpr ⟨hp, hcarried⟩⟩

/-- The reports of the written lines are made into outputs again. -/
theorem outputsOf_written {carried : List (Output × Output.Parts)} (h : ∀ x ∈ carried, x.1.Carries x.2)
    (m : Machine) : outputsOf (carried.map fun x => (x.1.line x.2).normal.toRecord) m =
      (.ok (carried.map fun x => reread x.1 x.2), m) := by
  induction carried with
  | nil => rfl
  | cons x carried ih =>
    exact outputsOf_cons.mpr ⟨_, m, _, outputOf_written (h x List.mem_cons_self),
      ih fun y hy => h y (List.mem_cons_of_mem _ hy), rfl⟩

/-- A report apart from its graph. -/
def apart (r : Record) : Record := { r with graph := none }

/-- Whatever bytes the reports of a run hold as their graphs: if they are made into outputs, each output
is written as one line, and the lines are read as reports that are made, on any machine, into outputs that
are the same but for split characters. -/
theorem reread_of_records (hparsed : form.records output = .ok parsed)
    (hrecords : records.map apart = parsed.map apart)
    (houtputs : outputsOf records m = (.ok outputs, m')) :
    ∃ lines, List.Forall₂ (fun o line => o.toLines = .ok line ∧ Bytes.IsLine line)
      outputs lines ∧
      ∃ records' outputs', GraphForm.lines.records lines.flatten = .ok records' ∧
        (∀ m, outputsOf records' m = (.ok outputs', m)) ∧ List.Forall₂ Reread outputs outputs' := by
  have hspelled : ∀ r ∈ records, r.Spelled := by
    intro r hr
    have hmem : apart r ∈ parsed.map apart := hrecords ▸ List.mem_map_of_mem hr
    obtain ⟨r', hr', heq⟩ := List.mem_map.mp hmem
    have htarget : (apart r').target = (apart r).target := by rw [heq]
    intro bs hbs
    exact Record.spelled_of_records hparsed r' hr' bs (htarget.trans hbs)
  obtain ⟨carried, rfl, hcarried⟩ := exists_carries_all hspelled houtputs
  have hlegible : ∀ l ∈ carried.map fun x => x.1.line x.2, l.Legible (Json.lenient.maxDepth - 1) := by
    intro l hl
    obtain ⟨x, hx, rfl⟩ := List.mem_map.mp hl
    exact (hcarried x hx).legible_line
  have hread : Record.ofLines
      (carried.map fun x => Json.writeBytes Style.spaced (x.1.line x.2).toData ++ [0x0A]).flatten =
        .ok (carried.map fun x => (x.1.line x.2).normal.toRecord) := by
    have hwritten := Record.Line.ofLines_write Json.lays_spaced Json.plain_spaced hlegible
    rwa [List.map_map, List.map_map] at hwritten
  refine ⟨carried.map fun x => Json.writeBytes Style.spaced (x.1.line x.2).toData ++ [0x0A], ?_,
    carried.map fun x => (x.1.line x.2).normal.toRecord, carried.map fun x => reread x.1 x.2, ?_, ?_, ?_⟩
  · rw [List.forall₂_map_left_iff, List.forall₂_map_right_iff]
    refine List.forall₂_same.mpr fun x hx => ⟨(hcarried x hx).toLines_eq, ?_⟩
    exact ⟨_, Utf8.unbroken_encode (Json.plain_write Json.plain_spaced _), rfl⟩
  · rw [GraphForm.records, hread]
  · exact outputsOf_written hcarried
  · rw [List.forall₂_map_left_iff, List.forall₂_map_right_iff]
    exact List.forall₂_same.mpr fun x hx => reread_of_carries (hcarried x hx)

/-- A report on a line: names, a target and an error. -/
def sampleLine : Bytes :=
  Bytes.ofText "\x7b\"normalisedTargetFile\":\"p\",\"targetFileFromPlugin\":\"\","
    ++ Bytes.ofText "\"target\":\x7b\"k\":1\x7d,\"error\":\x7b\"errors\":[\x7b\"title\":\"t\",\"detail\":\"d\"\x7d]\x7d\x7d"

/-- The graph of one package. -/
def sampleGraph : DependencyGraph where
  schema := DependencyGraph.currentSchema
  manager := { name := "pip" }
  packages := [⟨"p@", { name := "p" }⟩]
  root := "root-node"
  nodes := [{ id := "root-node", package := "p@" }]

def sampleTarget : Text := "\x7b\"k\":1\x7d"

def sampleError : CatalogError := { title := "t", detail := "d", status := 0 }

/-- The report of `sampleLine`, with a graph. -/
def sampleReport : Record where
  graph := some sampleGraph.encode
  targetFile := "p"
  pluginFile := some []
  target := some (Utf8.encode sampleTarget)
  error := some (Json.writeBytes Style.compactAscii (CatalogError.document [sampleError]))

def sampleOutput : Output where
  payload := sampleGraph.encode
  targetFile := "p"
  pluginFile := some []
  target := some sampleTarget
  errors := [.of (.catalog sampleError)]

theorem documented_sampleError : CatalogError.Documented CatalogError.infoDepth sampleError where
  family := rfl
  detail := by decide
  title := by decide
  code := rfl
  id := rfl
  status := Nat.pow_pos (by decide)
  info := .emptyRecord fun h => (nomatch h)
  settled := rfl

theorem outputsOf_sample : outputsOf [sampleReport] {} = (.ok [sampleOutput], {}) := by
  have hscalar : sampleGraph.IsScalar := by
    unfold DependencyGraph.IsScalar
    decide +kernel
  have hdecode : DependencyGraph.decode sampleGraph.encode = .ok sampleGraph :=
    DependencyGraph.decode_encode hscalar
  have hcheck : sampleGraph.check = .ok () := Except.eq_ok_of_toOption (by decide +kernel)
  have htarget : sampleTarget.isScalar = true := by decide
  have herror : CatalogError.ofDocument
      (Json.writeBytes Style.compactAscii (CatalogError.document [sampleError])) = .ok [sampleError] :=
    CatalogError.ofDocument_write Json.lays_compactAscii Json.plain_compactAscii
      (List.cons_ne_nil _ _) (List.forall_mem_singleton.mpr documented_sampleError)
  exact outputsOf_cons.mpr
    ⟨sampleOutput, {}, [], outputOf_full hdecode hcheck htarget herror, rfl, rfl⟩

theorem reread_of_records_sample :
    GraphForm.lines.records sampleLine = .ok [{ sampleReport with graph := none }] ∧
    outputsOf [sampleReport] {} = (.ok [sampleOutput], {}) ∧
    ∃ lines, List.Forall₂ (fun o line => o.toLines = .ok line ∧ Bytes.IsLine line)
        [sampleOutput] lines ∧
      ∃ records' outputs', GraphForm.lines.records lines.flatten = .ok records' ∧
        (∀ m, outputsOf records' m = (.ok outputs', m)) ∧
        List.Forall₂ Reread [sampleOutput] outputs' := by
  have hparsed : GraphForm.lines.records sampleLine = .ok [{ sampleReport with graph := none }] :=
    Except.eq_ok_of_toOption (by decide +kernel)
  have hrecords : [sampleReport].map apart = [{ sampleReport with graph := none }].map apart := rfl
  exact ⟨hparsed, outputsOf_sample, reread_of_records hparsed hrecords outputsOf_sample⟩

/-! ## Split characters -/

/-- The halves of a character, each by itself, as ill-formed bytes give them. -/
def halves : Text := [.surrogate ⟨0x3D, by decide⟩, .surrogate ⟨0x600, by decide⟩]

/-- A line whose name is split, and whose target has the split name and the character as keys. -/
def splitLine : Bytes :=
  Bytes.ofText "\x7b\"normalisedTargetFile\":\"" ++ Utf8.encode halves
    ++ Bytes.ofText "\",\"target\":\x7b\"" ++ Utf8.encode halves
    ++ Bytes.ofText "\":1,\"\\ud83d\\ude00\":2\x7d\x7d"

def splitTarget : Text := "\x7b\"\\ud83d\\ude00\":1,\"\\ud83d\\ude00\":2\x7d"

def splitReport : Record where
  graph := none
  targetFile := halves
  target := some (Utf8.encode splitTarget)

def splitOutput : Output where
  payload := []
  targetFile := halves
  target := some splitTarget

/-- The line that `splitOutput` is written as. -/
def joinedLine : Bytes :=
  Bytes.ofText "\x7b\"normalisedTargetFile\": \"\\ud83d\\ude00\", "
    ++ Bytes.ofText "\"target\": \x7b\"\\ud83d\\ude00\": 2\x7d\x7d\n"

def joinedTarget : Text := "\x7b\"\\ud83d\\ude00\":2\x7d"

def joinedReport : Record where
  graph := none
  targetFile := "😀"
  target := some (Utf8.encode joinedTarget)

def joinedOutput : Output where
  payload := []
  targetFile := "😀"
  target := some joinedTarget

/-- A name that was split is read as the character, and of two keys that are the same then, one is left. -/
theorem split_not_reread :
    GraphForm.lines.records splitLine = .ok [splitReport] ∧
    outputsOf [splitReport] {} = (.ok [splitOutput], {}) ∧
    splitOutput.toLines = .ok joinedLine ∧
    GraphForm.lines.records joinedLine = .ok [joinedReport] ∧
    outputsOf [joinedReport] {} = (.ok [joinedOutput], {}) ∧
    joinedOutput.targetFile ≠ splitOutput.targetFile ∧ joinedOutput.target ≠ splitOutput.target := by
  have hmade : ∀ (targetFile t : Text), t.isScalar = true →
      outputsOf [{ graph := none, targetFile, target := some (Utf8.encode t) }] {} =
        (.ok [{ payload := [], targetFile, target := some t }], {}) := by
    intro targetFile t ht
    have hmake : Output.make [] targetFile none (some (Utf8.encode t)) =
        .ok { payload := [], targetFile, target := some t } := Output.make_encode ht
    exact outputsOf_cons.mpr ⟨_, {}, [], outputOf_eq_ok.mpr ⟨rfl, _, [], hmake, rfl, rfl⟩, rfl, rfl⟩
  refine ⟨Except.eq_ok_of_toOption (by decide +kernel), hmade halves splitTarget (by decide +kernel),
    Except.eq_ok_of_toOption (by decide +kernel), Except.eq_ok_of_toOption (by decide +kernel),
    hmade "😀" joinedTarget (by decide +kernel), by decide +kernel, by decide +kernel⟩

end ManifestGraph.Fallback
