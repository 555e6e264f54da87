/-
  The output of a workspace. Its lines are read as one report for each graph, in order
  (`ofLines_combined`), and the graph of a report is read as the graph that was written, if that one can be
  written at all (`decode_graph_line_iff`). Halves of a surrogate pair that stand side by side in the name of a
  file are one character when it is read again. What a report then says of its project is exactly told by
  these two (`combined_read_back`).
-/
import ManifestGraph.Proofs.Graph.RoundTrip
import ManifestGraph.Proofs.Record.Lines
import ManifestGraph.Resolution.Combined

namespace ManifestGraph

open Json (Legible LegibleMembers lenient strict)

/-- A graph that can be written is read back from a value that was settled and written in ASCII. -/
theorem DependencyGraph.Writable.decode_writeBytes {g : DependencyGraph} (h : g.Writable) :
    decode (Json.writeBytes Json.Style.compactAscii g.toData.settled) = .ok g := by
  have hlegible : Legible strict strict.maxDepth g.toData.settled :=
    (legible_toData (Or.inr h)).settled.mono (by decide)
  have hfit : fit g.toData.settled = .ok g := by
    rw [settles_fit _ _ g.fit_toData, h.settled_eq]
  exact decode_eq_ok.mpr
    ⟨_, Json.readStrict_writeBytes Json.lays_compactAscii Json.plain_compactAscii hlegible, hfit⟩

namespace ResolvedProject

variable {p : ResolvedProject} {ps : List ResolvedProject} {targetFile : Text}

/-- What the record for a graph of a workspace says. -/
def line (targetFile : Text) (p : ResolvedProject) : Record.Line where
  targetFile
  graph := some p.graph.toData
  pluginFile := if p.finding.manifestFile.isEmpty then none else some p.finding.manifestFile
  target := none
  error := none

theorem exists_saidBy_record (targetFile : Text) (p : ResolvedProject) :
    ∃ members, (p.record targetFile).joined.settled = .record members ∧
      (p.line targetFile).normal.SaidBy members := by
  unfold record line
  cases p.finding.manifestFile.isEmpty <;> exact ⟨_, rfl, rfl, rfl, rfl, rfl, rfl⟩

theorem legible_record (targetFile : Text) (p : ResolvedProject) :
    Legible lenient lenient.maxDepth (p.record targetFile) := by
  have hgraph : Legible lenient (lenient.maxDepth - 1) p.graph.toData :=
    (DependencyGraph.legible_toData (Or.inl rfl)).mono (by decide)
  have hhead : LegibleMembers lenient (lenient.maxDepth - 1)
      [("depGraph", p.graph.toData), ("normalisedTargetFile", .text targetFile)] :=
    .cons (by decide) hgraph (.cons (by decide) (.text (Or.inl rfl)) .nil)
  refine LegibleMembers.toRecord (hhead.append ?_)
  split
  next => exact .nil
  next => exact .cons (by decide) (.text (Or.inl rfl)) .nil

theorem ofLine_record (targetFile : Text) (p : ResolvedProject) (number : Nat) :
    Record.ofLine number (Json.writeBytes Json.Style.compactAscii (p.record targetFile)) =
      .ok (p.line targetFile).normal.toRecord := by
  obtain ⟨members, hmembers, hsaid⟩ := exists_saidBy_record targetFile p
  refine hsaid.ofLine_eq ?_
  rw [Json.readLenient_writeBytes Json.lays_compactAscii Json.plain_compactAscii
    (legible_record targetFile p), hmembers]

/-- The records stand on a line each. -/
theorem payload_combined (h : ps ≠ []) : (combined ps targetFile).payload =
    (ps.map fun p => Json.writeBytes Json.Style.compactAscii (p.record targetFile) ++ [0x0A]).flatten := by
  have hne : ps.map (fun p => Json.writeBytes Json.Style.compactAscii (p.record targetFile)) ≠ [] :=
    mt List.map_eq_nil_iff.mp h
  have hlines := Bytes.intercalate_append_singleton Output.newline hne
  rwa [List.map_map] at hlines

/-- The output of a workspace is read as one report for each graph. -/
theorem ofLines_combined (ps : List ResolvedProject) (targetFile : Text) :
    Record.ofLines (combined ps targetFile).payload =
      .ok (ps.map fun p => (p.line targetFile).normal.toRecord) := by
  cases ps with
  | nil => rfl
  | cons p ps =>
    rw [payload_combined (List.cons_ne_nil p ps)]
    exact Record.ofLines_writeBytes Json.plain_compactAscii (fun _ => ⟨_, rfl⟩)
      fun p _ number => ofLine_record targetFile p number

/-- The output of a workspace is in the line protocol already. -/
theorem toLines_combined (ps : List ResolvedProject) (targetFile : Text) :
    (combined ps targetFile).toLines = .ok (combined ps targetFile).payload := by
  rw [Output.toLines, if_pos (show (combined ps targetFile).contentType = .jsonLines from rfl), if_pos]
  exact List.getLast?_concat

/-- The report for a graph that can be written has that graph. -/
theorem graph_line (h : p.graph.Writable) : (p.line targetFile).normal.toRecord.graph =
    some (Json.writeBytes Json.Style.compactAscii p.graph.toData.settled) := by
  have hjoined := (DependencyGraph.legible_toData (d := strict) (Or.inr h)).joined_eq rfl
  show Record.Line.raw p.graph.toData.joined.settled = _
  rw [hjoined]
  rfl

/-- The graph of a report is that of its project just if that one can be written. -/
theorem decode_graph_line_iff : (∃ bs, (p.line targetFile).normal.toRecord.graph = some bs ∧
    DependencyGraph.decode bs = .ok p.graph) ↔ p.graph.Writable := by
  refine ⟨fun ⟨_, _, hdecode⟩ => DependencyGraph.writable_of_decode hdecode, fun h => ?_⟩
  exact ⟨_, graph_line h, h.decode_writeBytes⟩

theorem targetFile_line : (p.line targetFile).normal.toRecord.targetFile = targetFile.joined := rfl

theorem pluginFile_line : (p.line targetFile).normal.toRecord.pluginFile =
    if p.finding.manifestFile = [] then none else some p.finding.manifestFile.joined := by
  show (p.line targetFile).pluginFile.map Text.joined = _
  unfold line
  cases p.finding.manifestFile <;> rfl

/-- The output of a workspace is read again as one report for each project, in order, with neither a target
nor an error. Its graph is that of the project just if this one can be written. A name of a file is read with
the halves of surrogate pairs in it joined, so it is the same just if no two halves of a pair stand side by
side in it; there is no manifest just if its name is empty. -/
theorem combined_read_back (ps : List ResolvedProject) (targetFile : Text) :
    ∃ lines records, (combined ps targetFile).toLines = .ok lines ∧
      Record.ofLines lines = .ok records ∧
      List.Forall₂ (fun p r =>
        ((∃ bs, r.graph = some bs ∧ DependencyGraph.decode bs = .ok p.graph) ↔ p.graph.Writable) ∧
        r.targetFile = targetFile.joined ∧ (r.targetFile = targetFile ↔ targetFile.Unsplit) ∧
        r.pluginFile = (if p.finding.manifestFile = [] then none
          else some p.finding.manifestFile.joined) ∧
        (p.finding.manifestFile ≠ [] →
          (r.pluginFile = some p.finding.manifestFile ↔ p.finding.manifestFile.Unsplit)) ∧
        r.target = none ∧ r.error = none) ps records := by
  refine ⟨_, _, toLines_combined ps targetFile, ofLines_combined ps targetFile, ?_⟩
  rw [List.forall₂_map_right_iff, List.forall₂_same]
  refine fun p _ => ⟨decode_graph_line_iff, rfl, Text.joined_eq_iff, pluginFile_line, fun hne => ?_, rfl, rfl⟩
  rw [pluginFile_line, if_neg hne, Option.some.injEq]
  exact Text.joined_eq_iff

/-- A package of a workspace that is named by half of a surrogate pair. -/
def halfNamed : ResolvedProject where
  finding := { lockFile := "uv.lock", manifestFile := "pyproject.toml" }
  graph := (GraphBuilder.start { name := "uv" } { name := [0xD800].filterMap CodePoint.ofNat? }).build

/-- A name in which the two halves of a character stand side by side. -/
def splitName : Text := [0xD83D, 0xDE00].filterMap CodePoint.ofNat?

/-- Such a package is in a report without its graph, and such a name is another one in it. -/
theorem combined_not_read_back :
    ∃ r s, Record.ofLines (combined [halfNamed] "uv.lock").payload = .ok [r] ∧
      (∀ bs, r.graph = some bs → DependencyGraph.decode bs ≠ .ok halfNamed.graph) ∧
      Record.ofLines (combined [halfNamed] splitName).payload = .ok [s] ∧ s.targetFile ≠ splitName := by
  refine ⟨_, _, ofLines_combined [halfNamed] "uv.lock", fun bs hbs hdecode => ?_,
    ofLines_combined [halfNamed] splitName, ?_⟩
  · have hhalf : ¬ halfNamed.graph.IsScalar := by decide +kernel
    exact hhalf (DependencyGraph.writable_of_decode hdecode).isScalar
  · rw [targetFile_line]
    decide +kernel

end ResolvedProject
end ManifestGraph
