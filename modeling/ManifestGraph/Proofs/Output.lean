/-
  Outputs in the line protocol. What an output carries is spelled out by its `Parts`: the record of its
  graph, the value of its target and its structured errors. An output is written as one line that says
  these (`Carries.toLines_eq`), and the line is read as the report of the same parts, settled, with the
  halves in its names joined (`Carries.normal_line`).
-/
import ManifestGraph.Proofs.Failure.Document
import ManifestGraph.Proofs.Record.Lines

namespace ManifestGraph.Output

open Json (Legible lenient strict)
open CatalogError (Documented infoDepth document)

/-- The values behind the bytes of an output. -/
structure Parts where
  graph : Option Data
  target : Option Data
  errors : List CatalogError

/-- The output carries the parts: its payload is a valid graph, its target is written JSON, and its errors
can stand in an error document. -/
structure Carries (o : Output) (p : Parts) : Prop where
  json : o.contentType = .json
  empty : p.graph = none → o.payload = []
  graph : ∀ d, p.graph = some d →
    Json.readStrict o.payload = some d ∧ ∃ g, DependencyGraph.fit d = .ok g ∧ g.check = .ok ()
  target : o.target = p.target.map (Json.write Json.Style.compactAscii)
  value : ∀ v, p.target = some v → v ≠ .null ∧ Legible lenient (lenient.maxDepth - 1) v
  errors : o.errors = p.errors.map fun e => .of (.catalog e)
  documented : ∀ e ∈ p.errors, Documented infoDepth e

/-- The parts as they are written: settled, and the halves in the target joined. -/
def Parts.written (p : Parts) : Parts where
  graph := p.graph.map Data.settled
  target := p.target.map fun v => v.joined.settled
  errors := p.errors

/-- The error document of an output, unless it has no errors. -/
def Parts.errorDocument (p : Parts) : Option Data :=
  if p.errors.isEmpty then none else some (document p.errors)

/-- The line that an output is written as. -/
def line (o : Output) (p : Parts) : Record.Line where
  targetFile := o.targetFile
  graph := p.written.graph
  pluginFile := o.pluginFile
  target := p.written.target
  error := p.errorDocument

variable {o : Output} {p : Parts} {v d : Data}

/-- A target without lone halves is taken from its bytes. -/
theorem make_encode {payload : Bytes} {targetFile t : Text} {pluginFile : Option Text}
    (h : t.isScalar = true) : make payload targetFile pluginFile (some (Utf8.encode t)) =
      .ok { payload, targetFile, pluginFile, target := some t } := by
  rw [make, Utf8.decode_encode h]

/-! ## Writing -/

theorem readStrict_nil : Json.readStrict [] = none := rfl

theorem Carries.payload_ne_nil (h : o.Carries p) (hgraph : p.graph = some d) : o.payload ≠ [] := by
  intro hnil
  have hread := (h.graph d hgraph).1
  rw [hnil, readStrict_nil] at hread
  cases hread

theorem Carries.graphMember_eq (h : o.Carries p) :
    o.graphMember = .ok (optionalMember "depGraph" p.written.graph) := by
  unfold graphMember
  cases hgraph : p.graph with
  | none =>
    rw [if_neg (by rw [h.empty hgraph]; exact fun hne => hne.2 rfl), Parts.written, hgraph]
    rfl
  | some d =>
    have hne := h.payload_ne_nil hgraph
    have hread := Json.readLenient_of_readStrict (h.graph d hgraph).1
    rw [if_pos ⟨h.json, by simpa using hne⟩, readBytes, hread, Parts.written, hgraph]
    rfl

theorem Carries.targetMember_eq (h : o.Carries p) :
    o.targetMember = .ok (optionalMember "target" p.written.target) := by
  unfold targetMember
  rw [h.target]
  cases htarget : p.target with
  | none => rw [Parts.written, htarget]; rfl
  | some v =>
    have hlegible : Legible lenient lenient.maxDepth v := (h.value v htarget).2.mono (Nat.sub_le _ _)
    have hread := Json.read_lenient_write Json.lays_compactAscii rfl hlegible
    rw [Option.map_some]
    dsimp only
    rw [readText, hread, Parts.written, htarget]
    rfl

theorem Carries.errorMember_eq (h : o.Carries p) :
    o.errorMember = optionalMember "error" p.errorDocument := by
  have hcatalog : (p.errors.map fun e => Failure.of (.catalog e)).filterMap
      (fun e => (e.fault.reason.catalog?).map CatalogError.toData) = p.errors.map CatalogError.toData := by
    rw [List.filterMap_map]
    show p.errors.filterMap (some ∘ CatalogError.toData) = _
    rw [List.filterMap_eq_map]
  unfold errorMember Parts.errorDocument
  rw [h.errors, List.isEmpty_map]
  split
  next => rfl
  next =>
    dsimp only
    rw [hcatalog]
    rfl

theorem Carries.toData_eq (h : o.Carries p) : o.toData = .ok (o.line p).toData := by
  rw [toData, h.graphMember_eq, h.targetMember_eq, h.errorMember_eq]
  obtain ⟨payload, targetFile, pluginFile, target, contentType, errors⟩ := o
  cases pluginFile <;> rfl

/-- An output is written as one line. -/
theorem Carries.toLines_eq (h : o.Carries p) :
    o.toLines = .ok (Json.writeBytes Json.Style.spaced (o.line p).toData ++ [0x0A]) := by
  rw [toLines, if_neg (by rw [h.json]; decide), h.toData_eq]
  rfl

theorem Carries.legible_line (h : o.Carries p) : (o.line p).Legible (lenient.maxDepth - 1) where
  graph := by
    intro d hd
    obtain ⟨d', hd', rfl⟩ := Option.map_eq_some_iff.mp hd
    have hlegible := Json.legible_of_readStrict (h.graph d' hd').1
    exact (hlegible.settled.weaken rfl).mono (by decide)
  target := by
    intro v hv
    obtain ⟨v', hv', rfl⟩ := Option.map_eq_some_iff.mp hv
    exact (h.value v' hv').2.joined.settled
  error := by
    intro d hd
    have hd : p.errorDocument = some d := hd
    unfold Parts.errorDocument at hd
    split at hd
    next => cases hd
    next =>
      cases hd
      exact ((CatalogError.legible_document h.documented).weaken rfl).mono (by decide)

/-! ## Reading again -/

theorem Carries.document_eq (h : o.Carries p) :
    (document p.errors).joined.settled = document p.errors := by
  rw [(CatalogError.legible_document h.documented).joined_eq rfl,
    CatalogError.settled_document h.documented]

/-- What was written is settled and joined already, but for the names. -/
theorem Carries.normal_line (h : o.Carries p) :
    (o.line p).normal = { o.line p with
      targetFile := o.targetFile.joined, pluginFile := o.pluginFile.map Text.joined } := by
  have hgraph : p.written.graph.map (fun d => d.joined.settled) = p.written.graph := by
    cases hgraph : p.graph with
    | none => rw [Parts.written, hgraph]; rfl
    | some d =>
      have hlegible := Json.legible_of_readStrict (h.graph d hgraph).1
      rw [Parts.written, hgraph, Option.map_some, Option.map_some, hlegible.settled.joined_eq rfl,
        Data.settled_settled]
  have htarget : p.written.target.map (fun d => d.joined.settled) = p.written.target := by
    cases htarget : p.target with
    | none => rw [Parts.written, htarget]; rfl
    | some v =>
      rw [Parts.written, htarget, Option.map_some, Option.map_some,
        Data.joined_settled (Data.joined_joined v), Data.settled_settled]
  have herror : p.errorDocument.map (fun d => d.joined.settled) = p.errorDocument := by
    unfold Parts.errorDocument
    split
    next => rfl
    next => rw [Option.map_some, h.document_eq]
  show Record.Line.mk _ (p.written.graph.map _) _ (p.written.target.map _) (p.errorDocument.map _) = _
  rw [hgraph, htarget, herror]
  rfl

end ManifestGraph.Output
