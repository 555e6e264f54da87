/-
  Outputs and reports. An output that a report is made into carries its parts (`exists_carries`), and the
  report of the line that the output is written as is made into an output that carries the same parts,
  settled (`outputOf_written`).
-/
import ManifestGraph.Proofs.Output

namespace ManifestGraph.Fallback

open CatalogError (Documented infoDepth document)
open Json (Style)

variable {r : Record} {o : Output} {p : Output.Parts} {m m' : Machine} {bs payload : Bytes}
  {g : DependencyGraph} {d : Data} {targetFile : Text}

/-! ## What a report is made into -/

theorem decodeGraph_eq_ok : decodeGraph payload targetFile = .ok g ↔
    DependencyGraph.decode payload = .ok g ∧ g.check = .ok () := by
  unfold decodeGraph
  dsimp only
  cases hdecode : DependencyGraph.decode payload with
  | error e => exact ⟨fun h => (nomatch h), fun h => (nomatch h.1)⟩
  | ok g' =>
    dsimp only
    cases hcheck : g'.check with
    | error e =>
      constructor
      · intro h; cases h
      · rintro ⟨h, hg⟩; cases h; rw [hcheck] at hg; cases hg
    | ok u =>
      constructor
      · intro h; cases h; exact ⟨rfl, hcheck⟩
      · rintro ⟨h, _⟩; cases h; rfl

/-- The errors that a report carries can stand in an error document. -/
theorem documented_of_errorsOf {es : List Failure} (h : errorsOf r m = (.ok es, m')) :
    ∃ errors : List CatalogError, es = errors.map (fun e => .of (.catalog e)) ∧
      ∀ e ∈ errors, Documented infoDepth e := by
  have hnil : ∃ errors : List CatalogError, [] = errors.map (fun e => Failure.of (.catalog e)) ∧
      ∀ e ∈ errors, Documented infoDepth e := ⟨[], rfl, List.forall_mem_nil _⟩
  rw [errorsOf] at h
  cases herror : r.error with
  | none =>
    rw [herror] at h
    cases h
    exact hnil
  | some bs =>
    rw [herror] at h
    dsimp only at h
    cases hread : CatalogError.ofDocument bs with
    | ok errors =>
      rw [hread] at h
      cases h
      exact ⟨errors, rfl, (CatalogError.documented_of_read hread).2⟩
    | error fault =>
      rw [hread] at h
      cases fault with
      | infiniteStatus => cases h
      | notErrors misfits => cases h; exact hnil

/-- The graph of a report, if there is one, must be valid. -/
def checkGraph (r : Record) : Except Failure Unit :=
  match r.graph with
  | none => .ok ()
  | some payload => (decodeGraph payload r.targetFile).map fun _ => ()

/-- The steps in which an output is made. -/
theorem outputOf_eq (r : Record) : outputOf r = (do
    Run.ofExcept (checkGraph r)
    let output ← Run.ofExcept (Output.make (r.graph.getD []) r.targetFile r.pluginFile r.target)
    let errors ← errorsOf r
    pure { output with errors }) := by
  obtain ⟨graph, targetFile, pluginFile, target, error⟩ := r
  unfold checkGraph
  cases graph with
  | none => rfl
  | some payload =>
    funext m
    unfold outputOf
    dsimp only
    cases decodeGraph payload targetFile with
    | error e => rfl
    | ok g => rfl

theorem outputOf_eq_ok : outputOf r m = (.ok o, m') ↔ checkGraph r = .ok () ∧
    ∃ output errors, Output.make (r.graph.getD []) r.targetFile r.pluginFile r.target = .ok output ∧
      errorsOf r m = (.ok errors, m') ∧ o = { output with errors } := by
  rw [outputOf_eq]
  constructor
  · intro h
    obtain ⟨_, m₁, h₁, hrest₁⟩ := Run.bind_eq_ok.mp h
    obtain ⟨output, m₂, h₂, hrest₂⟩ := Run.bind_eq_ok.mp hrest₁
    obtain ⟨errors, m₃, herrors, h₃⟩ := Run.bind_eq_ok.mp hrest₂
    obtain ⟨hgraph, rfl⟩ := Run.ofExcept_eq_ok.mp h₁
    obtain ⟨hmake, rfl⟩ := Run.ofExcept_eq_ok.mp h₂
    obtain ⟨ho, rfl⟩ := Run.pure_eq_ok.mp h₃
    exact ⟨hgraph, output, errors, hmake, herrors, ho.symm⟩
  · rintro ⟨hgraph, output, errors, hmake, herrors, rfl⟩
    refine Run.bind_eq_ok.mpr ⟨(), m, Run.ofExcept_eq_ok.mpr ⟨hgraph, rfl⟩, ?_⟩
    refine Run.bind_eq_ok.mpr ⟨output, m, Run.ofExcept_eq_ok.mpr ⟨hmake, rfl⟩, ?_⟩
    exact Run.bind_eq_ok.mpr ⟨errors, m', herrors, rfl⟩

theorem outputsOf_cons {rs : List Record} {outputs : List Output} :
    outputsOf (r :: rs) m = (.ok outputs, m') ↔ ∃ o m₁ os, outputOf r m = (.ok o, m₁) ∧
      outputsOf rs m₁ = (.ok os, m') ∧ outputs = o :: os := by
  rw [outputsOf]
  constructor
  · intro h
    obtain ⟨o, m₁, ho, hrest⟩ := Run.bind_eq_ok.mp h
    obtain ⟨os, m₂, hos, hpure⟩ := Run.bind_eq_ok.mp hrest
    obtain ⟨houtputs, rfl⟩ := Run.pure_eq_ok.mp hpure
    exact ⟨o, m₁, os, ho, hos, houtputs.symm⟩
  · rintro ⟨o, m₁, os, ho, hos, rfl⟩
    exact Run.bind_eq_ok.mpr ⟨o, m₁, ho, Run.bind_eq_ok.mpr ⟨os, m', hos, rfl⟩⟩

theorem checkGraph_eq_ok (hgraph : r.graph = some payload) : checkGraph r = .ok () ↔
    ∃ d, Json.readStrict payload = some d ∧ ∃ g, DependencyGraph.fit d = .ok g ∧ g.check = .ok () := by
  have hcheck : checkGraph r = (decodeGraph payload r.targetFile).map fun _ => () := by
    rw [checkGraph, hgraph]
  rw [hcheck]
  constructor
  · intro h
    cases hdecode : decodeGraph payload r.targetFile with
    | error e => rw [hdecode] at h; cases h
    | ok g =>
      obtain ⟨hg, hvalid⟩ := decodeGraph_eq_ok.mp hdecode
      obtain ⟨d, hread, hfit⟩ := DependencyGraph.decode_eq_ok.mp hg
      exact ⟨d, hread, g, hfit, hvalid⟩
  · rintro ⟨d, hread, g, hfit, hvalid⟩
    rw [decodeGraph_eq_ok.mpr ⟨DependencyGraph.decode_eq_ok.mpr ⟨d, hread, hfit⟩, hvalid⟩]
    rfl

/-- A report with all parts is made into an output. -/
theorem outputOf_full {pluginFile : Option Text} {t : Text} {errors : List CatalogError}
    (hdecode : DependencyGraph.decode payload = .ok g) (hcheck : g.check = .ok ())
    (ht : t.isScalar = true) (herrors : CatalogError.ofDocument bs = .ok errors) :
    outputOf { graph := some payload, targetFile, pluginFile, target := some (Utf8.encode t)
               error := some bs } m =
      (.ok { payload, targetFile, pluginFile, target := some t
             errors := errors.map fun e => .of (.catalog e) }, m) := by
  refine outputOf_eq_ok.mpr ⟨?_, _, errors.map fun e => .of (.catalog e), Output.make_encode ht, ?_, rfl⟩
  · obtain ⟨d, hread, hfit⟩ := DependencyGraph.decode_eq_ok.mp hdecode
    exact (checkGraph_eq_ok rfl).mpr ⟨d, hread, g, hfit, hcheck⟩
  · rw [errorsOf]
    dsimp only
    rw [herrors]
    rfl

/-- An output carries its parts. -/
theorem exists_carries (hr : r.Spelled) (h : outputOf r m = (.ok o, m')) : ∃ p, o.Carries p := by
  obtain ⟨hgraph, output, es, hmake, herrors, rfl⟩ := outputOf_eq_ok.mp h
  obtain ⟨errors, rfl, hdocumented⟩ := documented_of_errorsOf herrors
  obtain ⟨graph, targetFile, pluginFile, target, error⟩ := r
  have hparts : ∃ d? : Option Data, (d? = none → graph.getD [] = []) ∧
      ∀ d, d? = some d → Json.readStrict (graph.getD []) = some d ∧
        ∃ g, DependencyGraph.fit d = .ok g ∧ g.check = .ok () := by
    cases graph with
    | none => exact ⟨none, fun _ => rfl, fun _ h => nomatch h⟩
    | some payload =>
      obtain ⟨d, hd⟩ := (checkGraph_eq_ok rfl).mp hgraph
      exact ⟨some d, fun h => (nomatch h), fun d' hd' => by cases hd'; exact hd⟩
  obtain ⟨graph?, hempty, hread⟩ := hparts
  cases target with
  | none =>
    cases hmake
    exact ⟨⟨graph?, none, errors⟩, rfl, hempty, hread, rfl, fun _ h => (nomatch h), rfl, hdocumented⟩
  | some bs =>
    obtain ⟨v, hwritten, hnull, hlegible⟩ := hr bs rfl
    have hbytes : bs = Utf8.encode (Json.write Style.compactAscii v) := hwritten
    rw [hbytes, Output.make_encode (Json.plain_write Json.plain_compactAscii v).isScalar] at hmake
    cases hmake
    exact ⟨⟨graph?, some v, errors⟩, rfl, hempty, hread, rfl,
      fun v' hv' => by cases hv'; exact ⟨hnull, hlegible⟩, rfl, hdocumented⟩

/-! ## What a written line is made into -/

theorem ne_null_of_fit (h : DependencyGraph.fit d = .ok g) : d ≠ .null := by
  rintro rfl
  cases h

theorem settled_ne_null (h : d ≠ .null) : d.settled ≠ .null := by
  cases d with
  | null => exact absurd rfl h
  | _ => exact fun hd => nomatch hd

theorem joined_ne_null (h : d ≠ .null) : d.joined ≠ .null := by
  cases d with
  | null => exact absurd rfl h
  | _ => exact fun hd => nomatch hd

/-- The output that is made from the line of an output. -/
def reread (o : Output) (p : Output.Parts) : Output where
  payload := (p.written.graph.map (Json.writeBytes Style.compactAscii)).getD []
  targetFile := o.targetFile.joined
  pluginFile := o.pluginFile.map Text.joined
  target := p.written.target.map (Json.write Style.compactAscii)
  errors := o.errors

/-- The record of a graph is read again as it was written, settled. -/
theorem readStrict_graph (h : o.Carries p) (hd : p.graph = some d) :
    Json.readStrict (Json.writeBytes Style.compactAscii d.settled) = some d.settled :=
  Json.readStrict_writeBytes Json.lays_compactAscii Json.plain_compactAscii
    (Json.legible_of_readStrict (h.graph d hd).1).settled

theorem errorsOf_written (h : o.Carries p) (hr : r.error = p.errorDocument.bind Record.Line.raw) :
    errorsOf r m = (.ok o.errors, m) := by
  rw [errorsOf, hr, h.errors]
  unfold Output.Parts.errorDocument
  cases herrors : p.errors with
  | nil => rfl
  | cons e errors =>
    rw [← herrors]
    have hne : p.errors ≠ [] := by rw [herrors]; exact List.cons_ne_nil e errors
    have hread : CatalogError.ofDocument (Json.writeBytes Style.compactAscii (document p.errors)) =
        .ok p.errors :=
      CatalogError.ofDocument_write Json.lays_compactAscii Json.plain_compactAscii hne h.documented
    have hraw : Record.Line.raw (document p.errors) =
        some (Json.writeBytes Style.compactAscii (document p.errors)) := rfl
    rw [if_neg (by rw [herrors]; exact Bool.false_ne_true), Option.bind_some, hraw]
    dsimp only
    rw [hread]
    rfl

theorem make_written (h : o.Carries p) (payload : Bytes) (targetFile : Text) (pluginFile : Option Text) :
    Output.make payload targetFile pluginFile (p.written.target.bind Record.Line.raw) =
      .ok { payload, targetFile, pluginFile
            target := p.written.target.map (Json.write Style.compactAscii) } := by
  cases htarget : p.target with
  | none => rw [Output.Parts.written, htarget]; rfl
  | some v =>
    have hnull := settled_ne_null (joined_ne_null (h.value v htarget).1)
    rw [Output.Parts.written, htarget, Option.map_some, Option.bind_some, Option.map_some,
      Record.Line.raw_of_ne_null hnull]
    exact Output.make_encode (Json.plain_write Json.plain_compactAscii v.joined.settled).isScalar

/-- The report of the line of an output is made into an output again. -/
theorem outputOf_written (h : o.Carries p) :
    outputOf (o.line p).normal.toRecord m = (.ok (reread o p), m) := by
  have hpayload : p.written.graph.bind Record.Line.raw =
      p.written.graph.map (Json.writeBytes Style.compactAscii) := by
    cases hgraph : p.graph with
    | none => rw [Output.Parts.written, hgraph]; rfl
    | some d =>
      obtain ⟨_, g, hfit, _⟩ := h.graph d hgraph
      rw [Output.Parts.written, hgraph, Option.map_some, Option.bind_some, Option.map_some,
        Record.Line.raw_of_ne_null (settled_ne_null (ne_null_of_fit hfit))]
  have hgraph : (o.line p).normal.toRecord.graph =
      p.written.graph.map (Json.writeBytes Style.compactAscii) := by
    rw [h.normal_line]
    exact hpayload
  have htarget : (o.line p).normal.toRecord.target = p.written.target.bind Record.Line.raw := by
    rw [h.normal_line]
    rfl
  have hmake := make_written h ((o.line p).normal.toRecord.graph.getD []) o.targetFile.joined
    (o.pluginFile.map Text.joined)
  rw [← htarget] at hmake
  have herrors : errorsOf (o.line p).normal.toRecord m = (.ok o.errors, m) :=
    errorsOf_written h (by rw [h.normal_line]; rfl)
  refine outputOf_eq_ok.mpr ⟨?_, _, o.errors, hmake, herrors, ?_⟩
  · cases hd : p.graph with
    | none =>
      rw [checkGraph, hgraph, Output.Parts.written, hd]
      rfl
    | some d =>
      obtain ⟨_, g, hfit, hcheck⟩ := h.graph d hd
      have hread := readStrict_graph h hd
      have hpayload : (o.line p).normal.toRecord.graph =
          some (Json.writeBytes Style.compactAscii d.settled) := by
        rw [hgraph, Output.Parts.written, hd]
        rfl
      exact (checkGraph_eq_ok hpayload).mpr
        ⟨d.settled, hread, g, DependencyGraph.settles_fit d g hfit, hcheck⟩
  · rw [hgraph]
    rfl

end ManifestGraph.Fallback
