/-
  Reports of the fallback in a resolution. Those with errors that can be read are problems in the warning,
  all others are returned, so a report without a graph is returned as if it were a resolved project unless
  its errors can be read (`run_reports`).
-/
import ManifestGraph.Proofs.Fallback.Reports
import ManifestGraph.Proofs.Resolution.Accounts

namespace ManifestGraph

namespace Resolution

open Fallback (MadeInto Resolver)
open ProblemProject (OfOutput)

variable {r : Resolution} {resolver : Resolver} {directory : Text} {o : ResolutionOptions}
  {m m' m₁ m₂ m₃ : Machine} {findings : List Finding} {projects : List ResolvedProject}
  {outputs further : List Output} {records : List Record} {written : Bytes}

/-- The problem is that of a report: the first of its errors that can be read. -/
def OfReport (rec : Record) (p : ProblemProject) : Prop :=
  (rec.errors.head?.map fun e => Failure.of (.catalog e)) = some p.error ∧
    p.lockFile = rec.targetFile ∧ p.manifestFile = rec.pluginFile.getD []

theorem ofReport_of_madeInto {rec : Record} {out : Output} {p : ProblemProject} (h : MadeInto rec out)
    (hp : OfOutput out p) : OfReport rec p := by
  obtain ⟨herror, hlock, hmanifest⟩ := hp
  rw [h.errors, List.head?_map] at herror
  exact ⟨herror, hlock.trans h.targetFile, by rw [hmanifest, h.pluginFile]⟩

/-- Reports without errors that can be read are returned. -/
theorem forall₂_goodOutputs (h : List.Forall₂ MadeInto records further) :
    List.Forall₂ MadeInto (records.filter fun rec => rec.errors.isEmpty) (goodOutputs further) :=
  List.rel_filter (fun {_ _} hmade => Bool.eq_iff_iff.mp hmade.errors_isEmpty.symm) h

/-- Reports with errors that can be read are told as problems. -/
theorem forall₂_ofReport (h : List.Forall₂ MadeInto records further) :
    List.Forall₂ OfReport (records.filter fun rec => !rec.errors.isEmpty) (outputProblems further) := by
  have hfilter : List.Forall₂ MadeInto (records.filter fun rec => !rec.errors.isEmpty)
      (further.filter fun out => !out.errors.isEmpty) :=
    List.rel_filter (fun {_ _} hmade => Bool.eq_iff_iff.mp
      (congrArg not hmade.errors_isEmpty.symm)) h
  exact forall₂_comp (S := OfOutput) (fun _ _ _ => ofReport_of_madeInto) hfilter
    (forall₂_outputProblems further)

/-- A graph is in every output that is returned exactly if only reports with readable errors lack one. -/
theorem payloads_iff (h : List.Forall₂ MadeInto records further) :
    (∀ out ∈ goodOutputs further, out.payload ≠ []) ↔
      ∀ rec ∈ records, rec.graph = none → rec.errors ≠ [] := by
  have hreturned := forall₂_goodOutputs h
  constructor
  · intro hpayload rec hrec hgraph herrors
    have hmem : rec ∈ records.filter fun rec => rec.errors.isEmpty :=
      List.mem_filter.mpr ⟨hrec, by rw [herrors]; rfl⟩
    obtain ⟨out, hout, hmade⟩ := exists_of_mem_left hreturned hmem
    exact hmade.payload_ne_nil.mp (hpayload out hout) hgraph
  · intro hgraph out hout
    obtain ⟨rec, hrec, hmade⟩ := exists_of_mem_right hreturned hout
    obtain ⟨hrec, hempty⟩ := List.mem_filter.mp hrec
    refine hmade.payload_ne_nil.mpr fun hnone => hgraph rec hrec hnone ?_
    exact List.isEmpty_iff.mp hempty

/-- If the resolver's process ended well, its reports are what the fallback adds. -/
theorem exists_records_of_completes (hfallback : r.fallback = resolver.resolve)
    (hasked : findings = [] ∨ o.allProjects = true)
    (hran : resolver.run (resolver.argumentsFor directory (forFallback o findings))
      (m.noting (.fellBack directory (forFallback o findings))) = (.ok written, m₁))
    (h : r.Completes directory o findings m further m') :
    ∃ records, Record.ofLines written = .ok records ∧ List.Forall₂ MadeInto records further := by
  cases h with
  | spared hfound hsingle =>
    rcases hasked with hnone | hall
    · exact absurd hnone hfound
    · rw [hall] at hsingle; cases hsingle
  | asked _ h =>
    cases h with
    | answered h =>
      rw [hfallback] at h
      obtain ⟨written', m₂, records, hran', hrecords, _, hmade⟩ := Resolver.exists_records_of_resolve h
      cases hran.symm.trans hran'
      -- the fallback is asked for lines with errors
      have hform : Fallback.GraphForm.ofOptions (forFallback o findings) ≠ .blocks := nofun
      exact ⟨records, Record.ofLines_of_records hform hrecords, hmade⟩
    | nothing h hcode _ =>
      rw [hfallback] at h
      rw [(Resolver.unmarked_of_resolve hran h).meansNoProjects] at hcode
      cases hcode

/-- In a resolution that ends well, the reports that the fallback wrote are returned or told as problems:
returned are all those without errors that can be read. So every output that comes of a report has a graph,
and every report with an error and without a graph is told, exactly if each report without a graph has
errors that can be read. -/
theorem run_reports (hfallback : r.fallback = resolver.resolve)
    (hcollect : r.collect directory o m = (.ok findings, m₁))
    (hresolved : r.resolved findings m₁ = (.ok projects, m₂))
    (hasked : findings = [] ∨ o.allProjects = true)
    (hran : resolver.run (resolver.argumentsFor directory (forFallback o findings))
      (m₂.noting (.fellBack directory (forFallback o findings))) = (.ok written, m₃))
    (hrun : r.run directory o m = (.ok outputs, m')) :
    ∃ records returned told m₄, Record.ofLines written = .ok records ∧
      outputs = outputsOf projects o ++ returned ∧
      List.Forall₂ MadeInto (records.filter fun rec => rec.errors.isEmpty) returned ∧
      List.Forall₂ OfReport (records.filter fun rec => !rec.errors.isEmpty) told ∧
      m' = reported (problemsOf findings ++ told) (findings.length + records.length) m₄ ∧
      (((∀ out ∈ returned, out.payload ≠ []) ∧
          ∀ rec ∈ records, rec.error ≠ none → rec.graph = none → rec.errors ≠ []) ↔
        ∀ rec ∈ records, rec.graph = none → rec.errors ≠ []) := by
  obtain ⟨_, findings', m₁', projects', m₂', further, m₄, hcollect', hresolved', _, hcompletes, rfl, rfl⟩ :=
    run_eq_ok.mp hrun
  cases hcollect.symm.trans hcollect'
  cases hresolved.symm.trans hresolved'
  obtain ⟨records, hrecords, hmade⟩ := exists_records_of_completes hfallback hasked hran hcompletes
  refine ⟨records, goodOutputs further, outputProblems further, m₄, hrecords, rfl,
    forall₂_goodOutputs hmade, forall₂_ofReport hmade, ?_, ?_⟩
  · rw [problems, hmade.length_eq]
  · rw [payloads_iff hmade]
    exact ⟨fun h => h.1, fun h => ⟨h, fun rec hrec _ => h rec hrec⟩⟩

/-! ## A report that falls between -/

/-- No sources, and a fallback for what it finds. -/
def fallbackOnly : Resolution where
  sources := []
  fallback := ({} : Resolver).resolve
  organization := "o"

/-- A machine on which the fallback's program writes something. -/
def writing (bs : Bytes) : Machine := { programs := [("snyk", [.ended 0 bs []])] }

/-- A report with an error that is no error document, and without a graph. -/
def oddLine : Bytes :=
  Utf8.encode "\x7b\"normalisedTargetFile\":\"pom.xml\",\"error\":\"boom\"\x7d\n"

def oddReport : Record where
  graph := none
  targetFile := "pom.xml"
  error := some (Utf8.encode "\"boom\"")

/-- A report with a graph, one with an error document, and the odd one. -/
def threeLines : Bytes :=
  Utf8.encode "\x7b\"normalisedTargetFile\":\"a\",\"depGraph\":" ++ (loneGraph "a").encode
    ++ Utf8.encode "\x7d\n\x7b\"error\":\x7b\"errors\":[\x7b\"detail\":\"d\"\x7d]\x7d\x7d\n" ++ oddLine

theorem run_reports_three :
    ∃ outputs m', fallbackOnly.run "." {} (writing threeLines) = (.ok outputs, m') ∧
      outputs.map Output.payload = [(loneGraph "a").encode, []] ∧
      ∃ records returned told m₄, Record.ofLines threeLines = .ok records ∧ outputs = [] ++ returned ∧
        List.Forall₂ MadeInto (records.filter fun rec => rec.errors.isEmpty) returned ∧
        List.Forall₂ OfReport (records.filter fun rec => !rec.errors.isEmpty) told ∧
        m' = reported ([] ++ told) (0 + records.length) m₄ ∧
        (((∀ out ∈ returned, out.payload ≠ []) ∧
            ∀ rec ∈ records, rec.error ≠ none → rec.graph = none → rec.errors ≠ []) ↔
          ∀ rec ∈ records, rec.graph = none → rec.errors ≠ []) := by
  obtain ⟨outputs, hrun, hpayload⟩ := Run.exists_of_toOption (x := fallbackOnly.run "." {})
    (m := writing threeLines) (f := fun os => os.map Output.payload)
    (b := [(loneGraph "a").encode, []]) (by decide +kernel)
  have hran : ∃ m₃, ({} : Resolver).run (Resolver.argumentsFor {} "." (forFallback {} []))
      ((writing threeLines).noting (.fellBack "." (forFallback {} []))) = (.ok threeLines, m₃) := ⟨_, rfl⟩
  obtain ⟨m₃, hran⟩ := hran
  have hcollect : fallbackOnly.collect "." {} (writing threeLines) = (.ok [], writing threeLines) := rfl
  have hresolved : fallbackOnly.resolved [] (writing threeLines) = (.ok [], writing threeLines) := rfl
  exact ⟨outputs, _, hrun, hpayload, run_reports rfl hcollect hresolved (Or.inl rfl) hran hrun⟩

/-- The event is the warning about problems. -/
def isProblemWarning : Event → Bool
  | .logged .warning .resolution _ => true
  | _ => false

/-- A report with an error and without a graph is returned, without a payload, and nothing is told. -/
theorem oddReport_returned :
    Record.ofLines oddLine = .ok [oddReport] ∧ oddReport.error ≠ none ∧ oddReport.graph = none ∧
      ∃ outputs m', fallbackOnly.run "." {} (writing oddLine) = (.ok outputs, m') ∧
        outputs.map (fun o => (o.targetFile, o.payload, o.errors.length)) =
          [(Text.ofString "pom.xml", [], 0)] ∧
        m'.journal.any isProblemWarning = false := by
  obtain ⟨outputs, hrun, hparts⟩ := Run.exists_of_toOption (x := fallbackOnly.run "." {})
    (m := writing oddLine) (f := fun os => os.map fun o => (o.targetFile, o.payload, o.errors.length))
    (b := [(Text.ofString "pom.xml", [], 0)]) (by decide +kernel)
  exact ⟨Except.eq_ok_of_toOption (by decide +kernel), by decide, rfl, outputs, _, hrun, hparts,
    by decide +kernel⟩

end Resolution
end ManifestGraph
