/-
  Requirements files stand alone, but for two faults. For each of them pip is asked once, and this attempt
  fails or gives a report (`Attempt.Fails`). What is told of a file is told by its own attempt
  (`findingFor_eq`), because an attempt leaves the later ones as they are (`Client.report_eq`), and a failed
  one is a structured error (`Attempt.Fails.report_eq`), which stops nothing. So a finding has a graph that
  passes the check unless its own attempt fails, and no other attempt matters for it
  (`find_requirementsFiles`).

  What is not told is a report whose packages nest deeper than calls do, and arguments that are refused
  (`Attempt.Ends`). One such attempt ends the run for all files (`find_chained`).
-/
import ManifestGraph.Proofs.Discovery
import ManifestGraph.Proofs.Machine.Outcomes
import ManifestGraph.Proofs.Resolution.SourceFailures

namespace ManifestGraph.Pip

variable {c : Client} {o : SourceOptions} {m m' : Machine} {runtime : Text} {file : FoundFile}
  {files : List FoundFile} {reportExclusions : Bool} {directory : Text} {m₁ m₂ : Machine}
  {what constraints : List Text} {room : Nat} {manager : Text} {r : Report} {e : Failure}

/-! ## Attempts -/

deriving instance DecidableEq for ProgramOutcome

/-- What came of asking pip once. -/
inductive Attempt where
  | notFound
  /-- It was found, but it is not started with such arguments. -/
  | refused
  /-- It was found and started; without an outcome it was gone by then. -/
  | started (outcome : Option ProgramOutcome)
  deriving DecidableEq

/-- No report came of the attempt. -/
inductive Attempt.Fails : Attempt → Prop
  | notFound : Fails .notFound
  | gone : Fails (.started none)
  | notStarted (message : Text) : Fails (.started (some (.notStarted message)))
  | exited {status : Int} (stdout stderr : Bytes) (h : status ≠ 0) :
      Fails (.started (some (.ended status stdout stderr)))
  | undecodable {stdout : Bytes} (stderr : Bytes) {misfits : List Misfit}
      (h : Report.decode stdout = .error misfits) : Fails (.started (some (.ended 0 stdout stderr)))

/-- The attempt has a fault that is not told as a structured error: its arguments were refused, or the walk
through the report needs more room than there is. -/
inductive Attempt.Ends (room : Nat) (manager : Text) : Attempt → Prop
  | refused : Ends room manager .refused
  | tooDeep {stdout : Bytes} (stderr : Bytes) {r : Report} (hdecode : Report.decode stdout = .ok r)
      (hdeep : r.graphWithin room manager = .error Walk.tooDeep) :
      Ends room manager (.started (some (.ended 0 stdout stderr)))

/-- What comes of asking pip for something after it was asked `n` times. -/
def Client.attemptAt (c : Client) (m : Machine) (what constraints : List Text) (n : Nat) : Attempt :=
  if !m.has c.binary then .notFound
  else if m.refuses (c.path :: c.arguments what constraints) then .refused
  else .started (outcomeAt? (m.outcomes (Text.afterLast '/' c.path)) n)

/-- What comes of asking pip for a requirements file after it was asked `n` times. -/
def Client.attemptOn (c : Client) (m : Machine) (file : FoundFile) (n : Nat) : Attempt :=
  c.attemptAt m ["-r", file.path.toText] [] n

/-- The failure of an attempt without pip. -/
def Client.missing (c : Client) : Failure :=
  .of (.inFamily .installation (c.binary ++ " binary not found in PATH"))

namespace Attempt

variable {a : Attempt}

theorem not_fails {stdout stderr : Bytes} {r : Report} (h : Report.decode stdout = .ok r) :
    ¬ (started (some (.ended 0 stdout stderr))).Fails := by
  intro hfails
  cases hfails with
  | exited _ _ hstatus => exact hstatus rfl
  | undecodable _ hdecode => cases h.symm.trans hdecode

instance : (a : Attempt) → Decidable a.Fails
  | notFound => isTrue .notFound
  | refused => isFalse nofun
  | started none => isTrue .gone
  | started (some (.notStarted message)) => isTrue (.notStarted message)
  | started (some (.ended status stdout stderr)) =>
    if hstatus : status = 0 then
      match hdecode : Report.decode stdout with
      | .error _ => isTrue (hstatus ▸ .undecodable stderr hdecode)
      | .ok _ => isFalse (hstatus ▸ not_fails hdecode)
    else isTrue (.exited stdout stderr hstatus)

/-- The report that an attempt gives for some arguments. -/
def report (c : Client) (what constraints : List Text) : Attempt → Except Failure Report
  | notFound => .error c.missing
  | refused => .error Run.refusal
  | started outcome =>
    match Run.written (c.path :: c.arguments what constraints) outcome with
    | .ok output => Client.readReport output
    | .error e => .error (Client.diagnosed e)

/-- The graph that an attempt gives for some arguments. -/
def graph (c : Client) (what constraints : List Text) (room : Nat) (manager : Text) (a : Attempt) :
    Except Failure DependencyGraph :=
  a.report c what constraints >>= fun r => r.graphWithin room manager

theorem exists_catalog_diagnosed (h : e.fault.reason.isProgramFault = true) :
    ∃ error, (Client.diagnosed e).fault.reason.catalog? = some error := by
  unfold Client.diagnosed
  split
  next => exact ⟨_, rfl⟩
  next => rw [if_pos h]; exact ⟨_, rfl⟩

/-- The failure of an attempt is a structured error. -/
theorem Fails.report_eq (h : a.Fails) (c : Client) (what constraints : List Text) :
    ∃ e, a.report c what constraints = .error e ∧ ∃ error, e.fault.reason.catalog? = some error := by
  cases h with
  | notFound => exact ⟨c.missing, rfl, _, rfl⟩
  | gone => exact ⟨_, rfl, exists_catalog_diagnosed rfl⟩
  | notStarted message => exact ⟨_, rfl, exists_catalog_diagnosed rfl⟩
  | exited stdout stderr hstatus =>
    simp only [report, Run.written, if_neg hstatus]
    exact ⟨_, rfl, exists_catalog_diagnosed rfl⟩
  | undecodable stderr hdecode =>
    simp only [report, Run.written, if_true, Client.readReport, hdecode]
    exact ⟨_, rfl, _, rfl⟩

/-- An attempt gives the report that pip printed. -/
theorem report_eq_ok : a.report c what constraints = .ok r ↔
    ∃ stdout stderr, a = .started (some (.ended 0 stdout stderr)) ∧ Report.decode stdout = .ok r := by
  constructor
  · intro h
    match a, h with
    | started (some (.ended status stdout stderr)), h =>
      by_cases hstatus : status = 0
      · subst hstatus
        rw [report, Run.written, if_pos rfl] at h
        dsimp only [Client.readReport] at h
        cases hdecode : Report.decode stdout with
        | ok r' => rw [hdecode] at h; cases h; exact ⟨stdout, stderr, rfl, hdecode⟩
        | error misfits => rw [hdecode] at h; cases h
      · rw [report, Run.written, if_neg hstatus] at h
        cases h
  · rintro ⟨stdout, stderr, rfl, hdecode⟩
    rw [report, Run.written, if_pos rfl]
    dsimp only [Client.readReport]
    rw [hdecode]

/-- An attempt that is not refused gives a report unless it fails. -/
theorem exists_report_of_not_fails (h : ¬ a.Fails) (hrefused : a ≠ .refused) (c : Client)
    (what constraints : List Text) : ∃ r, a.report c what constraints = .ok r ∧ r.Writable := by
  have hprinted : ∃ stdout stderr r, a = .started (some (.ended 0 stdout stderr)) ∧
      Report.decode stdout = .ok r := by
    match a, h, hrefused with
    | notFound, h, _ => exact absurd .notFound h
    | refused, _, hrefused => exact absurd rfl hrefused
    | started none, h, _ => exact absurd .gone h
    | started (some (.notStarted message)), h, _ => exact absurd (.notStarted message) h
    | started (some (.ended status stdout stderr)), h, _ =>
      have hstatus : status = 0 := by
        by_contra hne
        exact h (.exited stdout stderr hne)
      subst hstatus
      cases hdecode : Report.decode stdout with
      | error misfits => exact absurd (.undecodable stderr hdecode) h
      | ok r => exact ⟨stdout, stderr, r, rfl, hdecode⟩
  obtain ⟨stdout, stderr, r, ha, hdecode⟩ := hprinted
  have hread : Client.readReport stdout = .ok r := by rw [Client.readReport, hdecode]
  exact ⟨r, report_eq_ok.mpr ⟨stdout, stderr, ha, hdecode⟩, writable_of_readReport hread⟩

theorem isStructured_of_report (hrefused : a ≠ .refused) (h : a.report c what constraints = .error e) :
    isStructured e = true := by
  by_cases hfails : a.Fails
  · obtain ⟨e', hreport, error, hcatalog⟩ := hfails.report_eq c what constraints
    rw [hreport] at h
    cases h
    rw [isStructured, hcatalog]
    rfl
  · obtain ⟨r, hreport, _⟩ := exists_report_of_not_fails hfails hrefused c what constraints
    rw [hreport] at h
    cases h

/-! ## Attempts that end the run -/

theorem ends_iff : a.Ends room manager ↔ a = .refused ∨
    ∃ r, a.report c what constraints = .ok r ∧ r.graphWithin room manager = .error Walk.tooDeep := by
  constructor
  · intro h
    cases h with
    | refused => exact Or.inl rfl
    | tooDeep stderr hdecode hdeep =>
      exact Or.inr ⟨_, report_eq_ok.mpr ⟨_, stderr, rfl, hdecode⟩, hdeep⟩
  · rintro (rfl | ⟨r, hreport, hdeep⟩)
    · exact .refused
    · obtain ⟨stdout, stderr, rfl, hdecode⟩ := report_eq_ok.mp hreport
      exact .tooDeep stderr hdecode hdeep

/-- An attempt that does not end the run gives the graph of its report, if it gives one. -/
theorem graph_eq_of_not_ends (h : ¬ a.Ends room manager) (c : Client) (what constraints : List Text) :
    a.graph c what constraints room manager =
      (a.report c what constraints).map fun r => r.toGraph manager := by
  unfold graph
  cases hreport : a.report c what constraints with
  | error e => rfl
  | ok r =>
    rcases graphWithin_eq r room manager with hgraph | ⟨hdeep, _⟩
    · exact hgraph
    · exact absurd (ends_iff.mpr (Or.inr ⟨r, hreport, hdeep⟩)) h

/-- What an attempt fails with is no structured error just if it ends the run. -/
theorem not_isStructured_iff (h : a.graph c what constraints room manager = .error e) :
    isStructured e = false ↔ a.Ends room manager := by
  constructor
  · intro hunstructured
    by_contra hends
    rw [graph_eq_of_not_ends hends] at h
    cases hreport : a.report c what constraints with
    | ok r => rw [hreport] at h; cases h
    | error e' =>
      rw [hreport] at h
      cases h
      have hrefused : a ≠ .refused := fun ha => hends (ha ▸ .refused)
      rw [isStructured_of_report hrefused hreport] at hunstructured
      cases hunstructured
  · intro hends
    rcases ends_iff.mp hends with rfl | ⟨r, hreport, hdeep⟩
    · cases h
      rfl
    · rw [graph, hreport] at h
      cases hdeep.symm.trans h
      rfl

theorem Ends.graph_eq (h : a.Ends room manager) (c : Client) (what constraints : List Text) :
    ∃ e, a.graph c what constraints room manager = .error e ∧ isStructured e = false := by
  cases hgraph : a.graph c what constraints room manager with
  | error e => exact ⟨e, rfl, (not_isStructured_iff hgraph).mpr h⟩
  | ok g =>
    rcases ends_iff.mp h with rfl | ⟨r, hreport, hdeep⟩
    · cases hgraph
    · rw [graph, hreport] at hgraph
      cases hdeep.symm.trans hgraph

instance (room : Nat) (manager : Text) : (a : Attempt) → Decidable (a.Ends room manager)
  | notFound => isFalse nofun
  | refused => isTrue .refused
  | started none => isFalse nofun
  | started (some (.notStarted _)) => isFalse nofun
  | started (some (.ended status stdout stderr)) =>
    match hreport : report {} [] [] (.started (some (.ended status stdout stderr))) with
    | .ok r =>
      match hgraph : r.graphWithin room manager with
      | .ok _ => isFalse fun h => by
        rcases ends_iff.mp h with h | ⟨_, hreport', hdeep⟩
        · cases h
        · cases hreport.symm.trans hreport'
          cases hgraph.symm.trans hdeep
      | .error _ => isTrue (ends_iff.mpr (Or.inr
          ⟨r, hreport, hgraph.trans (congrArg _ (eq_tooDeep_of_graphWithin hgraph))⟩))
    | .error _ => isFalse fun h => by
      rcases ends_iff.mp h with h | ⟨_, hreport', _⟩
      · cases h
      · cases hreport.symm.trans hreport'

/-! ## Findings of attempts -/

/-- The finding that an attempt gives for a requirements file. -/
def finding (c : Client) (reportExclusions : Bool) (runtime : Text) (file : FoundFile) (a : Attempt) :
    Finding :=
  match a.report c ["-r", file.path.toText] [] with
  | .ok r => (requirementsFiles c reportExclusions).resolved file runtime r.toGraph
  | .error e => (requirementsFiles c reportExclusions).failed file runtime e

theorem files_finding (c : Client) (reportExclusions : Bool) (runtime : Text) (file : FoundFile)
    (a : Attempt) :
    (a.finding c reportExclusions runtime file).manifestFile = file.relative ∧
      (a.finding c reportExclusions runtime file).lockFile = file.relative := by
  unfold finding
  split
  next => exact ⟨rfl, rfl⟩
  next => exact ⟨rfl, rfl⟩

theorem Fails.finding (h : a.Fails) :
    (a.finding c reportExclusions runtime file).error ≠ none ∧
      (a.finding c reportExclusions runtime file).graph = none := by
  obtain ⟨e, hreport, _⟩ := h.report_eq c ["-r", file.path.toText] []
  rw [Attempt.finding, hreport]
  exact ⟨Option.some_ne_none e, rfl⟩

theorem finding_of_not_fails (h : ¬ a.Fails) (hrefused : a ≠ .refused) :
    (a.finding c reportExclusions runtime file).error = none ∧
      ∃ g, (a.finding c reportExclusions runtime file).graph = some g ∧ g.check = .ok () := by
  obtain ⟨r, hreport, hr⟩ := exists_report_of_not_fails h hrefused c ["-r", file.path.toText] []
  rw [Attempt.finding, hreport]
  exact ⟨rfl, _, rfl, (deliverable_toGraph hr (Text.isScalar_ofString _)).checked⟩

end Attempt

/-! ## Runs -/

theorem Client.locate_eq (c : Client) (m : Machine) :
    c.locate m = (if m.has c.binary then .ok c.path else .error c.missing, m) := by
  rw [locate, Run.bind_eq, Run.find?_eq]
  cases m.has c.binary <;> rfl

/-- Pip was asked so many times, and calls may nest as deep as before. -/
structure Client.Asked (c : Client) (k : Nat) (m m' : Machine) : Prop where
  attempts : ∀ what constraints n, c.attemptAt m' what constraints n = c.attemptAt m what constraints (n + k)
  callDepth : m'.callDepth = m.callDepth

theorem Client.Asked.refl (m : Machine) : c.Asked 0 m m := ⟨fun _ _ _ => rfl, rfl⟩

theorem Client.Asked.noting {k : Nat} (h : c.Asked k m m') (event : Event) : c.Asked k m (m'.noting event) :=
  ⟨h.attempts, h.callDepth⟩

theorem Client.Asked.trans {k k' : Nat} (h : c.Asked k m m₁) (h' : c.Asked k' m₁ m₂) :
    c.Asked (k' + k) m m₂ :=
  ⟨fun _ _ n => by rw [h'.attempts, h.attempts, Nat.add_assoc], h'.callDepth.trans h.callDepth⟩

theorem Client.attemptAt_of_missing (h : m.has c.binary = false) (what constraints : List Text) (n : Nat) :
    c.attemptAt m what constraints n = .notFound :=
  if_pos (by rw [h]; rfl)

theorem Client.attemptAt_of_found (h : m.has c.binary = true) (what constraints : List Text) (n : Nat) :
    c.attemptAt m what constraints n =
      if m.refuses (c.path :: c.arguments what constraints) then .refused
      else .started (outcomeAt? (m.outcomes (Text.afterLast '/' c.path)) n) :=
  if_neg (by rw [h]; exact Bool.false_ne_true)

/-- Pip gives what the next attempt gives, and unless it was refused, the attempts after it are still to
come. -/
theorem Client.report_eq (c : Client) (what constraints : List Text) (m : Machine) :
    ∃ m', c.report what constraints m = ((c.attemptAt m what constraints 0).report c what constraints, m') ∧
      (c.attemptAt m what constraints 0 ≠ .refused → c.Asked 1 m m') := by
  rw [report, Run.bind_eq, c.locate_eq]
  cases hfound : m.has c.binary with
  | false =>
    refine ⟨m, ?_, fun _ => ⟨fun _ _ _ => ?_, rfl⟩⟩
    · rw [attemptAt_of_missing hfound]
      rfl
    · rw [attemptAt_of_missing hfound, attemptAt_of_missing hfound]
  | true =>
    obtain ⟨m', houtput, hstarts⟩ := Run.output_eq (c.path :: c.arguments what constraints)
      (constraintLines constraints) none m
    rw [List.headD_cons] at houtput
    have hfound' : m'.has c.binary = true := (hstarts.has c.binary).trans hfound
    show ∃ m', (Run.attempt (Run.output _ _) >>= _) m = _ ∧ _
    rw [Run.attempt_bind, houtput, attemptAt_of_found hfound]
    unfold Run.unlessRefused
    cases hrefuses : m.refuses (c.path :: c.arguments what constraints) with
    | true => exact ⟨m', rfl, fun haccepted => absurd rfl haccepted⟩
    | false =>
      refine ⟨m', ?_, fun _ => ⟨fun what' constraints' n => ?_, hstarts.callDepth⟩⟩
      · rw [if_neg Bool.false_ne_true, if_neg Bool.false_ne_true, Attempt.report]
        cases Run.written (c.path :: c.arguments what constraints) _ with
        | ok output => exact Run.ofExcept_eq _
        | error e => rfl
      · have hnext := hstarts.outcomes n
        rw [hrefuses] at hnext
        rw [attemptAt_of_found hfound', attemptAt_of_found hfound, hstarts.refuses]
        exact congrArg (fun outcome => if m.refuses (c.path :: c.arguments what' constraints') then
          Attempt.refused else Attempt.started outcome) hnext

theorem graphOf_eq (r : Report) (manager : Text) (m : Machine) :
    graphOf r manager m = (r.graphWithin m.callDepth manager, m) := by
  rw [graphOf, Run.get_bind, Run.ofExcept_eq]

/-- A requirements file is resolved by one attempt. -/
theorem resolve_eq (c : Client) (o : SourceOptions) (reportExclusions : Bool)
    (hfile : file.path.toText ≠ []) (m : Machine) :
    ∃ m', (requirementsFiles c reportExclusions).resolve file o m =
        ((c.attemptOn m file 0).graph c ["-r", file.path.toText] [] m.callDepth "pip", m') ∧
      (c.attemptOn m file 0 ≠ .refused → c.Asked 1 m m') := by
  obtain ⟨m', hreport, hasked⟩ := c.report_eq ["-r", file.path.toText] [] m
  refine ⟨m', ?_, hasked⟩
  have hempty : ¬ file.path.toText.isEmpty = true := fun h => hfile (List.isEmpty_iff.mp h)
  show (c.reportOnFile file.path.toText >>= fun r => graphOf r "pip") m = _
  rw [Client.reportOnFile, if_neg hempty, Run.bind_eq, hreport, Attempt.graph, Client.attemptOn]
  cases hgiven : (c.attemptAt m ["-r", file.path.toText] [] 0).report c ["-r", file.path.toText] [] with
  | error e => rfl
  | ok r =>
    have haccepted : c.attemptAt m ["-r", file.path.toText] [] 0 ≠ .refused := by
      intro hrefused
      rw [hrefused] at hgiven
      cases hgiven
    dsimp only
    rw [graphOf_eq, (hasked haccepted).callDepth]
    rfl

/-- What is told of a manifest. Only a structured error is told, another fault ends the run. -/
def ManifestKind.telling (k : ManifestKind) (runtime : Text) (file : FoundFile) :
    Except Failure DependencyGraph → Except Failure Finding
  | .ok g => .ok (k.resolved file runtime g)
  | .error e => if isStructured e then .ok (k.failed file runtime e) else .error e

theorem ManifestKind.findingFor_of_resolve {k : ManifestKind} {result : Except Failure DependencyGraph}
    (runtime : Text)
    (h : k.resolve file o
      (m.noting (.logged .info .pip ("Building dependency graph for " ++ file.relative))) = (result, m₁)) :
    ∃ m', k.findingFor o runtime file m = (k.telling runtime file result, m') ∧
      (m' = m₁ ∨ ∃ event, m' = m₁.noting event) := by
  rw [findingFor, Run.log_bind, Run.attempt_bind, h]
  cases result with
  | ok g => exact ⟨m₁, rfl, Or.inl rfl⟩
  | error e =>
    rcases Option.eq_none_or_eq_some e.fault.reason.catalog? with hnone | ⟨error, hsome⟩
    · have hstructured : isStructured e = false := by rw [isStructured, hnone]; rfl
      rw [telling, hstructured]
      dsimp only
      rw [hnone]
      exact ⟨m₁, rfl, Or.inl rfl⟩
    · have hstructured : isStructured e = true := by rw [isStructured, hsome]; rfl
      rw [telling, hstructured]
      dsimp only
      rw [hsome]
      exact ⟨_, rfl, Or.inr ⟨_, rfl⟩⟩

/-- The findings for some files are told one after the other, up to one that is not told. -/
theorem ManifestKind.findingsFor_eq {k : ManifestKind} {P : FoundFile → Prop}
    {tellings : List FoundFile → Machine → List (Except Failure Finding)} (hnil : ∀ m, tellings [] m = [])
    (hcons : ∀ file files m, P file → ∃ told m' rest, k.findingFor o runtime file m = (told, m') ∧
      tellings (file :: files) m = told :: rest ∧ ∀ f, told = .ok f → rest = tellings files m')
    (hfiles : ∀ file ∈ files, P file) (m : Machine) :
    (k.findingsFor o runtime files m).1 = (tellings files m).mapM id := by
  induction files generalizing m with
  | nil => rw [hnil]; rfl
  | cons file files ih =>
    obtain ⟨hfile, hfiles⟩ := List.forall_mem_cons.mp hfiles
    obtain ⟨told, m₁, rest, hfinding, htellings, hrest⟩ := hcons file files m hfile
    rw [findingsFor, Run.bind_eq, hfinding, htellings, List.mapM_cons]
    cases told with
    | error e => rfl
    | ok f =>
      rw [hrest f rfl, ← ih hfiles m₁]
      dsimp only
      rw [Run.bind_eq]
      rcases k.findingsFor o runtime files m₁ with ⟨e | findings, m₂⟩
      · rfl
      · rfl

/-- What is told of a requirements file by an attempt. -/
def Attempt.telling (c : Client) (reportExclusions : Bool) (room : Nat) (runtime : Text) (file : FoundFile)
    (a : Attempt) : Except Failure Finding :=
  (requirementsFiles c reportExclusions).telling runtime file
    (a.graph c ["-r", file.path.toText] [] room "pip")

theorem Attempt.telling_eq {a : Attempt} (h : ¬ a.Ends room "pip") :
    a.telling c reportExclusions room runtime file = .ok (a.finding c reportExclusions runtime file) := by
  unfold telling finding
  have hgraph := graph_eq_of_not_ends h c ["-r", file.path.toText] []
  rw [hgraph]
  cases hreport : a.report c ["-r", file.path.toText] [] with
  | ok r => rfl
  | error e =>
    rw [hreport] at hgraph
    refine if_pos (Bool.of_not_eq_false fun hunstructured => h ?_)
    exact (not_isStructured_iff hgraph).mp hunstructured

theorem Attempt.Ends.telling_eq {a : Attempt} (h : a.Ends room "pip") (c : Client) (reportExclusions : Bool)
    (runtime : Text) (file : FoundFile) : ∃ e, a.telling c reportExclusions room runtime file = .error e := by
  obtain ⟨e, hgraph, hunstructured⟩ := h.graph_eq c ["-r", file.path.toText] []
  refine ⟨e, ?_⟩
  rw [telling, hgraph]
  exact if_neg (by rw [hunstructured]; exact Bool.false_ne_true)

/-- What is told of a requirements file is told by one attempt. -/
theorem findingFor_eq (c : Client) (o : SourceOptions) (reportExclusions : Bool) (runtime : Text)
    (hfile : file.path.toText ≠ []) (m : Machine) :
    ∃ m', (requirementsFiles c reportExclusions).findingFor o runtime file m =
        ((c.attemptOn m file 0).telling c reportExclusions m.callDepth runtime file, m') ∧
      (c.attemptOn m file 0 ≠ .refused → c.Asked 1 m m') := by
  obtain ⟨m₁, hresolve, hasked⟩ := resolve_eq c o reportExclusions hfile
    (m.noting (.logged .info .pip ("Building dependency graph for " ++ file.relative)))
  obtain ⟨m', hfinding, hend⟩ := ManifestKind.findingFor_of_resolve runtime hresolve
  refine ⟨m', hfinding, fun haccepted => ?_⟩
  have hnext : c.Asked 1 m m₁ := ⟨(hasked haccepted).attempts, (hasked haccepted).callDepth⟩
  rcases hend with rfl | ⟨event, rfl⟩
  · exact hnext
  · exact hnext.noting event

/-- What is told of each of some files, by the attempt at its place. -/
def tellings (c : Client) (reportExclusions : Bool) (runtime : Text) (files : List FoundFile) (m : Machine) :
    List (Except Failure Finding) :=
  files.mapIdx fun n file => (c.attemptOn m file n).telling c reportExclusions m.callDepth runtime file

/-- The findings for some files are told by the attempts in turn. -/
theorem findingsFor_eq (hfiles : ∀ file ∈ files, file.path.toText ≠ []) (m : Machine) :
    ((requirementsFiles c reportExclusions).findingsFor o runtime files m).1 =
      (tellings c reportExclusions runtime files m).mapM id := by
  refine ManifestKind.findingsFor_eq (P := fun file => file.path.toText ≠ []) (fun _ => rfl) ?_ hfiles m
  intro file files m hfile
  obtain ⟨m₁, hfinding, hasked⟩ := findingFor_eq c o reportExclusions runtime hfile m
  refine ⟨_, m₁, _, hfinding, List.mapIdx_cons .., fun f htold => ?_⟩
  have haccepted : c.attemptOn m file 0 ≠ .refused := by
    intro hrefused
    rw [hrefused] at htold
    cases htold
  simp only [tellings, Client.attemptOn, (hasked haccepted).attempts, (hasked haccepted).callDepth]

/-! ## Directories -/

/-- The run finds manifests in a directory and reads the version of an interpreter. -/
structure ManifestKind.Reaches (k : ManifestKind) (directory : Text) (o : SourceOptions) (m : Machine)
    (files : List FoundFile) (runtime : Text) (m₁ : Machine) : Prop where
  accepted : o.targetFile = [] ∨ k.accepts o.targetFile = true
  manifests : k.manifests m.files (Path.ofText directory) o = .ok files
  runtime : k.runtime? m = (.ok (some runtime), m₁)

/-- All the requirements files of a tree. -/
def allFiles : SourceOptions := { allProjects := true }

theorem ManifestKind.runtime?_of_output {k : ManifestKind} {output : Text}
    (h : Run.outputText ["python3", "--version"] m = (.ok output, m')) :
    k.runtime? m = (.ok (some ("python@" ++ versionOf output)), m') := by
  rw [runtime?, Run.attempt_bind, interpreterVersion, interpreters, firstVersion, Run.attempt_bind, h]
  rfl

namespace ManifestKind

variable {k : ManifestKind} {fs : FileSystem}

/-- The manifests are found by one search. -/
theorem exists_find_of_manifests {root : Path} (h : k.manifests fs root o = .ok files) :
    ∃ includes excludes name, Discovery.find fs root includes excludes name = .ok files := by
  unfold manifests at h
  split at h
  next => exact ⟨_, _, _, h⟩
  next =>
    split at h
    next => exact ⟨_, _, _, h⟩
    next => exact ⟨_, _, _, h⟩

theorem Reaches.toText_ne_nil (h : k.Reaches directory o m files runtime m₁) (hfile : file ∈ files) :
    file.path.toText ≠ [] := by
  obtain ⟨_, _, _, hfind⟩ := exists_find_of_manifests h.manifests
  exact (Discovery.full_of_find (Path.full_ofText directory) hfind hfile).toText_ne_nil

theorem Reaches.pairwise (h : k.Reaches directory o m files runtime m₁) :
    files.Pairwise fun file file' => Text.le file.relative file'.relative = true := by
  obtain ⟨_, _, _, hfind⟩ := exists_find_of_manifests h.manifests
  exact Discovery.pairwise_of_find hfind

/-- Findings that name the manifests one by one are in their order. -/
theorem Reaches.pairwise_findings (h : k.Reaches directory o m files runtime m₁) {findings : List Finding}
    (hlength : findings.length = files.length)
    (hnames : ∀ (n : Nat) file, files[n]? = some file →
      ∃ f, findings[n]? = some f ∧ f.manifestFile = file.relative) :
    findings.Pairwise fun f f' => Text.le f.manifestFile f'.manifestFile = true := by
  have hmap : findings.map Finding.manifestFile = files.map FoundFile.relative := by
    refine List.ext_getElem? fun n => ?_
    rw [List.getElem?_map, List.getElem?_map]
    cases hfile : files[n]? with
    | some file =>
      obtain ⟨f, hf, hname⟩ := hnames n file hfile
      rw [hf]
      exact congrArg some hname
    | none =>
      rw [List.getElem?_eq_none (hlength ▸ List.getElem?_eq_none_iff.mp hfile)]
      rfl
  have hsorted : (files.map FoundFile.relative).Pairwise fun s t => Text.le s t = true :=
    List.pairwise_map.mpr h.pairwise
  rw [← hmap] at hsorted
  exact List.pairwise_map.mp hsorted

/-- All manifests of a directory are found, in their order. -/
theorem manifests_of_perm {root : Path} {es : List (Text × FileTree)} (ways : List Text)
    (hroot : fs.look root = .ok (some (.directory es)))
    (hperm : (Discovery.filesIn [k.fileName] Exclusion.python [] es).Perm ways)
    (hsorted : ways.Pairwise fun s t => Text.le s t = true) :
    k.manifests fs root allFiles = .ok (ways.map fun way => ⟨root ++ Path.ofText way, way⟩) := by
  have htarget : ¬ (!allFiles.targetFile.isEmpty) = true := by decide
  have hexcludes : Exclusion.python ++ allFiles.exclude.getD [] = Exclusion.python := List.append_nil _
  have hall : allFiles.allProjects = true := rfl
  rw [manifests, if_neg htarget, if_pos hall, hexcludes, Discovery.find_of_root (Discovery.root?_of_look hroot),
    Discovery.search_directory, Text.sort_eq_of_perm hperm, Text.sort_of_pairwise hsorted]

/-- What is found below a directory are the findings for its manifests. -/
theorem Reaches.find_eq (h : k.Reaches directory o m files runtime m₁) :
    (k.find directory o m).1 = (k.findingsFor o runtime files m₁).1 := by
  have haccepted : ¬ (!o.targetFile.isEmpty && !k.accepts o.targetFile) = true := by
    rcases h.accepted with h | h <;> simp [h]
  rw [find, if_neg haccepted, Run.get_bind, h.manifests, Run.bind_eq, Run.ofExcept_eq]
  dsimp only
  cases files with
  | nil => rfl
  | cons file files =>
    show ((k.runtime? >>= _) m).1 = _
    rw [Run.bind_eq, h.runtime]

end ManifestKind

/-- The findings below a directory are told by the attempts in turn. -/
theorem find_requirementsFiles_eq
    (h : (requirementsFiles c reportExclusions).Reaches directory o m files runtime m₁) :
    ((requirementsFiles c reportExclusions).find directory o m).1 =
      (tellings c reportExclusions runtime files m₁).mapM id := by
  rw [h.find_eq, findingsFor_eq fun _ => h.toText_ne_nil]

/-- There are findings just if no attempt ends the run. -/
theorem ok_find_requirementsFiles_iff
    (h : (requirementsFiles c reportExclusions).Reaches directory o m files runtime m₁) :
    (∃ findings, ((requirementsFiles c reportExclusions).find directory o m).1 = .ok findings) ↔
      ∀ n file, files[n]? = some file → ¬ (c.attemptOn m₁ file n).Ends m₁.callDepth "pip" := by
  rw [find_requirementsFiles_eq h, tellings, Except.exists_mapM_mapIdx_eq_ok]
  refine forall_congr' fun n => forall_congr' fun file => forall_congr' fun _ => ?_
  constructor
  · rintro ⟨f, htold⟩ hends
    obtain ⟨e, he⟩ := hends.telling_eq c reportExclusions runtime file
    cases he.symm.trans htold
  · exact fun hends => ⟨_, Attempt.telling_eq hends⟩

/-- If there are findings, each of them is the one of its own attempt. -/
theorem finding_of_find (h : (requirementsFiles c reportExclusions).Reaches directory o m files runtime m₁)
    {findings : List Finding}
    (hfind : ((requirementsFiles c reportExclusions).find directory o m).1 = .ok findings) :
    findings.length = files.length ∧ ∀ n file, files[n]? = some file →
      ¬ (c.attemptOn m₁ file n).Ends m₁.callDepth "pip" ∧
        findings[n]? = some ((c.attemptOn m₁ file n).finding c reportExclusions runtime file) := by
  have hends := (ok_find_requirementsFiles_iff h).mp ⟨findings, hfind⟩
  rw [find_requirementsFiles_eq h, tellings, Except.mapM_mapIdx_eq_ok] at hfind
  refine ⟨hfind.1, fun n file hfile => ⟨hends n file hfile, ?_⟩⟩
  obtain ⟨f, hf, htold⟩ := hfind.2 n file hfile
  rw [Attempt.telling_eq (hends n file hfile)] at htold
  rw [hf, ← Except.ok.inj htold]

/-- The requirements files below a directory have findings just if no attempt ends the run. Each file has one
then, in ascending order. It has an error and no graph if its own attempt fails, and else a graph that passes
the check. In another run, also below another directory, where the same file comes at the same place and its
attempt comes to the same, it has the same finding. -/
theorem find_requirementsFiles
    (h : (requirementsFiles c reportExclusions).Reaches directory o m files runtime m₁) :
    ((∃ findings, ((requirementsFiles c reportExclusions).find directory o m).1 = .ok findings) ↔
      ∀ n file, files[n]? = some file → ¬ (c.attemptOn m₁ file n).Ends m₁.callDepth "pip") ∧
    ∀ findings, ((requirementsFiles c reportExclusions).find directory o m).1 = .ok findings →
      findings.length = files.length ∧
      findings.Pairwise (fun f f' => Text.le f.manifestFile f'.manifestFile = true) ∧
      (∀ n file, files[n]? = some file → ∃ f, findings[n]? = some f ∧
        f.manifestFile = file.relative ∧ f.lockFile = file.relative ∧
        (f.error ≠ none ∧ f.graph = none ↔ (c.attemptOn m₁ file n).Fails) ∧
        (¬ (c.attemptOn m₁ file n).Fails → f.error = none ∧ ∃ g, f.graph = some g ∧ g.check = .ok ())) ∧
      ∀ directory' o' m' files' m₁' findings',
        (requirementsFiles c reportExclusions).Reaches directory' o' m' files' runtime m₁' →
        ((requirementsFiles c reportExclusions).find directory' o' m').1 = .ok findings' →
        ∀ n file, files[n]? = some file → files'[n]? = some file →
          c.attemptOn m₁' file n = c.attemptOn m₁ file n → findings'[n]? = findings[n]? := by
  refine ⟨ok_find_requirementsFiles_iff h, fun findings hfind => ?_⟩
  obtain ⟨hlength, heach⟩ := finding_of_find h hfind
  have hnames : ∀ (n : Nat) file, files[n]? = some file →
      ∃ f, findings[n]? = some f ∧ f.manifestFile = file.relative :=
    fun n file hfile => ⟨_, (heach n file hfile).2, (Attempt.files_finding ..).1⟩
  refine ⟨hlength, h.pairwise_findings hlength hnames, fun n file hfile => ?_, ?_⟩
  · obtain ⟨hends, hf⟩ := heach n file hfile
    have hrefused : c.attemptOn m₁ file n ≠ .refused := fun hrefused => hends (hrefused ▸ .refused)
    refine ⟨_, hf, (Attempt.files_finding ..).1, (Attempt.files_finding ..).2, ⟨fun hfinding => ?_,
      Attempt.Fails.finding⟩, fun hfails => Attempt.finding_of_not_fails hfails hrefused⟩
    by_contra hfails
    exact hfinding.1 (Attempt.finding_of_not_fails hfails hrefused).1
  · intro directory' o' m' files' m₁' findings' h' hfind' n file hfile hfile' hattempt
    rw [((finding_of_find h' hfind').2 n file hfile').2, (heach n file hfile).2, hattempt]

/-- A directory with a requirements file in each of its three directories. -/
def threeDirectories : List (Text × FileTree) :=
  [("c", .directory [("requirements.txt", .file [])]), ("a", .directory [("requirements.txt", .file [])]),
    ("b", .directory [("requirements.txt", .file [])])]

/-- A machine where the first pip run fails, and the report of the third is not one. -/
def threeFiles : Machine where
  files := { tree := .directory threeDirectories }
  programs := [
    ("python3", [.ended 0 (Bytes.ofText "Python 3.12.1\n") []]),
    ("pip", [.ended 1 [] (Bytes.ofText "No matching distribution found for x"),
      .ended 0 (Bytes.ofText "\x7b\"install\":[]\x7d") [], .ended 0 (Bytes.ofText "[]") []])]

/-- The same tree, where the first and the third run cannot be started. -/
def threeFilesLocked : Machine where
  files := threeFiles.files
  programs := [
    ("python3", [.ended 0 (Bytes.ofText "Python 3.12.1\n") []]),
    ("pip", [.notStarted "Permission denied", .ended 0 (Bytes.ofText "\x7b\"install\":[]\x7d") [],
      .notStarted "Permission denied"])]

/-- The files that are found in it. -/
def threeFound : List FoundFile :=
  (["a/requirements.txt", "b/requirements.txt", "c/requirements.txt"] : List Text).map fun way =>
    ⟨Path.ofText way, way⟩

theorem manifests_threeFiles :
    (requirementsFiles {}).manifests threeFiles.files (Path.ofText ".") allFiles = .ok threeFound := by
  have hlocate : threeFiles.files.locate (Path.ofText ".") = .ok [] :=
    Except.eq_ok_of_toOption (by decide +kernel)
  rw [ManifestKind.manifests_of_perm (threeFound.map FoundFile.relative)
    (FileSystem.look_of_locate hlocate rfl) (by decide +kernel) (by decide +kernel)]
  exact congrArg Except.ok (by decide +kernel)

theorem find_requirementsFiles_threeFiles :
    ∃ m₁ findings, (requirementsFiles {}).Reaches "." allFiles threeFiles threeFound "python@3.12.1" m₁ ∧
      ((requirementsFiles {}).find "." allFiles threeFiles).1 = .ok findings ∧ findings.length = 3 ∧
      (∃ f, findings[0]? = some f ∧ f.manifestFile = Text.ofString "a/requirements.txt" ∧
        f.error ≠ none ∧ f.graph = none) ∧
      (∃ f, findings[1]? = some f ∧ f.manifestFile = Text.ofString "b/requirements.txt" ∧
        f.error = none ∧ ∃ g, f.graph = some g ∧ g.check = .ok ()) ∧
      (∃ f, findings[2]? = some f ∧ f.manifestFile = Text.ofString "c/requirements.txt" ∧
        f.error ≠ none ∧ f.graph = none) ∧
      ∀ others, ((requirementsFiles {}).find "." allFiles threeFilesLocked).1 = .ok others →
        others[1]? = findings[1]? := by
  obtain ⟨_, hruntime, rfl⟩ := Run.exists_of_toOption (x := (requirementsFiles {}).runtime?)
    (m := threeFiles) (f := id) (b := some "python@3.12.1") (by decide +kernel)
  obtain ⟨_, hlocked, rfl⟩ := Run.exists_of_toOption (x := (requirementsFiles {}).runtime?)
    (m := threeFilesLocked) (f := id) (b := some "python@3.12.1") (by decide +kernel)
  have hreaches : (requirementsFiles {}).Reaches "." allFiles threeFiles threeFound "python@3.12.1" _ :=
    ⟨Or.inl rfl, manifests_threeFiles, hruntime⟩
  have hreachesLocked :
      (requirementsFiles {}).Reaches "." allFiles threeFilesLocked threeFound "python@3.12.1" _ :=
    ⟨Or.inl rfl, manifests_threeFiles, hlocked⟩
  have hends : ∀ n (hn : n < threeFound.length),
      ¬ (Client.attemptOn {} ((requirementsFiles {}).runtime? threeFiles).2 threeFound[n] n).Ends
        ((requirementsFiles {}).runtime? threeFiles).2.callDepth "pip" := by decide +kernel
  obtain ⟨hok, hfindings⟩ := find_requirementsFiles hreaches
  obtain ⟨findings, hfind⟩ := hok.mpr fun n file hfile => by
    obtain ⟨hn, rfl⟩ := List.getElem?_eq_some_iff.mp hfile
    exact hends n hn
  obtain ⟨hlength, _, heach, hothers⟩ := hfindings findings hfind
  refine ⟨_, findings, hreaches, hfind, hlength, ?_, ?_, ?_, fun others h => ?_⟩
  · obtain ⟨f, hf, hmanifest, _, hfails, _⟩ := heach 0 _ rfl
    exact ⟨f, hf, hmanifest, hfails.mpr (by decide +kernel)⟩
  · obtain ⟨f, hf, hmanifest, _, _, hgraph⟩ := heach 1 _ rfl
    exact ⟨f, hf, hmanifest, hgraph (by decide +kernel)⟩
  · obtain ⟨f, hf, hmanifest, _, hfails, _⟩ := heach 2 _ rfl
    exact ⟨f, hf, hmanifest, hfails.mpr (by decide +kernel)⟩
  · exact hothers "." allFiles threeFilesLocked threeFound _ others hreachesLocked h 1 _ rfl rfl
      (by decide +kernel)

/-! ## Two requirements files -/

/-- A directory with a requirements file in each of its two directories. -/
def twoDirectories : List (Text × FileTree) :=
  [("a", .directory [("requirements.txt", .file [])]), ("b", .directory [("requirements.txt", .file [])])]

/-- A machine with these files, where pip prints something for the first one, and that nothing is needed for
the second. -/
def twoFiles (first : Bytes) : Machine where
  files := { tree := .directory twoDirectories }
  programs := [
    ("python3", [.ended 0 (Bytes.ofText "Python 3.12.1\n") []]),
    ("pip", [.ended 0 first [], .ended 0 (Bytes.ofText "\x7b\"install\":[]\x7d") []])]

def firstFile : FoundFile := ⟨Path.ofText "a/requirements.txt", "a/requirements.txt"⟩

def secondFile : FoundFile := ⟨Path.ofText "b/requirements.txt", "b/requirements.txt"⟩

theorem outputText_twoFiles (first : Bytes) : ∃ m₁,
    Run.outputText ["python3", "--version"] (twoFiles first) = (.ok "Python 3.12.1\n", m₁) ∧
      (twoFiles first).Starts ["python3", "--version"] none none m₁ := by
  obtain ⟨m₁, houtput, hstarts⟩ := Run.outputText_eq ["python3", "--version"] (twoFiles first)
  refine ⟨m₁, ?_, hstarts⟩
  have hdecode : Utf8.decode (Bytes.ofText "Python 3.12.1\n") = .ok "Python 3.12.1\n" :=
    Except.eq_ok_of_toOption (by decide +kernel)
  have hlines : Run.unixLines "Python 3.12.1\n" = "Python 3.12.1\n" := by decide +kernel
  have hspoken : Run.spoken ["python3", "--version"]
      (outcomeAt? ((twoFiles first).outcomes (Text.afterLast '/' "python3")) 0) =
      .ok (Run.unixLines "Python 3.12.1\n") :=
    Run.spoken_eq_ok.mpr ⟨_, [], _, [], rfl, hdecode, rfl, rfl⟩
  rw [houtput, Run.unlessRefused_of_accepted (Machine.refuses_of_plain (by decide)), List.headD_cons, hspoken,
    hlines]

/-- Both files are reached, and what comes of asking pip is still to come. -/
theorem reaches_twoFiles (first : Bytes) : ∃ m₁,
    (requirementsFiles {}).Reaches "." allFiles (twoFiles first) [firstFile, secondFile] "python@3.12.1" m₁ ∧
      Client.Asked {} 0 (twoFiles first) m₁ := by
  obtain ⟨m₁, houtput, hstarts⟩ := outputText_twoFiles first
  have hlocate : (twoFiles []).files.locate (Path.ofText ".") = .ok [] :=
    Except.eq_ok_of_toOption (by decide +kernel)
  have hlook : (twoFiles first).files.look (Path.ofText ".") = .ok (some (twoFiles []).files.tree) :=
    FileSystem.look_of_locate hlocate rfl
  refine ⟨m₁, ⟨Or.inl rfl, ?_, ?_⟩, fun what constraints n => ?_, hstarts.callDepth⟩
  · rw [ManifestKind.manifests_of_perm ([firstFile, secondFile].map FoundFile.relative) hlook
      (by decide +kernel) (by decide +kernel)]
    exact congrArg Except.ok (by decide +kernel)
  · rw [ManifestKind.runtime?_of_output houtput]
    exact congrArg (fun version => (Except.ok (some version), m₁)) (by decide +kernel)
  · rw [Client.attemptAt, Client.attemptAt, hstarts.has, hstarts.refuses, hstarts.others _ (by decide)]
    rfl

/-- A chain of packages in the report on the first file that is longer than calls nest ends the run, although
both attempts give a report. -/
theorem find_chained : ∃ m₁,
    (requirementsFiles {}).Reaches "." allFiles (twoFiles (chainFile 1200)) [firstFile, secondFile]
        "python@3.12.1" m₁ ∧
      (∀ n file, [firstFile, secondFile][n]? = some file → ¬ (Client.attemptOn {} m₁ file n).Fails) ∧
      ((requirementsFiles {}).find "." allFiles (twoFiles (chainFile 1200))).1 = .error Walk.tooDeep := by
  obtain ⟨m₁, hreaches, hasked⟩ := reaches_twoFiles (chainFile 1200)
  have hfirst : Client.attemptOn {} m₁ firstFile 0 = .started (some (.ended 0 (chainFile 1200) [])) := by
    rw [Client.attemptOn, hasked.attempts, Client.attemptAt_of_found rfl, Machine.refuses_of_plain (by decide)]
    rfl
  have hsecond : Client.attemptOn {} m₁ secondFile 1 =
      .started (some (.ended 0 (Bytes.ofText "\x7b\"install\":[]\x7d") [])) := by
    rw [Client.attemptOn, hasked.attempts, Client.attemptAt_of_found rfl, Machine.refuses_of_plain (by decide)]
    rfl
  have hreport : (Client.attemptOn {} m₁ firstFile 0).report {} ["-r", firstFile.path.toText] [] =
      .ok (chain 1200) :=
    Attempt.report_eq_ok.mpr ⟨_, [], hfirst, decode_chainFile 1200⟩
  have hdeep : (chain 1200).graphWithin m₁.callDepth "pip" = .error Walk.tooDeep := by
    rw [hasked.callDepth, graphWithin_chain]
    exact if_neg (by decide)
  refine ⟨m₁, hreaches, fun n file hfile => ?_, ?_⟩
  · obtain ⟨hn, rfl⟩ := List.getElem?_eq_some_iff.mp hfile
    have hcases : n = 0 ∨ n = 1 := by
      rw [List.length_cons, List.length_singleton] at hn
      omega
    rcases hcases with rfl | rfl
    · rw [List.getElem_cons_zero, hfirst]
      exact Attempt.not_fails (decode_chainFile 1200)
    · rw [List.getElem_cons_succ, List.getElem_cons_zero, hsecond]
      decide +kernel
  · have hgraph : (Client.attemptOn {} m₁ firstFile 0).graph {} ["-r", firstFile.path.toText] []
        m₁.callDepth "pip" = .error Walk.tooDeep := by
      rw [Attempt.graph, hreport]
      exact hdeep
    have htold : (Client.attemptOn {} m₁ firstFile 0).telling {} false m₁.callDepth "python@3.12.1" firstFile =
        .error Walk.tooDeep := by
      rw [Attempt.telling, hgraph]
      rfl
    rw [find_requirementsFiles_eq hreaches, tellings, List.mapIdx_cons, List.mapM_cons, htold]
    rfl

end ManifestGraph.Pip
