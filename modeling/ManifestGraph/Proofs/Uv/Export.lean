/-
  When uv is run. A client first asks uv for its version, and only a client that finds uv and is told a
  version that can export starts the command that it was asked for (`Ready`, `execute_started`). Otherwise it
  starts nothing but the query, and fails with a structured error (`isGeneral_heard`).
-/
import ManifestGraph.Proofs.Machine.Outcomes
import ManifestGraph.Proofs.Resolution.SourceFailures
import ManifestGraph.Proofs.Uv.Version

namespace ManifestGraph.Uv

open Run (spoken unixLines unlessRefused written)

variable {binary directory : Text} {args : List Text} {outcome : Option ProgramOutcome} {e : Failure}
  {c : Client} {m : Machine}

/-! ## The version of a binary -/

/-- The version that is heard, or why there is none. -/
def heard (binary : Text) : Except Failure Text → Except Failure Version
  | .ok output => checkVersion binary output
  | .error e =>
    .error (if e.fault.reason.isProgramFault then
      generalFrom ("failed to get " ++ binary ++ " version: " ++ e.message) e else e)

/-- The binary ended well, and what it wrote names a version that can export. -/
def Confirms (outcome : Option ProgramOutcome) : Prop :=
  ∃ stdout stderr out err, outcome = some (.ended 0 stdout stderr) ∧ Utf8.decode stdout = .ok out ∧
    Utf8.decode stderr = .ok err ∧ Supports (unixLines out)

/-- If the binary ended, what it wrote is text, in which no numeral of the version is too long. -/
def IsText (outcome : Option ProgramOutcome) : Prop :=
  ∀ status stdout stderr, outcome = some (.ended status stdout stderr) →
    ∃ out err, Utf8.decode stdout = .ok out ∧ Utf8.decode stderr = .ok err ∧ Legible (unixLines out)

/-- A version is heard just if the binary confirms that it can export. -/
theorem ok_heard_iff : (∃ v, heard binary (spoken args outcome) = .ok v) ↔ Confirms outcome := by
  constructor
  · rintro ⟨v, h⟩
    cases hspoken : spoken args outcome with
    | error e => rw [hspoken] at h; cases h
    | ok text =>
      rw [hspoken] at h
      obtain ⟨stdout, stderr, out, err, hended, hout, herr, rfl⟩ := Run.spoken_eq_ok.mp hspoken
      exact ⟨stdout, stderr, out, err, hended, hout, herr, ok_checkVersion_iff.mp ⟨v, h⟩⟩
  · rintro ⟨stdout, stderr, out, err, hended, hout, herr, hsupports⟩
    rw [Run.spoken_eq_ok.mpr ⟨stdout, stderr, out, err, hended, hout, herr, rfl⟩]
    exact ok_checkVersion_iff.mpr hsupports

/-- If it does not, the failure is a structured error. -/
theorem isGeneral_heard (htext : IsText outcome) (h : heard binary (spoken args outcome) = .error e) :
    IsGeneral e := by
  match outcome with
  | none => cases h; exact ⟨_, rfl⟩
  | some (.notStarted message) => cases h; exact ⟨_, rfl⟩
  | some (.ended status stdout stderr) =>
    obtain ⟨out, err, hout, herr, hlegible⟩ := htext status stdout stderr rfl
    rw [Run.spoken_ended hout herr] at h
    split at h
    next => exact isGeneral_checkVersion hlegible h
    next => cases h; exact ⟨_, rfl⟩

/-! ## Commands -/

namespace Client

/-- Uv is asked for its version. -/
def query (c : Client) : Event := .started [c.path, "--version"] none none

/-- Uv is started with a command. -/
def command (c : Client) (directory : Text) (args : List Text) : Event :=
  .started (c.path :: args) none (some directory)

/-- What happens when uv is started for the time after `n` others. -/
def outcome? (c : Client) (m : Machine) (n : Nat) : Option ProgramOutcome :=
  outcomeAt? (m.outcomes (Text.afterLast '/' c.path)) n

/-- Uv is there and can export. -/
structure Ready (c : Client) (m : Machine) : Prop where
  found : m.has c.binary = true
  confirms : Confirms (c.outcome? m 0)

theorem locate_eq (c : Client) (m : Machine) :
    c.locate m = (if m.has c.binary then .ok c.path
      else .error (.of (.inFamily .general (c.binary ++ " binary not found in PATH"))), m) := by
  rw [locate, Run.bind_eq, Run.find?_eq]
  cases m.has c.binary <;> rfl

/-- A binary that was found is not refused, and neither is the query for its version. -/
theorem accepts_query (hfound : m.has c.binary = true) : m.refuses [c.path, "--version"] = false := by
  rw [Machine.refuses_cons, path, Machine.refuses_path hfound]
  exact Machine.refuses_of_plain (by decide)

theorem version_eq (hfound : m.has c.binary = true) : ∃ m',
    version c.path m = (heard c.path (spoken [c.path, "--version"] (c.outcome? m 0)), m') ∧
      m.Starts [c.path, "--version"] none none m' := by
  obtain ⟨m', htext, hstarts⟩ := Run.outputText_eq [c.path, "--version"] m
  rw [Run.unlessRefused_of_accepted (accepts_query hfound), List.headD_cons] at htext
  refine ⟨m', ?_, hstarts⟩
  rw [version, Run.attempt_bind, htext, outcome?]
  cases spoken [c.path, "--version"] _ with
  | ok output => exact Run.ofExcept_eq _
  | error e =>
    dsimp only [heard]
    split <;> rfl

theorem command_ne_query : c.command directory args ≠ c.query := by
  intro h
  cases h

/-- Once uv was heard to be recent enough, the command is run and its failure told. -/
theorem execute_of_ready (h : c.Ready m) (directory : Text) (args : List Text) : ∃ m',
    c.execute directory args m = ((unlessRefused m (c.path :: args)
      (written (c.path :: args) (c.outcome? m 1))).mapError failedCommand, m') ∧
    m'.journal = m.journal ++ [c.query, c.command directory args] := by
  obtain ⟨m₁, hversion, hstarts⟩ := version_eq h.found
  obtain ⟨v, hv⟩ : ∃ v, heard c.path (spoken [c.path, "--version"] (c.outcome? m 0)) = .ok v :=
    ok_heard_iff.mpr h.confirms
  obtain ⟨m₂, houtput, hstarts'⟩ := Run.output_eq (c.path :: args) none (some directory) m₁
  -- the command sees the outcome behind the one of the query
  have houtcome : outcomeAt? (m₁.outcomes (Text.afterLast '/' ((c.path :: args).headD []))) 0 =
      c.outcome? m 1 := by
    have hused := hstarts.outcomes 0
    rwa [accepts_query h.found] at hused
  have hrefuses : ∀ result : Except Failure Bytes, unlessRefused m₁ (c.path :: args) result =
      unlessRefused m (c.path :: args) result := fun _ => by
    rw [unlessRefused, unlessRefused, hstarts.refuses]
  refine ⟨m₂, ?_, ?_⟩
  · rw [execute, Run.bind_eq, c.locate_eq, if_pos h.found]
    dsimp only
    rw [Run.bind_eq, hversion, hv]
    dsimp only
    rw [Run.attempt_bind, houtput, houtcome, hrefuses]
    cases unlessRefused m (c.path :: args) (written (c.path :: args) (c.outcome? m 1)) <;> rfl
  · rw [hstarts'.journal, hstarts.journal, List.append_assoc]
    rfl

/-- Otherwise no more than the version of uv is asked for. -/
theorem execute_of_not_ready (h : ¬ c.Ready m) (directory : Text) (args : List Text) : ∃ e m' began,
    c.execute directory args m = (.error e, m') ∧ m'.journal = m.journal ++ began ∧ began ⊆ [c.query] ∧
      (IsText (c.outcome? m 0) → IsGeneral e) := by
  rw [execute, Run.bind_eq, c.locate_eq]
  by_cases hfound : m.has c.binary = true
  · obtain ⟨m₁, hversion, hstarts⟩ := version_eq hfound
    have hunheard : ∀ v, heard c.path (spoken [c.path, "--version"] (c.outcome? m 0)) ≠ .ok v :=
      fun v hv => h ⟨hfound, ok_heard_iff.mp ⟨v, hv⟩⟩
    rw [if_pos hfound]
    dsimp only
    rw [Run.bind_eq, hversion]
    cases hheard : heard c.path (spoken [c.path, "--version"] (c.outcome? m 0)) with
    | ok v => exact absurd hheard (hunheard v)
    | error e =>
      exact ⟨e, m₁, [c.query], rfl, hstarts.journal, List.Subset.refl _,
        fun htext => isGeneral_heard htext hheard⟩
  · rw [if_neg hfound]
    exact ⟨_, m, [], rfl, (List.append_nil _).symm, List.nil_subset _, fun _ => ⟨_, rfl⟩⟩

/-- The command that a client is asked for is started just if uv is there and confirms that it can export,
and then the result is that of the command, unless its arguments are refused. Otherwise nothing but the query
for the version is started, and the run fails, with a structured error if uv answered with text. -/
theorem execute_started (c : Client) (directory : Text) (args : List Text) (m : Machine) :
    ∃ result m' began, c.execute directory args m = (result, m') ∧ m'.journal = m.journal ++ began ∧
      (c.command directory args ∈ began ↔ c.Ready m) ∧
      (c.Ready m → began = [c.query, c.command directory args] ∧
        result = (unlessRefused m (c.path :: args)
          (written (c.path :: args) (c.outcome? m 1))).mapError failedCommand) ∧
      (¬ c.Ready m → began ⊆ [c.query] ∧
        ∃ e, result = .error e ∧ (IsText (c.outcome? m 0) → IsGeneral e)) := by
  by_cases hready : c.Ready m
  · obtain ⟨m', hrun, hjournal⟩ := execute_of_ready hready directory args
    refine ⟨_, m', _, hrun, hjournal, ?_, fun _ => ⟨rfl, rfl⟩, fun h => absurd hready h⟩
    exact ⟨fun _ => hready, fun _ => List.mem_cons_of_mem _ List.mem_cons_self⟩
  · obtain ⟨e, m', began, hrun, hjournal, hbegan, hgeneral⟩ := execute_of_not_ready hready directory args
    refine ⟨_, m', began, hrun, hjournal, ?_, fun h => absurd h hready,
      fun _ => ⟨hbegan, e, rfl, hgeneral⟩⟩
    exact ⟨fun hmem => absurd (List.mem_singleton.mp (hbegan hmem)) command_ne_query,
      fun h => absurd h hready⟩

/-- What a recent uv prints, although the text of its version comes before that of the first release that
exports. -/
def recentVersion : Text := "uv 0.10.0 (0ba432459 2026-02-05)\n"

/-- A machine with this uv, which then exports nothing. -/
def recentUv : Machine where
  programs := [("uv", [.ended 0 (Utf8.encode recentVersion) [], .ended 0 [] []])]

theorem ready_recentUv : Ready {} recentUv := by
  have hversion : triple? (unixLines recentVersion) = some (["0", "10", "0"] : List Text) := by
    decide +kernel
  obtain ⟨before, after, hleftmost⟩ := triple?_eq_some.mp hversion
  have hsupports : Supports (unixLines recentVersion) :=
    ⟨before, _, after, hleftmost, by decide +kernel⟩
  refine ⟨rfl, _, [], recentVersion, [], rfl, ?_, ?_, hsupports⟩
  · exact Except.eq_ok_of_toOption (by decide +kernel)
  · exact Except.eq_ok_of_toOption (by decide +kernel)

theorem execute_started_recentUv : ∃ m', execute {} "." ["export"] recentUv = (.ok [], m') ∧
    m'.journal = [query {}, command {} "." ["export"]] := by
  obtain ⟨result, m', began, hrun, hjournal, _, hready, _⟩ := execute_started {} "." ["export"] recentUv
  obtain ⟨hbegan, hresult⟩ := hready ready_recentUv
  exact ⟨m', hrun.trans (congrArg (·, m') hresult), hjournal.trans hbegan⟩

end Client
end ManifestGraph.Uv
