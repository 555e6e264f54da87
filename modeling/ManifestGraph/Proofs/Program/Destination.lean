/-
  What the program leaves at the destination of its output, which is a file or the standard output: all of the
  output if it ends with zero, and what was there before if it does not (`run_all_or_nothing`).
-/
import ManifestGraph.Proofs.FileTree
import ManifestGraph.Proofs.Program.ExitCode
import ManifestGraph.Proofs.Program.Footprint
import ManifestGraph.Proofs.Resolution.Footprint

namespace ManifestGraph

/-! ## What is printed -/

/-- The event prints nothing. -/
def Event.isSilent : Event → Bool
  | .printed _ => false
  | _ => true

theorem Event.isSilent_of_isAct {e : Event} (h : e.isAct = true) : e.isSilent = true := by
  cases e with
  | printed content => cases h
  | _ => rfl

theorem Event.isSilent_of_isOutward {e : Event} (h : e.isOutward = true) : e.isSilent = true := by
  cases e with
  | printed content => cases h
  | _ => rfl

theorem Machine.printed_noting (m : Machine) (e : Event) :
    (m.noting e).printed = m.printed ++ match e with
      | .printed content => content
      | _ => [] := by
  rw [printed, noting, List.flatMap_append, List.flatMap_singleton]
  rfl

/-- After events that print nothing, no more is printed than before. -/
theorem Machine.Follows.printed_eq {m m' : Machine} (h : m.Follows Event.isSilent m') :
    m'.printed = m.printed := by
  obtain ⟨noted, hjournal, hsilent⟩ := h.journal
  rw [Machine.printed, hjournal, List.flatMap_append]
  refine (congrArg _ (List.flatMap_eq_nil_iff.mpr fun e he => ?_)).trans (List.append_nil _)
  have hquiet := hsilent e he
  cases e with
  | printed content => cases hquiet
  | _ => rfl

namespace Program

variable {s : Settings} {m m' m₁ : Machine} {e : Failure} {code : Int} {content : Bytes}

/-- A resolution writes no file and prints nothing. -/
theorem keeps_resolve (s : Settings) : (resolve s).Keeps Event.isSilent := by
  unfold resolve
  have hfallback := fun directory o =>
    ((fallback s).keeps_resolve directory o).mono fun _ => Event.isSilent_of_isOutward
  split
  next =>
    refine Resolution.keeps_run (fun _ => Event.isSilent_of_isAct) (fun _ _ => rfl) ⟨?_, ?_, hfallback⟩
    · exact fun source hsource directory o =>
        (keeps_sources s source hsource directory o).mono fun _ => Event.isSilent_of_isOutward
    · intro convert hconvert f
      cases hconvert
      exact (Conversion.keeps_converter _ _ f).mono fun _ => Event.isSilent_of_isOutward
  next => exact hfallback _ _

/-! ## The destination -/

/-- The content is all that stands at the destination: in the file, or else, after what was there before, on
the standard output. -/
def Delivers (s : Settings) (content : Bytes) (m m' : Machine) : Prop :=
  match s.outputFile with
  | some path => m'.files.read path = .ok content ∧ m'.printed = m.printed
  | none => m'.files = m.files ∧ m'.printed = m.printed ++ content

theorem delivers_of_write (h : write s content m = (.ok (), m')) : Delivers s content m m' := by
  unfold write at h
  unfold Delivers
  cases hfile : s.outputFile with
  | none =>
    rw [hfile] at h
    cases h
    exact ⟨rfl, m.printed_noting _⟩
  | some path =>
    rw [hfile] at h
    obtain ⟨_, m₁, hwrite, h⟩ := Run.bind_eq_ok.mp h
    unfold Run.writeFile at hwrite
    rw [Run.get_bind] at hwrite
    rcases hfiles : m.files.write path content with fault | files
    · rw [hfiles] at hwrite
      cases hwrite
    · rw [hfiles] at hwrite
      cases hwrite
      cases h
      exact ⟨FileSystem.read_write hfiles, (Machine.printed_noting _ _).trans (List.append_nil _)⟩

theorem Delivers.of_follows (h : Delivers s content m₁ m') (hfollows : m.Follows Event.isSilent m₁) :
    Delivers s content m m' := by
  unfold Delivers at h ⊢
  rw [hfollows.printed_eq, hfollows.files] at h
  exact h

/-- A path that leads to something is in the way unless it may be overwritten. -/
theorem isBlocked_of_find? {path : Path} {found : FileTree} (hfile : s.outputFile = some path)
    (hforce : s.force = false) (hfound : m.files.find? path = .ok (some found)) :
    isBlocked s m = (.ok true, m) := by
  unfold isBlocked
  rw [hfile]
  dsimp only
  rw [hforce, if_neg Bool.false_ne_true, Run.isPresent, Run.get_bind, FileSystem.look, hfound]
  rfl

theorem failureCode_ne_zero (e : Failure) : failureCode e ≠ 0 := by
  unfold failureCode
  cases e.exitCode? with
  | none => exact one_ne_zero
  | some code =>
    dsimp only
    split
    next => exact one_ne_zero
    next hcode => exact hcode

/-- The lines of some outputs are those of each of them, one after the other. -/
theorem lines_eq_ok {outputs : List Output} : lines outputs = .ok content ↔
    ∃ ls, List.Forall₂ (fun o l => o.toLines = .ok l) outputs ls ∧ content = ls.flatten := by
  unfold lines
  constructor
  · intro h
    cases hls : outputs.mapM Output.toLines with
    | error e => rw [hls] at h; cases h
    | ok ls => rw [hls] at h; cases h; exact ⟨ls, Except.mapM_eq_ok.mp hls, rfl⟩
  · rintro ⟨ls, hls, rfl⟩
    rw [Except.mapM_eq_ok.mpr hls]
    rfl

/-- A program whose resolution ended well writes all of its output. -/
theorem ending_ok_eq_ok {outputs : List Output} (h : ending s (.ok outputs) m = (.ok code, m')) :
    code = 0 ∧ ∃ ls, List.Forall₂ (fun o l => o.toLines = .ok l) outputs ls ∧
      Delivers s ls.flatten m m' := by
  obtain ⟨content, m₁, hread, h⟩ := Run.bind_eq_ok.mp h
  obtain ⟨hlines, rfl⟩ := Run.ofExcept_eq_ok.mp hread
  obtain ⟨ls, hls, rfl⟩ := lines_eq_ok.mp hlines
  obtain ⟨_, m₂, hwrite, h⟩ := Run.bind_eq_ok.mp h
  obtain ⟨rfl, rfl⟩ := Run.pure_eq_ok.mp h
  exact ⟨rfl, ls, hls, delivers_of_write hwrite⟩

/-- A program whose resolution failed with a fault of its own says so and ends with its exit code, which is
never zero. -/
theorem ending_error (hown : e.fault.reason.isOwn = true) : ending s (.error e) m =
    (.ok (failureCode e), m.noting (.logged .error .commandLine e.userMessage)) := by
  rw [ending, if_pos hown]
  rfl

/-- A program whose resolution failed only ends by itself if the fault is its own. -/
theorem ending_error_eq_ok (h : ending s (.error e) m = (.ok code, m')) :
    e.fault.reason.isOwn = true ∧ code = failureCode e ∧
      m' = m.noting (.logged .error .commandLine e.userMessage) := by
  cases hown : e.fault.reason.isOwn with
  | false => rw [ending, if_neg (hown ▸ Bool.false_ne_true)] at h; cases h
  | true =>
    rw [ending_error hown] at h
    cases h
    exact ⟨rfl, rfl, rfl⟩

/-- A program that ends with another code than zero has written nothing. -/
theorem follows_of_run (h : run s m = (.ok code, m')) (hcode : code ≠ 0) :
    m.Follows Event.isSilent m' := by
  rcases run_cases h with ⟨_, hzero, _⟩ | ⟨_, _, message, rfl⟩ | ⟨_, h⟩
  · exact absurd hzero hcode
  · exact .noting rfl
  · have hresolve := keeps_resolve s m
    rcases hrun : resolve s m with ⟨e | outputs, m₁⟩
    · rw [hrun] at h hresolve
      obtain ⟨_, _, rfl⟩ := ending_error_eq_ok h
      exact hresolve.trans (.noting rfl)
    · rw [hrun] at h
      exact absurd (ending_ok_eq_ok h).1 hcode

/-- A program that ends with zero, and not for having told its version, has delivered the lines of all outputs
of its resolution. -/
theorem delivers_of_run (h : run s m = (.ok 0, m')) (hversion : s.version = false) :
    ∃ outputs m₁ ls, resolve s m = (.ok outputs, m₁) ∧
      List.Forall₂ (fun o l => o.toLines = .ok l) outputs ls ∧ Delivers s ls.flatten m m' := by
  rcases run_cases h with ⟨htold, _⟩ | ⟨_, hcode, _⟩ | ⟨_, h⟩
  · cases htold.symm.trans hversion
  · exact absurd hcode zero_ne_one
  · have hresolve := keeps_resolve s m
    rcases hrun : resolve s m with ⟨e | outputs, m₁⟩
    · rw [hrun] at h
      exact absurd (ending_error_eq_ok h).2.1.symm (failureCode_ne_zero e)
    · rw [hrun] at h hresolve
      obtain ⟨_, ls, hls, hdelivers⟩ := ending_ok_eq_ok h
      exact ⟨outputs, m₁, ls, rfl, hls, hdelivers.of_follows hresolve⟩

/-- A program that ends with another code than zero has written no file and printed nothing. One that ends
with zero, unless it was asked for its version, has delivered the lines of all outputs of its resolution in
order, and nothing else. A file that was there is only written if it may be overwritten. A resolution that
fails with a fault of its own always ends the program with another code than zero. -/
theorem run_all_or_nothing (s : Settings) (m : Machine) :
    (∀ code m', run s m = (.ok code, m') →
      (code ≠ 0 → m'.files = m.files ∧ m'.printed = m.printed) ∧
      (code = 0 → s.version = false → ∃ outputs m₁ ls, resolve s m = (.ok outputs, m₁) ∧
        List.Forall₂ (fun o l => o.toLines = .ok l) outputs ls ∧ Delivers s ls.flatten m m') ∧
      (∀ path found, s.outputFile = some path → m.files.find? path = .ok (some found) →
        s.force = false → m'.files = m.files)) ∧
    ∀ e m₁, Begins s m → resolve s m = (.error e, m₁) → e.fault.reason.isOwn = true →
      ∃ code m', run s m = (.ok code, m') ∧ code ≠ 0 := by
  refine ⟨fun code m' h => ⟨fun hcode => ?_, ?_, fun path found hfile hfound hforce => ?_⟩,
    fun e m₁ hbegins he hown => ⟨failureCode e, m₁.noting (.logged .error .commandLine e.userMessage), ?_,
      failureCode_ne_zero e⟩⟩
  · have hfollows := follows_of_run h hcode
    exact ⟨hfollows.files, hfollows.printed_eq⟩
  · rintro rfl hversion
    exact delivers_of_run h hversion
  · have hblocked := isBlocked_of_find? hfile hforce hfound
    rcases run_cases h with ⟨_, _, message, rfl⟩ | ⟨_, _, message, rfl⟩ | ⟨hbegins, _⟩
    · rfl
    · rfl
    · cases hbegins.unblocked.symm.trans hblocked
  · rw [run_of_begins hbegins, he, ending_error hown]

/-- Settings that send the output of the fallback to a file. -/
def filedSettings : Settings where
  printEffectiveGraph := true
  outputFile := some (Path.ofText "out.jsonl")

/-- What the fallback's program writes for one project. -/
def projectLine : Bytes := Utf8.encode "\x7b\"normalisedTargetFile\": \"pom.xml\"\x7d\n"

/-- A machine where the fallback's program writes one project, then fails, in a directory with an output. -/
def projectThenFailure : Machine where
  files := { tree := .directory [("old.jsonl", .file [])] }
  programs := [("snyk", [.ended 0 projectLine [], .ended 2 [] []])]

/-- The same settings, for a file that may be overwritten. -/
def forcedSettings : Settings := { filedSettings with force := true }

/-- The same settings, for a file that is there. -/
def blockedSettings : Settings := { filedSettings with outputFile := some (Path.ofText "old.jsonl") }

theorem run_all_or_nothing_filed :
    ∃ m', run filedSettings projectThenFailure = (.ok 0, m') ∧
      (∃ outputs m₁ ls, resolve filedSettings projectThenFailure = (.ok outputs, m₁) ∧
        List.Forall₂ (fun o l => o.toLines = .ok l) outputs ls ∧
        Delivers filedSettings ls.flatten projectThenFailure m') ∧
      m'.files.read (Path.ofText "out.jsonl") = .ok projectLine ∧
      (∃ e m₁ code m₂, resolve forcedSettings m' = (.error e, m₁) ∧ e.fault.reason.isOwn = true ∧
        run forcedSettings m' = (.ok code, m₂) ∧ code ≠ 0 ∧ m₂.files = m'.files ∧
        m₂.printed = m'.printed) ∧
      ∃ code m₂, run blockedSettings projectThenFailure = (.ok code, m₂) ∧
        m₂.files = projectThenFailure.files := by
  obtain ⟨_, hrun, rfl⟩ := Run.exists_of_toOption (x := run filedSettings) (m := projectThenFailure)
    (f := id) (b := 0) (by decide +kernel)
  obtain ⟨_, hagain, rfl⟩ := Run.exists_of_toOption (x := run forcedSettings)
    (m := (run filedSettings projectThenFailure).2) (f := id) (b := 2) (by decide +kernel)
  obtain ⟨_, hblocked, rfl⟩ := Run.exists_of_toOption (x := run blockedSettings) (m := projectThenFailure)
    (f := id) (b := 1) (by decide +kernel)
  have hdelivers := ((run_all_or_nothing filedSettings projectThenFailure).1 0 _ hrun).2.1 rfl rfl
  have hfails := run_all_or_nothing forcedSettings (run filedSettings projectThenFailure).2
  have hkept := ((run_all_or_nothing blockedSettings projectThenFailure).1 1 _ hblocked).2.2
    (Path.ofText "old.jsonl") (.file []) rfl rfl rfl
  have hread : (run filedSettings projectThenFailure).2.files.read (Path.ofText "out.jsonl") = .ok projectLine :=
    Except.eq_ok_of_toOption (by decide +kernel)
  refine ⟨_, hrun, hdelivers, hread, ?_, 1, _, hblocked, hkept⟩
  -- the program of the fallback fails the second time, and the file stays as the first run left it
  have hbegins := begins_of_run hagain (by decide) (by decide)
  have hends := hagain
  rw [run_of_begins hbegins] at hends
  rcases hended : resolve forcedSettings (run filedSettings projectThenFailure).2 with ⟨e | outputs, m₁⟩
  · rw [hended] at hends
    have hown := (ending_error_eq_ok hends).1
    obtain ⟨code, m₂, hcode, hne⟩ := hfails.2 e m₁ hbegins hended hown
    obtain ⟨hfiles, hprinted⟩ := (hfails.1 code m₂ hcode).1 hne
    exact ⟨e, m₁, code, m₂, rfl, hown, hcode, hne, hfiles, hprinted⟩
  · rw [hended] at hends
    cases (ending_ok_eq_ok hends).1

end Program
end ManifestGraph
