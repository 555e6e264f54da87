/-
  What the entries of a Pipfile become under their markers. An entry is skipped, or its marker makes no
  difference (`requirement_eq`); so a file has the requirements of what is left of it without markers
  (`Pipfile.requirements_decided`). Which entries are skipped is told by the guesses for their markers
  (`requirement_of_spells`), and no line that is handed to pip carries a marker (`requirement_of_kept`).
-/
import ManifestGraph.Pipenv.Pipfile
import ManifestGraph.Proofs.Data.Agree
import ManifestGraph.Proofs.Machine
import ManifestGraph.Proofs.Pipenv.Skipping
import Mathlib.Data.List.TakeWhile

namespace ManifestGraph.Pipenv

variable {m : Marker} {t line : Text} {entry : Data} {name key : Text}

/-! ## Entries -/

/-- The entry has a marker that is taken to be false on this platform. -/
def skips (entry : Data) : Bool :=
  ((textOf? entry "markers").map fun marker => !markerMatches marker).getD false

/-- The entry without its marker. -/
def unmarked : Data → Data
  | .record ms => .record (ms.filter fun m => m.1 ≠ "markers")
  | d => d

theorem get?_unmarked (hkey : key ≠ "markers") : (unmarked entry).get? key = entry.get? key := by
  cases entry with
  | record ms =>
    have hlookup := Members.lookup_without key "markers" ms
    rw [if_neg hkey, lookup_lastOfEach, lookup_lastOfEach] at hlookup
    exact hlookup
  | _ => rfl

theorem textOf?_unmarked (hkey : key ≠ "markers") : textOf? (unmarked entry) key = textOf? entry key := by
  rw [textOf?, get?_unmarked hkey]
  rfl

theorem textOf?_markers_unmarked (entry : Data) : textOf? (unmarked entry) "markers" = none := by
  cases entry with
  | record ms =>
    have hlookup := Members.lookup_without "markers" "markers" ms
    rw [if_pos rfl, lookup_lastOfEach] at hlookup
    show (List.lookup _ (ms.filter _).reverse).bind Data.text? = none
    rw [hlookup]
    rfl
  | _ => rfl

theorem gitRequirement_unmarked (name repository : Text) (entry : Data) :
    gitRequirement name repository (unmarked entry) = gitRequirement name repository entry := by
  have hrevision : (["ref", "tag", "branch"] : List Text).findSome? (textOf? (unmarked entry)) =
      (["ref", "tag", "branch"] : List Text).findSome? (textOf? entry) := by
    rw [List.findSome?_cons, List.findSome?_cons, List.findSome?_cons, textOf?_unmarked (by decide),
      textOf?_unmarked (by decide), textOf?_unmarked (by decide)]
    rfl
  rw [gitRequirement, hrevision]
  rfl

theorem namedRequirement_unmarked (name : Text) (entry : Data) :
    namedRequirement name (unmarked entry) = namedRequirement name entry := by
  have hextras : bracketedExtras (unmarked entry) = bracketedExtras entry := by
    rw [bracketedExtras, get?_unmarked (by decide)]
    rfl
  rw [namedRequirement, hextras, textOf?_unmarked (by decide)]
  rfl

/-- The requirement of an entry that applies. -/
def applied (name : Text) (entry : Data) : Except Failure Text :=
  match textOf? entry "git", textOf? entry "path", textOf? entry "url" with
  | some repository, _, _ => .ok (gitRequirement name repository entry)
  | none, some path, _ =>
    match entry.get? "editable" with
    | some (.bool true) => .ok ("-e " ++ path)
    | _ => .ok path
  | none, none, some url => .ok url
  | none, none, none => namedRequirement name entry

theorem applied_unmarked (name : Text) (entry : Data) : applied name (unmarked entry) = applied name entry := by
  unfold applied
  rw [textOf?_unmarked (by decide), textOf?_unmarked (by decide), textOf?_unmarked (by decide),
    get?_unmarked (by decide), namedRequirement_unmarked]
  simp only [gitRequirement_unmarked]

theorem skips_unmarked (entry : Data) : skips (unmarked entry) = false := by
  rw [skips, textOf?_markers_unmarked]
  rfl

theorem requirement_record (name : Text) (ms : Members) :
    requirement name (.record ms) = if skips (.record ms) then .ok [] else applied name (.record ms) := rfl

/-- An entry is skipped, or its marker makes no difference. -/
theorem requirement_eq (name : Text) (entry : Data) :
    requirement name entry = if skips entry then .ok [] else requirement name (unmarked entry) := by
  cases entry with
  | record ms =>
    have hunmarked : requirement name (unmarked (.record ms)) = applied name (unmarked (.record ms)) := by
      rw [unmarked, requirement_record, ← unmarked, skips_unmarked]
      rfl
    rw [hunmarked, applied_unmarked, requirement_record]
  | _ => rfl

/-! ## Files -/

/-- What is left of some entries: those that are not skipped, without their markers. -/
def decided (entries : Members) : Members :=
  (entries.filter fun e => !skips e.2).map fun e => (e.1, unmarked e.2)

/-- The file with what is left of its entries. -/
def Pipfile.decided (file : Pipfile) : Pipfile :=
  { file with packages := Pipenv.decided file.packages, devPackages := Pipenv.decided file.devPackages }

/-- The requirements of some entries. -/
def requirementsOf (entries : Members) : Except Failure (List Text) := do
  let found ← entries.mapM fun (name, entry) => requirement name entry
  .ok (found.filter fun r => !r.isEmpty)

theorem requirementsOf_cons (e : Text × Data) (entries : Members) :
    requirementsOf (e :: entries) = (do
      let r ← requirement e.1 e.2
      let rs ← requirementsOf entries
      .ok (if r.isEmpty then rs else r :: rs)) := by
  obtain ⟨name, entry⟩ := e
  unfold requirementsOf
  rw [List.mapM_cons]
  dsimp only
  cases requirement name entry with
  | error failure => rfl
  | ok r =>
    cases (entries.mapM fun (name, entry) => requirement name entry) with
    | error failure => rfl
    | ok rs => cases r <;> rfl

/-- Entries that are skipped give nothing, and the others what they give without their markers. -/
theorem requirementsOf_decided (entries : Members) :
    requirementsOf (decided entries) = requirementsOf entries := by
  induction entries with
  | nil => rfl
  | cons e entries ih =>
    rw [requirementsOf_cons, requirement_eq e.1 e.2, ← ih]
    cases hskips : skips e.2 with
    | true =>
      have hdecided : decided (e :: entries) = decided entries := by simp [decided, hskips]
      rw [hdecided]
      show _ = (requirementsOf (decided entries) >>= fun rs => _)
      cases requirementsOf (decided entries) <;> rfl
    | false =>
      have hdecided : decided (e :: entries) = (e.1, unmarked e.2) :: decided entries := by
        simp [decided, hskips]
      rw [hdecided, requirementsOf_cons]
      rfl

theorem decided_append (before after : Members) :
    decided (before ++ after) = decided before ++ decided after := by
  simp [decided]

/-- A file has the requirements of what is left of it. -/
theorem Pipfile.requirements_decided (file : Pipfile) (dev : Bool) :
    file.decided.requirements dev = file.requirements dev := by
  cases dev with
  | false => exact requirementsOf_decided file.packages
  | true =>
    show requirementsOf (Pipenv.decided file.packages ++ Pipenv.decided file.devPackages) = _
    rw [← decided_append]
    exact requirementsOf_decided (file.packages ++ file.devPackages)

/-- The requirement of each entry is among those of all, unless it is empty. -/
theorem exists_mem_requirementsOf {entries : Members} {lines : List Text} {e : Text × Data}
    (h : requirementsOf entries = .ok lines) (he : e ∈ entries) :
    ∃ line, requirement e.1 e.2 = .ok line ∧ (line ≠ [] → line ∈ lines) := by
  induction entries generalizing lines with
  | nil => cases he
  | cons e' entries ih =>
    rw [requirementsOf_cons] at h
    obtain ⟨line, hline, h⟩ := Except.bind_eq_ok.mp h
    obtain ⟨rest, hrest, h⟩ := Except.bind_eq_ok.mp h
    cases h
    rcases List.mem_cons.mp he with rfl | he
    · refine ⟨line, hline, fun hne => ?_⟩
      rw [if_neg (fun hempty => hne (List.isEmpty_iff.mp hempty))]
      exact List.mem_cons_self
    · obtain ⟨other, hother, hmem⟩ := ih hrest he
      refine ⟨other, hother, fun hne => ?_⟩
      split
      next => exact hmem hne
      next => exact List.mem_cons_of_mem _ (hmem hne)

/-! ## Skipping -/

/-- An entry whose marker is written in any way is skipped just if the guess for the marker fails on this
platform. On a platform this is right, however other comparisons come out, just if the guess holds or the
platform tests of the marker alone make it false. -/
theorem requirement_of_spells (h : m.Spells t) :
    (∀ p, markerMatches t p = m.guess.all fun g => g.holds (decidingPlatform p)) ∧
    (∀ p, (∀ w env, env.platform = decidingPlatform p → markerMatches t p = false →
        m.eval w env = false) ↔
      (m.guess.all fun g => g.holds (decidingPlatform p)) = true ∨
        m.possible (decidingPlatform p) = false) ∧
    ∀ name entry, textOf? entry "markers" = some t → requirement name entry =
      if m.guess.all fun g => g.holds ownPlatform then requirement name (unmarked entry) else .ok [] := by
  refine ⟨h.markerMatches_eq, fun p => ?_, fun name entry hmarkers => ?_⟩
  · rw [← h.markerMatches_eq]
    cases hmatches : markerMatches t p with
    | true => simp
    | false => simpa using Marker.eval_eq_false_iff
  · have hskips : skips entry = !(m.guess.all fun g => g.holds ownPlatform) := by
      rw [skips, hmarkers, Option.map_some, h.markerMatches_eq []]
      rfl
    rw [requirement_eq, hskips]
    cases m.guess.all fun g => g.holds ownPlatform <;> rfl

/-- The comparison of the platform with a given one. -/
def onPlatform (platform : Text) (closed : quotation false ∉ platform) : Comparison where
  subject := .sysPlatform
  operator := .sign .eq
  literal := ⟨false, platform, closed⟩

/-- A marker that is true on two platforms. -/
def onEither : Marker :=
  .either (.comparison (onPlatform "win32" (by decide))) (.comparison (onPlatform "linux" (by decide)))

/-- How it is written. -/
def onEitherText : Text := "sys_platform == 'win32' or sys_platform == 'linux'"

/-- An entry with this marker. -/
def entryOnEither : Data := .record [("version", .text "*"), ("markers", .text onEitherText)]

theorem spells_onEither : onEither.Spells onEitherText := by
  have htext : layOut ((onPlatform "win32" (by decide)).tokens ++
      .word .disjunction :: (onPlatform "linux" (by decide)).tokens) = onEitherText := by
    decide
  rw [← htext]
  exact Marker.spells_layOut (.either (.all (.unit (.comparison _))) (.unit (.comparison _)))

/-- On the second of the two platforms, which is this one, the entry is skipped. -/
theorem onEither_skipped :
    onEither.Spells onEitherText ∧ markerMatches onEitherText "linux" = false ∧
      (∀ w env, Environment.platform env = "linux" → onEither.eval w env = true) ∧
      requirement "pkg" entryOnEither = .ok [] := by
  refine ⟨spells_onEither, by decide, fun w env h => ?_, rfl⟩
  have htest : (onPlatform "linux" (by decide)).test? = some ⟨"linux", false⟩ := by decide
  show (_ || w.holds (onPlatform "linux" (by decide)) env.platform) = true
  rw [w.tests _ _ _ htest, h]
  simp [PlatformTest.holds]

theorem requirement_of_spells_onEither :
    onEither.Spells onEitherText ∧ (∀ p, markerMatches onEitherText p =
        PlatformTest.holds ⟨"win32", false⟩ (decidingPlatform p)) ∧
      (∀ w env, Environment.platform env = "darwin" → markerMatches onEitherText "darwin" = false →
        onEither.eval w env = false) ∧
      (¬ ∀ w env, Environment.platform env = "linux" → markerMatches onEitherText "linux" = false →
        onEither.eval w env = false) ∧
      requirement "pkg" entryOnEither = .ok [] := by
  obtain ⟨hguess, hright, hrequirement⟩ := requirement_of_spells spells_onEither
  have htaken : onEither.guess = some ⟨"win32", false⟩ := by decide
  refine ⟨spells_onEither, fun p => ?_, (hright "darwin").mpr (Or.inr (by decide)), fun h => ?_, ?_⟩
  · rw [hguess, htaken]
    rfl
  · rcases (hright "linux").mp h with h | h
    · exact absurd h (by decide)
    · exact absurd h (by decide)
  · rw [hrequirement "pkg" entryOnEither rfl, htaken]
    rfl

/-! ## What is handed to pip -/

/-- The condition of a requirement: what stands after the first semicolon of its line. -/
def conditionOf? (line : Text) : Option Text :=
  match line.dropWhile fun c => c ≠ (';' : CodePoint) with
  | [] => none
  | _ :: condition => some condition

/-- Pip takes the requirement of a line: it has no condition, or one that is true. -/
def Selects (w : Comparing) (env : Environment) (line : Text) : Prop :=
  ∀ t, conditionOf? line = some t → ∃ m, Marker.Spells m t ∧ m.eval w env = true

theorem selects_of_not_mem {w : Comparing} {env : Environment} (h : CodePoint.scalar ';' ∉ line) :
    Selects w env line := by
  intro t ht
  have hnil : line.dropWhile (fun c => c ≠ CodePoint.scalar ';') = [] := by
    rw [List.dropWhile_eq_nil_iff]
    exact fun c hc => decide_eq_true fun heq => h (heq ▸ hc)
  rw [conditionOf?, hnil] at ht
  cases ht

/-- The entry is by name: neither a repository nor a path nor an address is given. -/
structure ByName (entry : Data) : Prop where
  git : textOf? entry "git" = none
  path : textOf? entry "path" = none
  url : textOf? entry "url" = none

/-- An entry by name that is not skipped becomes its name, extras and version, whatever its marker is. If none
of these brings in a condition, pip takes it in all environments, so it takes it where the marker is true, and
only there, just if the marker is true throughout; as one that is a platform test is on this platform. -/
theorem requirement_of_kept (name : Text) (hname : ByName entry) (hmarkers : textOf? entry "markers" = some t)
    (hkept : markerMatches t = true) :
    requirement name entry = namedRequirement name (unmarked entry) ∧
    (∀ file dev lines, Pipfile.requirements file dev = .ok lines →
      (name, entry) ∈ (if dev then file.packages ++ file.devPackages else file.packages) →
      ∃ line, requirement name entry = .ok line ∧ (line ≠ [] → line ∈ lines)) ∧
    (∀ line, requirement name entry = .ok line → CodePoint.scalar ';' ∉ line →
      ∀ w m, Marker.Spells m t → ∀ E : Environment → Prop,
        (∀ env, E env → (Selects w env line ↔ m.eval w env = true)) ↔ ∀ env, E env → m.eval w env = true) ∧
    ∀ c g, Comparison.test? c = some g → (Marker.comparison c).Spells t →
      ∀ w env, Environment.platform env = ownPlatform → (Marker.comparison c).eval w env = true := by
  refine ⟨?_, fun file dev lines hlines hmem => ?_, fun line _ hline w m _ E => ?_, ?_⟩
  · have hskips : skips entry = false := by
      rw [skips, hmarkers]
      simp [hkept]
    rw [namedRequirement_unmarked]
    cases entry with
    | record ms =>
      rw [requirement_record, hskips, applied, hname.git, hname.path, hname.url]
      rfl
    | _ => cases hmarkers
  · exact exists_mem_requirementsOf hlines hmem
  · refine forall_congr' fun env => forall_congr' fun _ => ?_
    rw [iff_true_left (selects_of_not_mem hline)]
  · rintro c g htest hspells w env henv
    rw [← markerMatches_of_test? (p := []) htest hspells henv]
    exact hkept

/-- All comparisons are of texts, and none comes out with `~=`. -/
def Comparing.textual : Comparing where
  holds c s :=
    let left := if c.reversed then c.literal.content else s
    let right := if c.reversed then s else c.literal.content
    match c.operator with
    | .sign .eq | .sign .identical => left == right
    | .sign .ne => left != right
    | .sign .le => Text.le left right
    | .sign .lt => Text.le left right && left != right
    | .sign .ge => Text.le right left
    | .sign .gt => Text.le right left && left != right
    | .sign .compatible => false
    | .within => left.isInfixOf right
    | .notWithin => !left.isInfixOf right
  tests c g s h := by
    unfold Comparison.test? at h
    split at h
    next hall =>
      rw [hall.2.1]
      split at h
      next hoperator => cases h; simp [hoperator, PlatformTest.holds]
      next hoperator => cases h; simp [hoperator, PlatformTest.holds, bne]
      next => cases h
    next => cases h

/-- A package that is only for old interpreters. -/
def enum34 : Data := .record [("version", .text "*"), ("markers", .text "python_version < '3'")]

/-- Its marker. -/
def onOldPython : Marker := .comparison ⟨.pythonVersion, .sign .lt, ⟨false, "3", by decide⟩, false⟩

theorem spells_onOldPython : onOldPython.Spells "python_version < '3'" :=
  Marker.spells_layOut (.all (.unit (.comparison _)))

/-- An environment with a newer interpreter. -/
def newPython : Environment
  | .sysPlatform => "linux"
  | _ => "3.12"

/-- Pip is told to take it with a newer interpreter all the same. -/
theorem enum34_unconditional :
    requirement "enum34" enum34 = .ok "enum34" ∧ markerMatches "python_version < '3'" = true ∧
      onOldPython.Spells "python_version < '3'" ∧ onOldPython.eval .textual newPython = false ∧
      Selects .textual newPython "enum34" :=
  ⟨rfl, by decide, spells_onOldPython, by decide, selects_of_not_mem (by decide)⟩

theorem requirement_of_kept_enum34 :
    requirement "enum34" enum34 = namedRequirement "enum34" (unmarked enum34) ∧
      (∃ line, requirement "enum34" enum34 = .ok line ∧ (line ≠ [] → line ∈ [Text.ofString "enum34"])) ∧
      ¬ ∀ env, True → (Selects .textual env "enum34" ↔ onOldPython.eval .textual env = true) := by
  have hname : ByName enum34 := ⟨rfl, rfl, rfl⟩
  have hmarkers : textOf? enum34 "markers" = some "python_version < '3'" := rfl
  obtain ⟨hrequirement, hfile, hselects, _⟩ := requirement_of_kept "enum34" hname hmarkers (by decide)
  refine ⟨hrequirement, hfile ⟨[], [("enum34", enum34)], [], []⟩ false _ rfl List.mem_cons_self, fun h => ?_⟩
  have hthroughout := (hselects "enum34" rfl (by decide) .textual _ spells_onOldPython fun _ => True).mp h
  exact absurd (hthroughout newPython trivial) (by decide)

end ManifestGraph.Pipenv
