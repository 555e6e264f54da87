/-
  Pipfiles stand alone, but for some faults. The files say what pip is asked for a Pipfile (`packagesOf`,
  `constraintsIn`), and the finding is told by them and by the attempt of pip that is next (`telling`). An
  attempt that fails and a Pipfile that is missing, malformed or without a lock file stop nothing. There are
  Pipfiles whose faults are not told as structured errors (`Escapes`), and attempts that are not
  (`Attempt.Ends`); one of them ends the run for all Pipfiles (`EndsRun`, `ok_find_iff`).
-/
import ManifestGraph.Proofs.Pip.Findings
import ManifestGraph.Proofs.Program.Footprint

namespace ManifestGraph.Pipenv

open Pip (Attempt isStructured)

variable {c : Pip.Client} {o : SourceOptions} {m m₁ m₂ : Machine} {runtime directory : Text}
  {file : FoundFile} {files : List FoundFile} {findings : List Finding} {reportExclusions dev : Bool}
  {fs : FileSystem} {packages constraints : List Text} {a : Attempt} {e : Failure} {room : Nat}

/-! ## What the files say -/

/-- The Pipfile at a path. -/
def Pipfile.readIn (fs : FileSystem) (p : Path) : Except Failure Pipfile :=
  match fs.read p with
  | .ok content => decode content
  | .error fault => .error (unreadable (.of (fault.reason p)))

/-- The lock file at a path. -/
def Lock.readIn (fs : FileSystem) (p : Path) : Except Failure Lock :=
  match fs.read p with
  | .ok content => decode content
  | .error fault => .error (unreadable (.of (fault.reason p)))

/-- The constraints of the lock file at a path; none if it cannot be read. -/
def constraintsIn (fs : FileSystem) (lockPath : Path) (dev : Bool) : List Text :=
  match Lock.readIn fs lockPath with
  | .ok lock => lock.constraints dev
  | .error _ => []

/-- The packages that pip is asked for. -/
def packagesOf (fs : FileSystem) (dev : Bool) (file : FoundFile) : Except Failure (List Text) := do
  let pipfile ← Pipfile.readIn fs file.path
  match ← fs.look (lockFileOf file.path) with
  | some _ => pipfile.requirements dev
  | none => .error (.of (unlocked (lockFileOf file.path)))

/-- How often pip is asked: not at all if there is nothing to ask for. -/
def asks : Except Failure (List Text) → Nat
  | .ok packages => if packages.isEmpty then 0 else 1
  | .error _ => 0

/-- The graph that an attempt gives for some packages; without packages none is needed. -/
def answer (c : Pip.Client) (packages constraints : List Text) (a : Attempt) :
    Except Failure DependencyGraph :=
  (if packages.isEmpty then .ok {} else a.report c packages constraints).map fun r => r.toGraph "pipenv"

/-- The same graph, if there is room for the walk. -/
def answerWithin (c : Pip.Client) (room : Nat) (packages constraints : List Text) (a : Attempt) :
    Except Failure DependencyGraph :=
  if packages.isEmpty then .ok (({} : Pip.Report).toGraph "pipenv")
  else a.graph c packages constraints room "pipenv"

/-- What comes of asking pip for some packages of a Pipfile after it was asked `n` times. -/
def attemptFor (c : Pip.Client) (m : Machine) (dev : Bool) (file : FoundFile) (packages : List Text)
    (n : Nat) : Attempt :=
  c.attemptAt m packages (constraintsIn m.files (lockFileOf file.path) dev) n

/-- What the files and the attempt after `n` others give for a Pipfile. -/
def outcomeOf (c : Pip.Client) (m : Machine) (dev : Bool) (file : FoundFile) (n : Nat) :
    Except Failure DependencyGraph :=
  packagesOf m.files dev file >>= fun packages =>
    answerWithin c m.callDepth packages (constraintsIn m.files (lockFileOf file.path) dev)
      (attemptFor c m dev file packages n)

/-- The files are as they were, and pip was asked so many times. -/
structure Uses (c : Pip.Client) (k : Nat) (m m' : Machine) : Prop extends c.Asked k m m' where
  files : m'.files = m.files

theorem Uses.refl (m : Machine) : Uses c 0 m m := ⟨.refl m, rfl⟩

theorem Uses.noting {k : Nat} (h : Uses c k m m₁) (event : Event) : Uses c k m (m₁.noting event) :=
  ⟨h.toAsked.noting event, h.files⟩

theorem Uses.trans {k k' : Nat} (h : Uses c k m m₁) (h' : Uses c k' m₁ m₂) : Uses c (k' + k) m m₂ :=
  ⟨h.toAsked.trans h'.toAsked, h'.files.trans h.files⟩

/-- How often pip was asked before the Pipfile at a place. -/
def askedBefore (fs : FileSystem) (dev : Bool) (files : List FoundFile) (n : Nat) : Nat :=
  ((files.take n).map fun file => asks (packagesOf fs dev file)).sum

/-- What is told of each Pipfile, with the attempt that is its own. -/
def tellings (c : Pip.Client) (reportExclusions : Bool) (runtime : Text) (o : SourceOptions)
    (files : List FoundFile) (m : Machine) : List (Except Failure Finding) :=
  files.mapIdx fun n file => (pipfiles c reportExclusions).telling runtime file
    (outcomeOf c m o.dev file (askedBefore m.files o.dev files n))

/-- The fault of a document is not told as unprocessable: it is not UTF-8, holds a numeral that is too long,
or is nested too deep. -/
def isPassedOn : Toml.Fault → Bool
  | .encoding | .longNumeral | .tooDeep => true
  | .malformed | .impossibleDate _ => false

/-- The Pipfile has a fault that is not told as a structured error. -/
inductive Escapes (fs : FileSystem) (dev : Bool) (file : FoundFile) : Prop
  | content {content : Bytes} {fault : Toml.Fault} (hread : fs.read file.path = .ok content)
      (hrefused : Toml.read content = .error fault) (hfault : isPassedOn fault = true)
  /-- The path of its lock file is too long. -/
  | lockPath {pipfile : Pipfile} {e : Failure} (hread : Pipfile.readIn fs file.path = .ok pipfile)
      (hlook : fs.look (lockFileOf file.path) = .error e)
  /-- The extras of a package hold a number that is too long to be shown. -/
  | extras {pipfile : Pipfile} {t : FileTree} {e : Failure}
      (hread : Pipfile.readIn fs file.path = .ok pipfile)
      (hlook : fs.look (lockFileOf file.path) = .ok (some t)) (hshown : pipfile.requirements dev = .error e)

theorem isStructured_decode {content : Bytes} (h : Pipfile.decode content = .error e) :
    isStructured e = false ↔ ∃ fault, Toml.read content = .error fault ∧ isPassedOn fault = true := by
  unfold Pipfile.decode at h
  cases hread : Toml.read content with
  | error fault =>
    have hexists : (∃ fault', Except.error fault = (.error fault' : Except Toml.Fault Members) ∧
        isPassedOn fault' = true) ↔ isPassedOn fault = true :=
      ⟨fun ⟨_, h, hpassed⟩ => Except.error.inj h ▸ hpassed, fun hpassed => ⟨fault, rfl, hpassed⟩⟩
    rw [hread] at h
    rw [hexists]
    cases fault with
    | encoding => cases h; exact iff_of_true rfl rfl
    | longNumeral => cases h; exact iff_of_true rfl rfl
    | tooDeep => cases h; exact iff_of_true rfl rfl
    | malformed => cases h; exact iff_of_false Bool.noConfusion Bool.noConfusion
    | impossibleDate why => cases h; exact iff_of_false Bool.noConfusion Bool.noConfusion
  | ok ms =>
    rw [hread] at h
    have hnone : ¬ ∃ fault, (Except.ok ms : Except Toml.Fault Members) = .error fault ∧
        isPassedOn fault = true := fun ⟨_, h, _⟩ => nomatch h
    refine iff_of_false ?_ hnone
    dsimp only at h
    split at h
    next => cases h
    next => cases h; exact Bool.noConfusion

/-- Pip can be asked for the packages of the Pipfile. -/
structure Usable (fs : FileSystem) (dev : Bool) (file : FoundFile) (packages : List Text) : Prop where
  read : ∃ pipfile, Pipfile.readIn fs file.path = .ok pipfile ∧ pipfile.requirements dev = .ok packages
  locked : ∃ t, fs.look (lockFileOf file.path) = .ok (some t)

/-- The Pipfile cannot be read or is not one, or it has no lock file. -/
def Unusable (fs : FileSystem) (file : FoundFile) : Prop :=
  (∃ e, Pipfile.readIn fs file.path = .error e) ∨
    (∃ pipfile, Pipfile.readIn fs file.path = .ok pipfile) ∧ fs.look (lockFileOf file.path) = .ok none

theorem packagesOf_eq_ok : packagesOf fs dev file = .ok packages ↔ Usable fs dev file packages := by
  constructor
  · intro h
    obtain ⟨pipfile, hread, h⟩ := Except.bind_eq_ok.mp h
    obtain ⟨found, hlook, h⟩ := Except.bind_eq_ok.mp h
    cases found with
    | none => cases h
    | some t => exact ⟨⟨pipfile, hread, h⟩, t, hlook⟩
  · rintro ⟨⟨pipfile, hread, hpackages⟩, t, hlook⟩
    exact Except.bind_eq_ok.mpr ⟨pipfile, hread, Except.bind_eq_ok.mpr ⟨some t, hlook, hpackages⟩⟩

theorem packagesOf_eq_error : packagesOf fs dev file = .error e ↔
    Pipfile.readIn fs file.path = .error e ∨ ∃ pipfile, Pipfile.readIn fs file.path = .ok pipfile ∧
      (fs.look (lockFileOf file.path) = .error e ∨
        fs.look (lockFileOf file.path) = .ok none ∧ e = .of (unlocked (lockFileOf file.path)) ∨
        ∃ t, fs.look (lockFileOf file.path) = .ok (some t) ∧ pipfile.requirements dev = .error e) := by
  rw [packagesOf, Except.bind_eq_error]
  refine or_congr_right (exists_congr fun pipfile => and_congr_right fun _ => ?_)
  rw [Except.bind_eq_error]
  refine or_congr_right ?_
  constructor
  · rintro ⟨found, hlook, h⟩
    cases found with
    | none => cases h; exact Or.inl ⟨hlook, rfl⟩
    | some t => exact Or.inr ⟨t, hlook, h⟩
  · rintro (⟨hlook, rfl⟩ | ⟨t, hlook, h⟩)
    · exact ⟨none, hlook, rfl⟩
    · exact ⟨some t, hlook, h⟩

theorem Unusable.packagesOf_eq (h : Unusable fs file) (dev : Bool) :
    ∃ e, packagesOf fs dev file = .error e := by
  rcases h with ⟨e, hread⟩ | ⟨⟨pipfile, hread⟩, hlook⟩
  · exact ⟨e, packagesOf_eq_error.mpr (Or.inl hread)⟩
  · exact ⟨_, packagesOf_eq_error.mpr (Or.inr ⟨pipfile, hread, Or.inr (Or.inl ⟨hlook, rfl⟩)⟩)⟩

theorem not_isStructured_look {p : Path} (h : fs.look p = .error e) : isStructured e = false := by
  unfold FileSystem.look at h
  split at h
  next => cases h
  next fault hfault =>
    cases h
    obtain ⟨kind, message, hforeign⟩ := Run.isForeign_reason p fault
    rw [hforeign]
    rfl

/-- The Pipfiles that end the run are those for which it is unknown what to ask, without a structured error. -/
theorem escapes_iff :
    Escapes fs dev file ↔ ∃ e, packagesOf fs dev file = .error e ∧ isStructured e = false := by
  constructor
  · intro h
    cases h with
    | @content content fault hread hrefused hfault =>
      cases hdecode : Pipfile.decode content with
      | ok pipfile =>
        unfold Pipfile.decode at hdecode
        rw [hrefused] at hdecode
        cases fault <;> cases hdecode
      | error e =>
        have hreadIn : Pipfile.readIn fs file.path = .error e := by rw [Pipfile.readIn, hread]; exact hdecode
        exact ⟨e, packagesOf_eq_error.mpr (Or.inl hreadIn),
          (isStructured_decode hdecode).mpr ⟨fault, hrefused, hfault⟩⟩
    | @lockPath pipfile e hread hlook =>
      exact ⟨e, packagesOf_eq_error.mpr (Or.inr ⟨pipfile, hread, Or.inl hlook⟩), not_isStructured_look hlook⟩
    | @extras pipfile t e hread hlook hshown =>
      refine ⟨e, packagesOf_eq_error.mpr (Or.inr ⟨pipfile, hread, Or.inr (Or.inr ⟨t, hlook, hshown⟩)⟩), ?_⟩
      rw [eq_unshowable_of_requirements hshown]
      rfl
  · rintro ⟨e, h, hunstructured⟩
    rcases packagesOf_eq_error.mp h with h | ⟨pipfile, hread, hlook | ⟨_, rfl⟩ | ⟨t, hlook, hshown⟩⟩
    · -- a Pipfile that is not there, or not a file, is told as unprocessable
      unfold Pipfile.readIn at h
      split at h
      next content hread =>
        obtain ⟨fault, hrefused, hfault⟩ := (isStructured_decode h).mp hunstructured
        exact .content hread hrefused hfault
      next => cases h; cases hunstructured
    · exact .lockPath hread hlook
    · cases hunstructured
    · exact .extras hread hlook hshown

/-- A Pipfile ends the run for all of them: it has such a fault, or pip is asked for its packages and the
attempt after `n` others has one. -/
inductive EndsRun (c : Pip.Client) (m : Machine) (dev : Bool) (file : FoundFile) (n : Nat) : Prop
  | escapes (h : Escapes m.files dev file)
  | asking {packages : List Text} (husable : Usable m.files dev file packages) (hne : packages ≠ [])
      (hends : (attemptFor c m dev file packages n).Ends m.callDepth "pipenv")

theorem outcomeOf_of_packages (h : packagesOf m.files dev file = .ok packages) (n : Nat) :
    outcomeOf c m dev file n =
      answerWithin c m.callDepth packages (constraintsIn m.files (lockFileOf file.path) dev)
        (attemptFor c m dev file packages n) := by
  rw [outcomeOf, h]
  rfl

theorem telling_of_error {n : Nat} (h : packagesOf m.files dev file = .error e) :
    (pipfiles c reportExclusions).telling runtime file (outcomeOf c m dev file n) =
      if isStructured e then .ok ((pipfiles c reportExclusions).failed file runtime e) else .error e := by
  rw [outcomeOf, h]
  rfl

/-- Of a Pipfile that ends the run nothing is told. -/
theorem EndsRun.telling_eq {n : Nat} (h : EndsRun c m dev file n) (reportExclusions : Bool) (runtime : Text) :
    ∃ e, (pipfiles c reportExclusions).telling runtime file (outcomeOf c m dev file n) = .error e := by
  cases h with
  | escapes h =>
    obtain ⟨e, he, hunstructured⟩ := escapes_iff.mp h
    refine ⟨e, (telling_of_error he).trans (if_neg ?_)⟩
    rw [hunstructured]
    exact Bool.false_ne_true
  | @asking packages husable hne hends =>
    obtain ⟨e, hgraph, hunstructured⟩ := hends.graph_eq c packages
      (constraintsIn m.files (lockFileOf file.path) dev)
    have hempty : ¬ packages.isEmpty = true := fun h => hne (List.isEmpty_iff.mp h)
    refine ⟨e, ?_⟩
    rw [outcomeOf_of_packages (packagesOf_eq_ok.mpr husable), answerWithin, if_neg hempty, hgraph]
    exact if_neg (by rw [hunstructured]; exact Bool.false_ne_true)

/-- A document that is no TOML. -/
def malformed : Bytes := Bytes.ofText "["

/-- A document that is not UTF-8. -/
def undecodable : Bytes := [0xff]

end ManifestGraph.Pipenv
