/-
  Asking the sources in turn until an answer has something to stop at (`StopsAt`), or until one of them
  raises (`RaisesAt`). A resolution of one project stops at the first finding of all
  (`firstFinding_of_stopsAt`), one that is to fail fast at the first finding with an error
  (`allFindings_of_stopsAt`). The journal tells what the resolution itself did on the way
  (`StopsAt.acts`).
-/
import ManifestGraph.Proofs.Resolution.Course

namespace ManifestGraph

/-! ## Acts of a resolution -/

/-- The event is an act of the resolution itself: a question to a source, to the converter or to the
fallback, or a message of its own. -/
def Event.isAct : Event → Bool
  | .consulted .. | .converted .. | .fellBack .. => true
  | .logged _ topic _ => topic = .resolution
  | _ => false

/-- What the resolution itself did, in order. -/
def Machine.acts (m : Machine) : List Event := m.journal.filter Event.isAct

theorem Machine.acts_noting {m : Machine} {e : Event} (h : e.isAct = true) :
    (m.noting e).acts = m.acts ++ [e] := by
  rw [acts, noting, List.filter_append, List.filter_cons_of_pos h, List.filter_nil]
  rfl

/-- The action leaves the acts of a resolution to the resolution. -/
def Run.Discreet {α : Type} (x : Run α) : Prop := ∀ m, (x m).2.acts = m.acts

theorem Run.discreet_pure {α : Type} (a : α) : (pure a : Run α).Discreet := fun _ => rfl

/-- The source leaves the acts of a resolution to the resolution. -/
def Source.Discreet (s : Source) : Prop := ∀ directory o, (s.find directory o).Discreet

namespace Resolution

variable {r : Resolution} {directory : Text} {o : SourceOptions} {s : Source} {sources asked : List Source}
  {f : Finding} {found findings : List Finding} {answers : List (List Finding)}
  {stop : List Finding → Option Finding} {m m' : Machine} {e : Failure}

/-- The question to a source. -/
def questionTo (directory : Text) (o : SourceOptions) (s : Source) : Event :=
  .consulted s.name directory o

theorem Answers.acts (hs : s.Discreet) (h : Answers directory o s m found m') :
    m'.acts = m.acts ++ [questionTo directory o s] := by
  have hfind := hs directory o (m.noting (questionTo directory o s))
  rw [questionTo, h, Machine.acts_noting rfl] at hfind
  exact hfind

theorem acts_of_inTurn (hs : ∀ s ∈ sources, s.Discreet)
    (h : InTurn (Answers directory o) sources m answers m') :
    m'.acts = m.acts ++ sources.map (questionTo directory o) := by
  induction h with
  | nil => rw [List.map_nil, List.append_nil]
  | cons head _ ih =>
    obtain ⟨hhead, htail⟩ := List.forall_mem_cons.mp hs
    rw [ih htail, head.acts hhead, List.map_cons, List.append_assoc]
    rfl

/-! ## Stopping at a finding -/

/-- The sources are asked in turn, up to the first one whose answer has a finding to stop at. -/
inductive StopsAt (directory : Text) (o : SourceOptions) (stop : List Finding → Option Finding) :
    List Source → Machine → List Source → Finding → Machine → Prop where
  | here {s : Source} {sources : List Source} {found : List Finding} {f : Finding} {m m' : Machine}
      (h : Answers directory o s m found m') (hstop : stop found = some f) :
      StopsAt directory o stop (s :: sources) m [s] f m'
  | later {s : Source} {sources asked : List Source} {found : List Finding} {f : Finding}
      {m m₁ m' : Machine} (h : Answers directory o s m found m₁) (hpass : stop found = none)
      (hrest : StopsAt directory o stop sources m₁ asked f m') :
      StopsAt directory o stop (s :: sources) m (s :: asked) f m'

/-- What the resolution does is to ask the sources up to the one that is stopped at. -/
theorem StopsAt.acts (h : StopsAt directory o stop sources m asked f m')
    (hs : ∀ s ∈ asked, s.Discreet) :
    m'.acts = m.acts ++ asked.map (questionTo directory o) := by
  induction h with
  | here h _ => exact h.acts (hs _ List.mem_cons_self)
  | later h _ _ ih =>
    obtain ⟨hhead, htail⟩ := List.forall_mem_cons.mp hs
    rw [ih htail, h.acts hhead, List.map_cons, List.append_assoc]
    rfl

/-- The finding stands in the answer of one of the sources. -/
theorem StopsAt.exists_answer (h : StopsAt directory o stop sources m asked f m') :
    ∃ s ∈ sources, ∃ m₁ found, Answers directory o s m₁ found m' ∧ stop found = some f := by
  induction h with
  | here h hstop => exact ⟨_, List.mem_cons_self, _, _, h, hstop⟩
  | later _ _ _ ih =>
    obtain ⟨s, hs, hanswer⟩ := ih
    exact ⟨s, List.mem_cons_of_mem _ hs, hanswer⟩

/-! ## A source that raises -/

/-- What a failed search of a source is told as. -/
def sourceFailure (s : Source) (raw : Failure) : Failure :=
  .caused (.resolution (.sourceFailed s.name raw.message)) raw

/-- A source fails with what its search failed with. -/
theorem ask_eq_error : ask s directory o m = (.error e, m') ↔
    ∃ raw, s.find directory o (m.noting (questionTo directory o s)) = (.error raw, m') ∧
      e = sourceFailure s raw := by
  rw [ask, Run.note_bind]
  exact Run.attempt_bind_eq_error (fun _ _ => rfl) fun _ _ => rfl

/-- The sources are asked in turn, up to the first one that raises; no answer before it was stopped at. -/
inductive RaisesAt (directory : Text) (o : SourceOptions) (stop : List Finding → Option Finding) :
    List Source → Machine → Source → Failure → Machine → Prop where
  | here {s : Source} {sources : List Source} {raw : Failure} {m m' : Machine}
      (h : s.find directory o (m.noting (questionTo directory o s)) = (.error raw, m')) :
      RaisesAt directory o stop (s :: sources) m s raw m'
  | later {s s' : Source} {sources : List Source} {found : List Finding} {raw : Failure}
      {m m₁ m' : Machine} (h : Answers directory o s m found m₁) (hpass : stop found = none)
      (hrest : RaisesAt directory o stop sources m₁ s' raw m') :
      RaisesAt directory o stop (s :: sources) m s' raw m'

/-- The question to one of the sources fails. -/
theorem RaisesAt.exists_ask {raw : Failure} (h : RaisesAt directory o stop sources m s raw m') :
    s ∈ sources ∧ ∃ m₁, ask s directory o m₁ = (.error (sourceFailure s raw), m') := by
  induction h with
  | here h => exact ⟨List.mem_cons_self, _, ask_eq_error.mpr ⟨_, h, rfl⟩⟩
  | later _ _ _ ih => exact ⟨List.mem_cons_of_mem _ ih.1, ih.2⟩

/-- One of the sources raises, or there is a finding to stop at, or all of them answer without one. -/
theorem asking_cases (directory : Text) (o : SourceOptions) (stop : List Finding → Option Finding)
    (sources : List Source) (m : Machine) :
    (∃ s raw m', RaisesAt directory o stop sources m s raw m') ∨
      (∃ asked f m', StopsAt directory o stop sources m asked f m') ∨
      ∃ answers m', InTurn (Answers directory o) sources m answers m' ∧
        ∀ found ∈ answers, stop found = none := by
  induction sources generalizing m with
  | nil => exact Or.inr (Or.inr ⟨[], m, .nil, List.forall_mem_nil _⟩)
  | cons s sources ih =>
    rcases hask : ask s directory o m with ⟨e | found, m₁⟩
    · obtain ⟨raw, hraw, _⟩ := ask_eq_error.mp hask
      exact Or.inl ⟨s, raw, m₁, .here hraw⟩
    have hanswers := ask_eq_ok.mp hask
    cases hstop : stop found with
    | some f => exact Or.inr (Or.inl ⟨[s], f, m₁, .here hanswers hstop⟩)
    | none =>
      rcases ih m₁ with ⟨s', raw, m', hraises⟩ | ⟨asked, f, m', hstops⟩ | ⟨answers, m', hturn, hpass⟩
      · exact Or.inl ⟨s', raw, m', .later hanswers hstop hraises⟩
      · exact Or.inr (Or.inl ⟨s :: asked, f, m', .later hanswers hstop hstops⟩)
      · exact Or.inr (Or.inr ⟨found :: answers, m', .cons hanswers hturn,
          List.forall_mem_cons.mpr ⟨hstop, hpass⟩⟩)

/-! ## The first finding -/

/-- What a run of one project goes on with. -/
def chosen (f : Finding) (m : Machine) : Except Failure (List Finding) × Machine :=
  match f.error with
  | some e => (.error (.caused (.resolution (.findingFailed f.lockFile e.message)) e), m)
  | none => (.ok [f], m)

theorem firstFinding_cons_of_nil (h : Answers directory o s m [] m') :
    firstFinding directory o (s :: sources) m = firstFinding directory o sources m' := by
  rw [firstFinding, Run.bind_eq, ask_eq_ok.mpr h]

theorem firstFinding_of_stopsAt (h : StopsAt directory o List.head? sources m asked f m') :
    firstFinding directory o sources m = chosen f m' := by
  induction h with
  | @here s sources found f m m' h hstop =>
    obtain ⟨rest, rfl⟩ := List.head?_eq_some_iff.mp hstop
    rw [firstFinding, Run.bind_eq, ask_eq_ok.mpr h, chosen]
    cases hf : f.error with
    | none => dsimp only; rw [hf]; rfl
    | some e => dsimp only; rw [hf]; rfl
  | later h hpass _ ih =>
    cases List.head?_eq_none_iff.mp hpass
    rw [firstFinding_cons_of_nil h, ih]

theorem firstFinding_of_nothing (h : InTurn (Answers directory o) sources m answers m')
    (hnothing : answers.flatten = []) : firstFinding directory o sources m = (.ok [], m') := by
  induction h with
  | nil => rfl
  | cons head _ ih =>
    obtain ⟨rfl, htail⟩ := List.append_eq_nil_iff.mp (List.flatten_cons ▸ hnothing)
    rw [firstFinding_cons_of_nil head, ih htail]

theorem firstFinding_of_raisesAt {raw : Failure}
    (h : RaisesAt directory o List.head? sources m s raw m') :
    firstFinding directory o sources m = (.error (sourceFailure s raw), m') := by
  induction h with
  | here h => rw [firstFinding, Run.bind_eq, ask_eq_error.mpr ⟨_, h, rfl⟩]
  | later h hpass _ ih =>
    cases List.head?_eq_none_iff.mp hpass
    rw [firstFinding_cons_of_nil h, ih]

/-- A source raises, or none of them finds anything, or there is a first finding. -/
theorem firstFinding_cases (directory : Text) (o : SourceOptions) (sources : List Source) (m : Machine) :
    (∃ s raw m', RaisesAt directory o List.head? sources m s raw m') ∨
      (∃ answers m', InTurn (Answers directory o) sources m answers m' ∧ answers.flatten = []) ∨
      ∃ asked f m', StopsAt directory o List.head? sources m asked f m' := by
  rcases asking_cases directory o List.head? sources m with hraises | hstops | ⟨answers, m', hturn, hpass⟩
  · exact Or.inl hraises
  · exact Or.inr (Or.inr hstops)
  · exact Or.inr (Or.inl ⟨answers, m', hturn, List.flatten_eq_nil_iff.mpr fun found hfound =>
      List.head?_eq_none_iff.mp (hpass found hfound)⟩)

/-! ## The first finding with an error -/

/-- The first of some findings that has an error. -/
def firstFailed (findings : List Finding) : Option Finding := findings.find? fun f => f.error.isSome

theorem firstFailed_eq_none : firstFailed findings = none ↔ ∀ f ∈ findings, f.error = none := by
  rw [firstFailed, List.find?_eq_none]
  exact forall₂_congr fun f _ => by
    rw [Bool.not_eq_true, Option.isSome_eq_false_iff, Option.isNone_iff_eq_none]

theorem stopAtError_of_firstFailed (h : firstFailed findings = some f) (he : f.error = some e) :
    stopAtError findings m = (.error (e.failFast f.lockFile), m) := by
  induction findings with
  | nil => cases h
  | cons g findings ih =>
    rw [firstFailed, List.find?_cons] at h
    rw [stopAtError]
    cases hg : g.error with
    | none =>
      rw [hg] at h
      exact ih h
    | some e' =>
      rw [hg] at h
      cases h
      cases he.symm.trans hg
      rfl

/-- An answer that is passed over leaves the rest to the other sources. -/
theorem allFindings_cons_of_passed {failFast : Bool} (h : Answers directory o s m found m')
    (hpass : failFast = true → ∀ f ∈ found, f.error = none) :
    allFindings directory o failFast (s :: sources) m =
      (allFindings directory o failFast sources >>= fun further => pure (found ++ further)) m' := by
  rw [allFindings_cons, Run.bind_eq, ask_eq_ok.mpr h]
  dsimp only
  rw [Run.bind_eq, (check_eq_ok (u := ⟨⟩)).mpr ⟨hpass, rfl⟩]

theorem allFindings_of_stopsAt (h : StopsAt directory o firstFailed sources m asked f m')
    (he : f.error = some e) :
    allFindings directory o true sources m = (.error (e.failFast f.lockFile), m') := by
  induction h with
  | here h hstop =>
    rw [allFindings_cons, Run.bind_eq, ask_eq_ok.mpr h]
    dsimp only
    rw [if_pos rfl, Run.bind_eq, stopAtError_of_firstFailed hstop he]
  | later h hpass _ ih =>
    rw [allFindings_cons_of_passed h fun _ => firstFailed_eq_none.mp hpass, Run.bind_eq, ih he]

theorem allFindings_of_raisesAt {failFast : Bool} {raw : Failure}
    (h : RaisesAt directory o stop sources m s raw m')
    (hpass : failFast = true → ∀ found, stop found = none → ∀ f ∈ found, f.error = none) :
    allFindings directory o failFast sources m = (.error (sourceFailure s raw), m') := by
  induction h with
  | here h => rw [allFindings_cons, Run.bind_eq, ask_eq_error.mpr ⟨_, h, rfl⟩]
  | later h hstop _ ih =>
    rw [allFindings_cons_of_passed h fun hfast => hpass hfast _ hstop, Run.bind_eq, ih]

/-! ## Nothing -/

/-- Nothing is collected exactly if every source answers with nothing. -/
theorem collect_eq_nil {o : ResolutionOptions} : r.collect directory o m = (.ok [], m') ↔
    ∃ answers, InTurn (Answers directory o.forSources) r.sources m answers m' ∧
      answers.flatten = [] := by
  unfold collect
  split
  next =>
    rw [allFindings_eq_ok]
    exact ⟨fun ⟨answers, hturn, hnone, _⟩ => ⟨answers, hturn, hnone.symm⟩,
      fun ⟨answers, hturn, hnone⟩ => ⟨answers, hturn, hnone.symm, fun _ => List.forall_mem_nil _⟩⟩
  next =>
    constructor
    · intro h
      rcases firstFinding_cases directory o.forSources r.sources m with
        ⟨_, _, _, hraises⟩ | ⟨answers, m₁, hturn, hnothing⟩ | ⟨asked, f, m₁, hstops⟩
      · cases (firstFinding_of_raisesAt hraises).symm.trans h
      · cases (firstFinding_of_nothing hturn hnothing).symm.trans h
        exact ⟨answers, hturn, hnothing⟩
      · rw [firstFinding_of_stopsAt hstops, chosen] at h
        split at h
        next => cases h
        next => cases h
    · rintro ⟨answers, hturn, hnothing⟩
      exact firstFinding_of_nothing hturn hnothing

end Resolution
end ManifestGraph
