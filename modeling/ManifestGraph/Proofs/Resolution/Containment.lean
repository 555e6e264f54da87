/-
  What leaves a resolution. If a source, the converter or the fallback raises (`RaisesFirst`), or a finding
  with an error ends the resolution (`EndsAt`), it fails with a failure of its own that is caused by what was
  raised or by that error, and no one else is asked (`run_failures_contained`). The exception is a fallback
  that only raises for want of projects where there are some already.

  One failure that leaves it is not its own: that to write a graph that holds half of a surrogate pair
  (`FailsToWrite`), which a source or the converter may give (`run_halfGraph`). What is raised is an error
  whose causes are errors again (`Failure`); nothing is said of one with another cause.
-/
import ManifestGraph.Proofs.Machine.Footprint
import ManifestGraph.Proofs.Resolution.Accounts
import ManifestGraph.Proofs.Resolution.Asking
import ManifestGraph.Proofs.Resolution.Breakdown

namespace ManifestGraph

/-- A failure that the resolution states itself and that the other one is the direct cause of. -/
def Failure.Causes (cause e : Failure) : Prop :=
  ∃ reason : Reason, reason.isOwn = true ∧ e = .caused reason cause

theorem Failure.Causes.isOwn {cause e : Failure} (h : cause.Causes e) : e.fault.reason.isOwn = true := by
  obtain ⟨reason, hown, rfl⟩ := h
  exact hown

namespace Resolution

variable {r : Resolution} {directory : Text} {o : ResolutionOptions} {m m' m₁ m₂ : Machine} {s : Source}
  {asked sources : List Source} {f : Finding} {findings : List Finding} {reason : Reason}
  {answers : List (List Finding)} {raw cause e : Failure}

/-! ## Where the collecting of findings ends -/

/-- The finding in an answer that a resolution goes no further than: the first one if one project is asked
for, and else, if it is to fail fast, the first one with an error. -/
def lastOf (o : ResolutionOptions) : List Finding → Option Finding :=
  if o.allProjects then if o.failFast then firstFailed else fun _ => none else List.head?

/-- What the error of a finding is told as. -/
def findingFailure (o : ResolutionOptions) (f : Finding) (cause : Failure) : Failure :=
  if o.allProjects then cause.failFast f.lockFile
  else .caused (.resolution (.findingFailed f.lockFile cause.message)) cause

theorem causes_findingFailure (o : ResolutionOptions) (f : Finding) (cause : Failure) :
    cause.Causes (findingFailure o f cause) := by
  rw [findingFailure]
  split
  next => exact ⟨_, rfl, rfl⟩
  next => exact ⟨_, rfl, rfl⟩

/-- The finding with an error that the resolution ends at. -/
def EndsAt (r : Resolution) (directory : Text) (o : ResolutionOptions) (m : Machine) (f : Finding)
    (cause : Failure) (m' : Machine) : Prop :=
  (∃ asked, StopsAt directory o.forSources (lastOf o) r.sources m asked f m') ∧ f.error = some cause

theorem collect_of_raisesAt (h : RaisesAt directory o.forSources (lastOf o) r.sources m s raw m') :
    r.collect directory o m = (.error (sourceFailure s raw), m') := by
  unfold collect
  unfold lastOf at h
  split
  next hall =>
    rw [if_pos hall] at h
    refine allFindings_of_raisesAt h fun hfast found hpass => ?_
    rw [if_pos hfast] at hpass
    exact firstFailed_eq_none.mp hpass
  next hsingle =>
    rw [if_neg hsingle] at h
    exact firstFinding_of_raisesAt h

theorem collect_of_endsAt (h : r.EndsAt directory o m f cause m') :
    r.collect directory o m = (.error (findingFailure o f cause), m') := by
  obtain ⟨⟨asked, hstops⟩, hf⟩ := h
  unfold collect findingFailure
  unfold lastOf at hstops
  by_cases hall : o.allProjects = true
  · rw [if_pos hall] at hstops ⊢
    rw [if_pos hall]
    cases hfast : o.failFast with
    | true =>
      rw [if_pos hfast] at hstops
      exact allFindings_of_stopsAt hstops hf
    | false =>
      rw [hfast, if_neg Bool.false_ne_true] at hstops
      obtain ⟨_, _, _, _, _, hnone⟩ := hstops.exists_answer
      cases hnone
  · rw [if_neg hall] at hstops ⊢
    rw [if_neg hall, firstFinding_of_stopsAt hstops, chosen, hf]

/-- The one project that is asked for is collected if it has no error. -/
theorem collect_of_stopsAt (h : StopsAt directory o.forSources (lastOf o) r.sources m asked f m')
    (hf : f.error = none) : r.collect directory o m = (.ok [f], m') := by
  unfold collect
  unfold lastOf at h
  by_cases hall : o.allProjects = true
  · rw [if_pos hall] at h
    obtain ⟨_, _, _, found, _, hstop⟩ := h.exists_answer
    -- among all projects only a finding with an error is one to stop at
    split at hstop
    next =>
      have hfailed := List.find?_some hstop
      rw [hf] at hfailed
      cases hfailed
    next => cases hstop
  · rw [if_neg hall] at h ⊢
    rw [firstFinding_of_stopsAt h, chosen, hf]

theorem collect_of_passed (h : InTurn (Answers directory o.forSources) r.sources m answers m')
    (hpass : ∀ found ∈ answers, lastOf o found = none) :
    r.collect directory o m = (.ok answers.flatten, m') := by
  unfold collect
  unfold lastOf at hpass
  split
  next hall =>
    refine allFindings_eq_ok.mpr ⟨answers, h, rfl, fun hfast f hf => ?_⟩
    obtain ⟨found, hfound, hf⟩ := List.mem_flatten.mp hf
    have hnone := hpass found hfound
    rw [if_pos hall, if_pos hfast] at hnone
    exact firstFailed_eq_none.mp hnone f hf
  next hsingle =>
    rw [if_neg hsingle] at hpass
    have hnothing : answers.flatten = [] := List.flatten_eq_nil_iff.mpr fun found hfound =>
      List.head?_eq_none_iff.mp (hpass found hfound)
    rw [hnothing]
    exact firstFinding_of_nothing h hnothing

/-- The findings cannot be collected only if a source raises or one of them ends the resolution. -/
theorem collect_eq_error (h : r.collect directory o m = (.error e, m')) :
    (∃ s raw, RaisesAt directory o.forSources (lastOf o) r.sources m s raw m' ∧ e = sourceFailure s raw) ∨
      ∃ f cause, r.EndsAt directory o m f cause m' ∧ e = findingFailure o f cause := by
  rcases asking_cases directory o.forSources (lastOf o) r.sources m with
    ⟨s, raw, m₁, hraises⟩ | ⟨asked, f, m₁, hstops⟩ | ⟨answers, m₁, hturn, hpass⟩
  · cases (collect_of_raisesAt hraises).symm.trans h
    exact Or.inl ⟨s, raw, hraises, rfl⟩
  · cases hf : f.error with
    | some cause =>
      have hends : r.EndsAt directory o m f cause m₁ := ⟨⟨asked, hstops⟩, hf⟩
      cases (collect_of_endsAt hends).symm.trans h
      exact Or.inr ⟨f, cause, hends, rfl⟩
    | none => cases (collect_of_stopsAt hstops hf).symm.trans h
  · cases (collect_of_passed hturn hpass).symm.trans h

/-! ## Where the making of graphs ends -/

theorem Graphless.isOwn (h : r.Graphless f reason) : reason.isOwn = true := by
  cases h with
  | empty => rfl
  | unconverted => rfl

/-- The graphs of a finding are not made only if the converter raises or there are none to be had. -/
theorem graphsOf_eq_error (h : r.graphsOf f m = (.error e, m')) :
    (∃ raw, r.ConverterRaises f m raw m' ∧ e = conversionFailure raw) ∨
      ∃ reason, r.Graphless f reason ∧ e = .of reason := by
  rcases r.graphsOf_cases f m with ⟨graphs, m₁, hgives⟩ | ⟨raw, m₁, hraises⟩ | ⟨reason, hless⟩
  · cases (graphsOf_of_gives hgives).symm.trans h
  · cases (graphsOf_of_converterRaises hraises).symm.trans h
    exact Or.inl ⟨raw, hraises, rfl⟩
  · cases (graphsOf_of_graphless hless).symm.trans h
    exact Or.inr ⟨reason, hless, rfl⟩

/-- Of some findings the graphs are not made if those of one are not, after those of the ones before. -/
theorem resolved_eq_error : r.resolved findings m = (.error e, m') ↔
    ∃ before f after graphs m₁, sound findings = before ++ f :: after ∧
      InTurn r.Gives before m graphs m₁ ∧ r.graphsOf f m₁ = (.error e, m') := by
  induction findings generalizing m with
  | nil =>
    constructor
    · intro h; cases h
    · rintro ⟨before, f, after, _, _, hsound, _⟩
      cases (List.append_eq_nil_iff.mp hsound.symm).2
  | cons f findings ih =>
    rw [resolved]
    cases hf : f.error with
    | some cause =>
      -- a finding with an error is passed over, so the split is that of the findings after it
      rw [sound_cons_of_error hf]
      exact ih
    | none =>
      rw [sound_cons_of_none hf]
      dsimp only
      constructor
      · intro h
        rcases Run.bind_eq_error.mp h with h | ⟨here, m₁, hhere, h⟩
        · exact ⟨[], f, sound findings, [], m, rfl, .nil, h⟩
        rcases Run.bind_eq_error.mp h with h | ⟨_, _, _, h⟩
        · obtain ⟨before, f', after, graphs, m₂, hrest, hbefore, hfails⟩ := ih.mp h
          exact ⟨f :: before, f', after, here :: graphs, m₂, by rw [hrest]; rfl,
            .cons (graphsOf_eq_ok.mp hhere) hbefore, hfails⟩
        · cases h
      · rintro ⟨before, f', after, graphs, m₂, hrest, hbefore, hfails⟩
        cases hbefore with
        | nil =>
          obtain ⟨rfl, rfl⟩ := List.cons.inj hrest
          exact Run.bind_eq_error.mpr (Or.inl hfails)
        | cons head tail =>
          obtain ⟨rfl, hsounds⟩ := List.cons.inj hrest
          refine Run.bind_eq_error.mpr (Or.inr ⟨_, _, graphsOf_eq_ok.mpr head, ?_⟩)
          exact Run.bind_eq_error.mpr (Or.inl (ih.mpr ⟨_, f', after, _, _, hsounds, tail, hfails⟩))

/-! ## The first collaborator that raises -/

/-- Whom a resolution asks: a source, the converter for a finding, or the fallback after some findings. -/
inductive Collaborator where
  | source (s : Source)
  | converter (f : Finding)
  | fallback (findings : List Finding)

/-- What the resolution makes of what a collaborator raised. -/
def Collaborator.told (raw : Failure) : Collaborator → Failure
  | .source s => sourceFailure s raw
  | .converter _ => conversionFailure raw
  | .fallback _ => fallbackFailure raw

theorem Collaborator.causes_told (raw : Failure) (who : Collaborator) : raw.Causes (who.told raw) := by
  cases who with
  | source s => exact ⟨_, rfl, rfl⟩
  | converter f => exact ⟨_, rfl, rfl⟩
  | fallback findings => exact ⟨_, by cases raw.meansNoProjects <;> rfl, rfl⟩

/-- The collaborators are asked in turn and answer, up to the first one that raises. -/
inductive RaisesFirst (r : Resolution) (directory : Text) (o : ResolutionOptions) (m : Machine) :
    Collaborator → Failure → Machine → Prop where
  | source {s : Source} {raw : Failure} {m' : Machine}
      (h : RaisesAt directory o.forSources (lastOf o) r.sources m s raw m') :
      RaisesFirst r directory o m (.source s) raw m'
  | converter {findings before after : List Finding} {f : Finding} {graphs : List (List DependencyGraph)}
      {m₁ m₂ : Machine} {raw : Failure} {m' : Machine}
      (hcollect : r.collect directory o m = (.ok findings, m₁))
      (hfindings : sound findings = before ++ f :: after) (hbefore : InTurn r.Gives before m₁ graphs m₂)
      (h : r.ConverterRaises f m₂ raw m') : RaisesFirst r directory o m (.converter f) raw m'
  | fallback {findings : List Finding} {m₁ : Machine} {projects : List ResolvedProject} {m₂ : Machine}
      {raw : Failure} {m' : Machine} (hcollect : r.collect directory o m = (.ok findings, m₁))
      (hresolved : r.resolved findings m₁ = (.ok projects, m₂))
      (hwritable : unwritable? projects o = none) (hasked : findings = [] ∨ o.allProjects = true)
      (h : r.fallback directory (forFallback o findings)
        (m₂.noting (.fellBack directory (forFallback o findings))) = (.error raw, m')) :
      RaisesFirst r directory o m (.fallback findings) raw m'

/-- What was raised is no failure of the resolution: it is the fallback that found nothing, where there is
something already. -/
def Collaborator.Spared (raw : Failure) (who : Collaborator) : Prop :=
  ∃ findings, who = .fallback findings ∧ findings ≠ [] ∧ raw.meansNoProjects = true

variable {who : Collaborator}

theorem run_of_raisesFirst (horg : r.organization ≠ []) (h : r.RaisesFirst directory o m who raw m')
    (hspared : ¬ who.Spared raw) : r.run directory o m = (.error (who.told raw), m') := by
  refine (run_eq_error horg).mpr ?_
  cases h with
  | source h => exact .collecting (collect_of_raisesAt h)
  | converter hcollect hfindings hbefore h =>
    refine .resolving hcollect (resolved_eq_error.mpr ?_)
    exact ⟨_, _, _, _, _, hfindings, hbefore, graphsOf_of_converterRaises h⟩
  | fallback hcollect hresolved hwritable hasked h =>
    refine .fallingBack hcollect hresolved hwritable hasked (.failed h fun hcode => ?_)
    exact not_not.mp fun hfound => hspared ⟨_, rfl, hfound, hcode⟩

/-- After a fallback that found nothing more, the resolution only has messages of its own to write. -/
theorem run_of_spared (horg : r.organization ≠ []) (h : r.RaisesFirst directory o m who raw m')
    (hspared : who.Spared raw) :
    ∃ outputs m₁, r.run directory o m = (.ok outputs, m₁) ∧ m'.Follows Event.isLogged m₁ := by
  obtain ⟨findings, rfl, hfound, hcode⟩ := hspared
  cases h with
  | fallback hcollect hresolved hwritable hasked h =>
    refine ⟨_, _, run_eq_ok.mpr ⟨horg, _, _, _, _, _, _, hcollect, hresolved, hwritable,
      .asked hasked (.nothing h hcode hfound), rfl, rfl⟩, ?_⟩
    rw [reported]
    split
    next => exact .noting rfl
    next => exact .trans (.noting rfl) (.noting rfl)

theorem run_of_endsAt (horg : r.organization ≠ []) (h : r.EndsAt directory o m f cause m') :
    r.run directory o m = (.error (findingFailure o f cause), m') :=
  (run_eq_error horg).mpr (.collecting (collect_of_endsAt h))

/-- The graphs of the findings are there, but one that is an output of its own cannot be written. -/
def FailsToWrite (r : Resolution) (directory : Text) (o : ResolutionOptions) (m : Machine)
    (g : DependencyGraph) (m' : Machine) : Prop :=
  ∃ findings m₁ projects, r.collect directory o m = (.ok findings, m₁) ∧
    r.resolved findings m₁ = (.ok projects, m') ∧ unwritable? projects o = some g

variable {g : DependencyGraph}

theorem FailsToWrite.not_isScalar (h : r.FailsToWrite directory o m g m') : ¬ g.IsScalar := by
  obtain ⟨_, _, _, _, _, hunwritable⟩ := h
  exact (not_isScalar_of_unwritable? hunwritable).2.2

theorem run_of_failsToWrite (horg : r.organization ≠ []) (h : r.FailsToWrite directory o m g m') :
    r.run directory o m = (.error g.unwritten, m') := by
  obtain ⟨_, _, _, hcollect, hresolved, hunwritable⟩ := h
  exact (run_eq_error horg).mpr (.writing hcollect hresolved hunwritable)

/-- A resolution fails for what a collaborator raised, or for a finding that it ends at, or for one that no
graph is to be had of, or for a graph that cannot be written. -/
theorem exists_cause_of_run (horg : r.organization ≠ []) (h : r.run directory o m = (.error e, m')) :
    (∃ who raw, r.RaisesFirst directory o m who raw m' ∧ ¬ who.Spared raw ∧ e = who.told raw) ∨
      (∃ f cause, r.EndsAt directory o m f cause m' ∧ e = findingFailure o f cause) ∨
      (∃ f reason, r.Graphless f reason ∧ e = .of reason) ∨
      ∃ g, r.FailsToWrite directory o m g m' ∧ e = g.unwritten := by
  -- a resolution ends well after a fallback that is spared, so nobody was spared in this one
  have hspared : ∀ {who raw}, who.Spared raw → ¬ r.RaisesFirst directory o m who raw m' := by
    intro who raw hspared hraises
    obtain ⟨_, _, hok, _⟩ := run_of_spared horg hraises hspared
    cases hok.symm.trans h
  cases (run_eq_error horg).mp h with
  | collecting hfails =>
    rcases collect_eq_error hfails with ⟨s, raw, hraises, rfl⟩ | hends
    · exact Or.inl ⟨.source s, raw, .source hraises, fun hs => hspared hs (.source hraises), rfl⟩
    · exact Or.inr (Or.inl hends)
  | resolving hcollect hfails =>
    obtain ⟨_, f, _, _, _, hfindings, hbefore, hfails⟩ := resolved_eq_error.mp hfails
    rcases graphsOf_eq_error hfails with ⟨raw, hraises, rfl⟩ | hless
    · have hfirst := RaisesFirst.converter hcollect hfindings hbefore hraises
      exact Or.inl ⟨.converter f, raw, hfirst, fun hs => hspared hs hfirst, rfl⟩
    · exact Or.inr (Or.inr (Or.inl ⟨f, hless⟩))
  | writing hcollect hresolved hunwritable =>
    exact Or.inr (Or.inr (Or.inr ⟨_, ⟨_, _, _, hcollect, hresolved, hunwritable⟩, rfl⟩))
  | fallingBack hcollect hresolved hwritable hasked hfails =>
    obtain ⟨hraised, _⟩ := hfails
    have hfirst := RaisesFirst.fallback hcollect hresolved hwritable hasked hraised
    exact Or.inl ⟨_, _, hfirst, fun hs => hspared hs hfirst, rfl⟩

/-- What was raised, or the error of the finding, is then a cause of the failure. -/
theorem causes_of_run (horg : r.organization ≠ []) (h : r.run directory o m = (.error e, m')) :
    (∃ who raw, r.RaisesFirst directory o m who raw m' ∧ raw.Causes e) ∨
      (∃ f cause, r.EndsAt directory o m f cause m' ∧ cause.Causes e) ∨
      (∃ f reason, r.Graphless f reason ∧ e = .of reason) ∨
      ∃ g, r.FailsToWrite directory o m g m' ∧ e = g.unwritten := by
  rcases exists_cause_of_run horg h with ⟨who, raw, hraises, _, rfl⟩ | ⟨f, cause, hends, rfl⟩ | hrest
  · exact Or.inl ⟨who, raw, hraises, Collaborator.causes_told raw who⟩
  · exact Or.inr (Or.inl ⟨f, cause, hends, causes_findingFailure o f cause⟩)
  · exact Or.inr (Or.inr hrest)

/-! ## Containment -/

/-- Without an organization nobody is asked. Otherwise, if a collaborator raises, the resolution fails with
a failure of its own that this caused, and leaves the machine as the collaborator did; the fallback is spared if
it raises for want of projects where there are some already, and only messages follow. If a finding with an
error ends the resolution, its failure is caused by that error, and the machine is as the source left it. If
a graph cannot be written, the resolution fails with what the writing fails with, which is not its own. There
are no other failures, but for findings that no graph is to be had of; so whatever else the resolution fails
with is its own. -/
theorem run_failures_contained (r : Resolution) (directory : Text) (o : ResolutionOptions) (m : Machine) :
    (r.organization = [] → r.run directory o m =
      (.error Failure.withoutOrganization,
        m.noting (.logged .error .failures "failed to determine org id"))) ∧
    (r.organization ≠ [] →
      (∀ who raw m', r.RaisesFirst directory o m who raw m' →
        (¬ who.Spared raw → raw.Causes (who.told raw) ∧
          r.run directory o m = (.error (who.told raw), m')) ∧
        (who.Spared raw → ∃ outputs m₁, r.run directory o m = (.ok outputs, m₁) ∧
          m'.Follows Event.isLogged m₁)) ∧
      (∀ f cause m', r.EndsAt directory o m f cause m' →
        cause.Causes (findingFailure o f cause) ∧
          r.run directory o m = (.error (findingFailure o f cause), m')) ∧
      (∀ g m', r.FailsToWrite directory o m g m' →
        ¬ g.IsScalar ∧ g.unwritten.fault.reason.isOwn = false ∧
          r.run directory o m = (.error g.unwritten, m')) ∧
      ∀ e m', r.run directory o m = (.error e, m') →
        (∃ who raw, r.RaisesFirst directory o m who raw m' ∧ raw.Causes e) ∨
        (∃ f cause, r.EndsAt directory o m f cause m' ∧ cause.Causes e) ∨
        (∃ f reason, r.Graphless f reason ∧ e = .of reason) ∨
        ∃ g, r.FailsToWrite directory o m g m' ∧ e = g.unwritten) ∧
    ∀ e m', r.run directory o m = (.error e, m') →
      e.fault.reason.isOwn = true ∨ ∃ g, r.FailsToWrite directory o m g m' ∧ e = g.unwritten := by
  refine ⟨run_without_organization, fun horg => ⟨fun who raw m' hraises => ⟨fun hspared => ?_, ?_⟩,
    fun f cause m' hends => ?_, fun g m' hwrite => ?_,
    fun e m' h => causes_of_run horg h⟩, fun e m' h => ?_⟩
  · exact ⟨Collaborator.causes_told raw who, run_of_raisesFirst horg hraises hspared⟩
  · exact run_of_spared horg hraises
  · exact ⟨causes_findingFailure o f cause, run_of_endsAt horg hends⟩
  · exact ⟨hwrite.not_isScalar, rfl, run_of_failsToWrite horg hwrite⟩
  · by_cases horg : r.organization = []
    · cases (run_without_organization horg).symm.trans h
      exact Or.inl rfl
    · rcases causes_of_run horg h with
        ⟨_, _, _, hcaused⟩ | ⟨_, _, _, hcaused⟩ | ⟨_, _, hless, rfl⟩ | hwrite
      · exact Or.inl hcaused.isOwn
      · exact Or.inl hcaused.isOwn
      · exact Or.inl hless.isOwn
      · exact Or.inr hwrite

/-- What a collaborator without a connection raises. -/
def unconnected : Failure := .of (.foreign .connection "connection refused")

/-- The same sources, but a converter without a connection. -/
def convertingAlone : Resolution := { mixed with convert := some fun _ => throw unconnected }

/-- The same sources and converter, but a fallback that finds nothing. -/
def coveringAll : Resolution := { mixed with fallback := fun _ _ => Run.fail .noSupportedProjects }

theorem run_failures_contained_mixed :
    (∃ m', nameless.run "." allProjects {} = (.error Failure.withoutOrganization, m')) ∧
    (∃ m', convertingAlone.RaisesFirst "." allProjects {} (.converter sbomFinding) unconnected m' ∧
      convertingAlone.run "." allProjects {} =
        (.error (.caused (.resolution (.conversionFailed "connection refused")) unconnected), m')) ∧
    (∃ m' outputs m₁, coveringAll.RaisesFirst "." allProjects {}
        (.fallback [brokenFinding, sbomFinding, graphFinding]) (.of .noSupportedProjects) m' ∧
      coveringAll.run "." allProjects {} = (.ok outputs, m₁) ∧ m'.Follows Event.isLogged m₁) ∧
    (∃ cause m', mixed.EndsAt "." {} {} brokenFinding cause m' ∧
      ∃ e, cause.Causes e ∧ mixed.run "." {} {} = (.error e, m') ∧ e.fault.reason.isOwn = true) ∧
    halved.FailsToWrite "." allProjects {} halfGraph halvedMachine ∧
      halved.run "." allProjects {} = (.error halfGraph.unwritten, halvedMachine) := by
  have horg : mixed.organization ≠ [] := List.cons_ne_nil _ _
  have hanswers : InTurn (Answers "." allProjects.forSources) mixed.sources {}
      [[brokenFinding, sbomFinding], [graphFinding]] askedMachine := .cons rfl (.cons rfl .nil)
  have hpass : ∀ found ∈ [[brokenFinding, sbomFinding], [graphFinding]],
      lastOf allProjects found = none := fun _ _ => rfl
  refine ⟨⟨_, (run_failures_contained nameless "." allProjects {}).1 rfl⟩, ?_, ?_, ?_, ?_⟩
  · have hcollect : convertingAlone.collect "." allProjects {} = (.ok _, _) :=
      collect_of_passed hanswers hpass
    have hraises : convertingAlone.RaisesFirst "." allProjects {} (.converter sbomFinding) unconnected _ :=
      .converter hcollect (rfl : _ = [] ++ sbomFinding :: [graphFinding]) .nil ⟨_, _, rfl, rfl, rfl, rfl⟩
    have hspared : ¬ (Collaborator.converter sbomFinding).Spared unconnected := fun ⟨_, h, _⟩ => nomatch h
    exact ⟨_, hraises,
      (((run_failures_contained convertingAlone "." allProjects {}).2.1 horg).1 _ _ _ hraises).1 hspared |>.2⟩
  · have hcollect : coveringAll.collect "." allProjects {} = (.ok _, _) := collect_of_passed hanswers hpass
    have hgraphs :
        InTurn coveringAll.Gives (sound [brokenFinding, sbomFinding, graphFinding]) askedMachine _ _ :=
      .cons (.sbom rfl rfl rfl rfl) (.cons (.graph rfl) .nil)
    have hraises : coveringAll.RaisesFirst "." allProjects {} _ (.of .noSupportedProjects) _ :=
      .fallback hcollect (resolved_eq_ok.mpr ⟨_, hgraphs, rfl⟩)
        (unwritable?_eq_none.mpr fun _ => by decide +kernel) (Or.inr rfl) rfl
    obtain ⟨outputs, m₁, hrun, hfollows⟩ :=
      (((run_failures_contained coveringAll "." allProjects {}).2.1 horg).1 _ _ _ hraises).2
        ⟨_, rfl, List.cons_ne_nil _ _, rfl⟩
    exact ⟨_, outputs, m₁, hraises, hrun, hfollows⟩
  · have hends : mixed.EndsAt "." {} {} brokenFinding _ _ := ⟨⟨_, .here rfl rfl⟩, rfl⟩
    obtain ⟨hcauses, hrun⟩ := ((run_failures_contained mixed "." {} {}).2.1 horg).2.1 _ _ _ hends
    exact ⟨_, _, hends, _, hcauses, hrun, hcauses.isOwn⟩
  · have hwrite : halved.FailsToWrite "." allProjects {} halfGraph halvedMachine :=
      ⟨_, _, _, rfl, rfl, unwritable?_halved⟩
    exact ⟨hwrite, (((run_failures_contained halved "." allProjects {}).2.1 horg).2.2.1 _ _ hwrite).2.2⟩

/-- The source returns a graph that no one raised for, and the resolution fails with what is not its own. -/
theorem run_halfGraph :
    halved.organization ≠ [] ∧
      halved.run "." allProjects {} = (.error halfGraph.unwritten, halvedMachine) ∧
      halfGraph.unwritten.fault.reason.isOwn = false := by
  refine ⟨List.cons_ne_nil _ _, ?_, rfl⟩
  exact run_of_failsToWrite (List.cons_ne_nil _ _) ⟨_, _, _, rfl, rfl, unwritable?_halved⟩

end Resolution
end ManifestGraph
