/-
  What a conversion makes of the response of the service. One request is made, and a status from 400 on is a
  failure of the conversion (`graphs_of_rejected`). Otherwise the body alone counts (`graphs_of_accepted`),
  also if the service only names another address (`graphs_of_redirect`). Which responses look like graphs
  and which like failures is told in `graphs_by_status`.
-/
import ManifestGraph.Proofs.Conversion.Graphs
import ManifestGraph.Proofs.Machine.Footprint

namespace ManifestGraph

/-- The failure is that of a conversion. -/
def Failure.IsOfConversion (e : Failure) : Prop := ∃ message, e.fault.reason = .conversion message

theorem Failure.isOfConversion_whileConverting (e : Failure) : e.whileConverting.IsOfConversion := ⟨_, rfl⟩

namespace Conversion

variable {s : Service} {sbom : Bytes} {metadata : Metadata} {remoteUrl : Text} {m : Machine}
  {status : Int} {reason : Text} {fields : List (Text × Text)} {body : Bytes} {rest : List ServiceReply}
  {response : Response} {misfits : List Misfit} {gs : List DependencyGraph} {e : Failure}

/-! ## One response -/

namespace Service

/-- The machine after the one request of a conversion. -/
def requested (s : Service) (sbom : Bytes) (remoteUrl : Text) (rest : List ServiceReply) (m : Machine) :
    Machine :=
  { m.noting (.posted s.url (parameters remoteUrl) sbom headers) with service := rest }

/-- What is made of a response: the answer in its body, unless the status is from 400 on. -/
def accept (status : Int) (reason : Text) (fields : List (Text × Text)) (body : Bytes) : Run Response :=
  if 500 ≤ status then
    failWith (.of (.foreign .runtime
      (withRequestId "analysis of SBOM document failed due to error" status reason fields)))
  else if 400 ≤ status then
    failWith (.of (.foreign .runtime
      (withRequestId "request to analyze SBOM document was rejected" status reason fields)))
  else match Response.decode body with
    | .ok response => pure response
    | .error misfits =>
      Run.log .error .service "Failed to decode SBOM conversion response" >>= fun _ =>
        failWith (.of (.misfit misfits))

theorem convert_of_response
    (h : nextOutcome? m.service = some (.response status reason fields body, rest)) :
    s.convert sbom remoteUrl m = accept status reason fields body (s.requested sbom remoteUrl rest m) := by
  have hpost : Run.post s.url (parameters remoteUrl) sbom headers m =
      (.ok (.response status reason fields body), s.requested sbom remoteUrl rest m) := by
    have hnext : nextOutcome? (m.noting (.posted s.url (parameters remoteUrl) sbom headers)).service =
        some (.response status reason fields body, rest) := h
    rw [Run.post, Run.note_bind, Run.get_bind, hnext]
    rfl
  rw [convert, Run.attempt_bind, hpost]
  rfl

theorem failWith_eq (e : Failure) :
    (failWith e : Run α) m = (.error e.whileConverting, m.noting (.logged .error .failures e.message)) := rfl

theorem accept_of_rejected (hstatus : 400 ≤ status) : ∃ e : Failure,
    accept status reason fields body m =
      (.error e.whileConverting, m.noting (.logged .error .failures e.message)) := by
  unfold accept
  rw [if_pos hstatus]
  split
  next => exact ⟨_, failWith_eq _⟩
  next => exact ⟨_, failWith_eq _⟩

theorem accept_of_accepted (hstatus : status < 400) : accept status reason fields body m =
    match Response.decode body with
    | .ok response => (.ok response, m)
    | .error misfits => failWith (.of (.misfit misfits))
        (m.noting (.logged .error .service "Failed to decode SBOM conversion response")) := by
  unfold accept
  rw [if_neg (by omega), if_neg (by omega)]
  cases Response.decode body <;> rfl

end Service

/-- The conversion fails as such. -/
def FailsConversion (result : Except Failure (List DependencyGraph)) : Prop :=
  ∃ e, result = .error e ∧ e.IsOfConversion

/-- What a conversion ends with for the body of a response that is accepted. -/
def conclusion (metadata : Metadata) (body : Bytes) : Except Failure (List DependencyGraph) :=
  match Response.decode body with
  | .ok response => graphsOf response metadata
  | .error misfits => .error (Failure.of (.misfit misfits)).whileConverting

theorem graphs_of_rejected (s : Service) (sbom : Bytes) (metadata : Metadata) (remoteUrl : Text)
    (h : nextOutcome? m.service = some (.response status reason fields body, rest))
    (hstatus : 400 ≤ status) :
    FailsConversion (graphs s sbom metadata remoteUrl m).1 ∧
      (s.requested sbom remoteUrl rest m).Follows Event.isLogged (graphs s sbom metadata remoteUrl m).2 := by
  obtain ⟨e, he⟩ := Service.accept_of_rejected (m := s.requested sbom remoteUrl rest m) hstatus
  rw [graphs, Run.bind_eq, Service.convert_of_response h, he]
  exact ⟨⟨_, rfl, e.isOfConversion_whileConverting⟩, .noting rfl⟩

/-- Of an accepted response only the body counts. -/
theorem graphs_of_accepted (s : Service) (sbom : Bytes) (metadata : Metadata) (remoteUrl : Text)
    (h : nextOutcome? m.service = some (.response status reason fields body, rest))
    (hstatus : status < 400) :
    (graphs s sbom metadata remoteUrl m).1 = conclusion metadata body ∧
      (s.requested sbom remoteUrl rest m).Follows Event.isLogged (graphs s sbom metadata remoteUrl m).2 := by
  rw [graphs, Run.bind_eq, Service.convert_of_response h, Service.accept_of_accepted hstatus, conclusion]
  cases Response.decode body with
  | error misfits => exact ⟨rfl, .trans (.noting rfl) (.noting rfl)⟩
  | ok response =>
    dsimp only
    rw [Run.log, Run.note_bind, Run.ofExcept_eq]
    exact ⟨rfl, .noting rfl⟩

/-! ## Every status -/

/-- What is wrong with the graphs of an answer is no failure of the conversion. -/
theorem not_isOfConversion_of_graphsOf (h : graphsOf response metadata = .error e) :
    ¬ e.IsOfConversion := by
  rintro ⟨message, hreason⟩
  rcases exists_of_graphsOf_eq_error h with ⟨messages, rfl⟩ | ⟨fault, rfl⟩ <;> cases hreason

theorem conclusion_eq_ok : conclusion metadata body = .ok gs ↔
    ∃ response, Response.decode body = .ok response ∧ graphsOf response metadata = .ok gs := by
  rw [conclusion]
  cases Response.decode body with
  | error misfits =>
    constructor
    · intro h
      cases h
    · rintro ⟨_, hread, _⟩
      cases hread
  | ok response =>
    refine ⟨fun h => ⟨response, rfl, h⟩, ?_⟩
    rintro ⟨_, hread, h⟩
    cases hread
    exact h

/-- Only a body that cannot be read is a failure of the conversion. -/
theorem failsConversion_conclusion : FailsConversion (conclusion metadata body) ↔
    ∃ misfits, Response.decode body = .error misfits := by
  rw [conclusion]
  cases Response.decode body with
  | error misfits => exact ⟨fun _ => ⟨misfits, rfl⟩, fun _ => ⟨_, rfl, Failure.isOfConversion_whileConverting _⟩⟩
  | ok response =>
    constructor
    · rintro ⟨e, he, hconversion⟩
      exact absurd hconversion (not_isOfConversion_of_graphsOf he)
    · rintro ⟨_, hread⟩
      cases hread

/-- The status says that the request was successful. -/
def IsSuccess (status : Int) : Prop := 200 ≤ status ∧ status < 300

/-- One request is made, whose response is not followed anywhere. Its body counts as the answer of the service
for every status below 400, and only a status from 400 on, or a body that cannot be read, is a failure of
the conversion. That graphs come from successful responses only, and that all others are failures of the
conversion, is so exactly for those responses: the successful ones, those with a status from 400 on, and
those that cannot be read. -/
theorem graphs_by_status (s : Service) (sbom : Bytes) (metadata : Metadata) (remoteUrl : Text)
    (hreply : nextOutcome? m.service = some (.response status reason fields body, rest)) :
    (s.requested sbom remoteUrl rest m).Follows Event.isLogged (graphs s sbom metadata remoteUrl m).2 ∧
    (∀ gs, (graphs s sbom metadata remoteUrl m).1 = .ok gs ↔
      status < 400 ∧ ∃ response, Response.decode body = .ok response ∧ graphsOf response metadata = .ok gs) ∧
    (FailsConversion (graphs s sbom metadata remoteUrl m).1 ↔
      400 ≤ status ∨ ∃ misfits, Response.decode body = .error misfits) ∧
    (((∀ gs, (graphs s sbom metadata remoteUrl m).1 = .ok gs → IsSuccess status) ∧
        (¬ IsSuccess status → FailsConversion (graphs s sbom metadata remoteUrl m).1)) ↔
      IsSuccess status ∨ 400 ≤ status ∨ ∃ misfits, Response.decode body = .error misfits) := by
  have hfails : FailsConversion (graphs s sbom metadata remoteUrl m).1 ↔
      400 ≤ status ∨ ∃ misfits, Response.decode body = .error misfits := by
    by_cases hstatus : 400 ≤ status
    · exact iff_of_true (graphs_of_rejected s sbom metadata remoteUrl hreply hstatus).1 (Or.inl hstatus)
    · rw [(graphs_of_accepted s sbom metadata remoteUrl hreply (by omega)).1, failsConversion_conclusion,
        or_iff_right hstatus]
  have hfailed : FailsConversion (graphs s sbom metadata remoteUrl m).1 →
      ∀ gs, (graphs s sbom metadata remoteUrl m).1 ≠ .ok gs := by
    rintro ⟨e, he, _⟩ gs hok
    cases he.symm.trans hok
  refine ⟨?_, fun gs => ?_, hfails, ?_⟩
  · by_cases hstatus : 400 ≤ status
    · exact (graphs_of_rejected s sbom metadata remoteUrl hreply hstatus).2
    · exact (graphs_of_accepted s sbom metadata remoteUrl hreply (by omega)).2
  · by_cases hstatus : 400 ≤ status
    · refine iff_of_false (hfailed (hfails.mpr (Or.inl hstatus)) gs) fun h => ?_
      have := h.1
      omega
    · have haccepted : status < 400 := by omega
      rw [(graphs_of_accepted s sbom metadata remoteUrl hreply haccepted).1, conclusion_eq_ok,
        and_iff_right haccepted]
  · -- a failure of the conversion gives no graphs, so the first half holds wherever the second one does
    rw [← hfails]
    constructor
    · rintro ⟨_, h⟩
      exact Classical.or_iff_not_imp_left.mpr h
    · rintro (hsuccess | h)
      · exact ⟨fun _ _ => hsuccess, fun hother => absurd hsuccess hother⟩
      · exact ⟨fun gs hok => absurd hok (hfailed h gs), fun _ => h⟩

/-- A project that depends on nothing. -/
def loneProject : Metadata where
  manager := "pip"
  name := "app"

/-- A service. -/
def remoteService : Service where
  api := "https://api.example.com"
  organization := "o"

/-- A machine whose service gives one response, with an answer that has no scans in it. -/
def responding (status : Int) (reason : Text) : Machine where
  service := [.response status reason [("Location", "https://example.com")] (Utf8.encode "\x7b\x7d")]

/-- The answer without scans is read. -/
theorem exists_emptyAnswer :
    ∃ response, Response.decode (Utf8.encode "\x7b\x7d") = .ok response ∧ response.graphs = [] := by
  obtain ⟨response, hread, hgraphs⟩ := Except.exists_of_toOption
    (x := Response.decode (Utf8.encode "\x7b\x7d")) (f := fun response => response.graphs.isEmpty)
    (b := true) (by decide +kernel)
  exact ⟨response, hread, List.isEmpty_iff.mp hgraphs⟩

theorem graphs_by_status_responding :
    (∃ g, rootOnly loneProject = .ok g ∧
      (graphs remoteService [] loneProject [] (responding 200 "OK")).1 = .ok [g]) ∧
    FailsConversion (graphs remoteService [] loneProject [] (responding 404 "Not Found")).1 := by
  obtain ⟨response, hread, hgraphs⟩ := exists_emptyAnswer
  have hfound := graphs_by_status remoteService [] loneProject [] (m := responding 200 "OK") rfl
  have hmissing := graphs_by_status remoteService [] loneProject [] (m := responding 404 "Not Found") rfl
  refine ⟨⟨_, rfl, (hfound.2.1 _).mpr ⟨by decide, response, hread, ?_⟩⟩,
    hmissing.2.2.1.mpr (Or.inl (by decide))⟩
  exact graphsOf_eq_ok.mpr (Or.inr ⟨hgraphs, _, rfl, rfl⟩)

/-- The service only names another address, and the project counts as one that depends on nothing. -/
theorem graphs_of_redirect : ¬ IsSuccess 302 ∧ ∃ g, rootOnly loneProject = .ok g ∧
    (graphs remoteService [] loneProject [] (responding 302 "Found")).1 = .ok [g] ∧
    ¬ FailsConversion (graphs remoteService [] loneProject [] (responding 302 "Found")).1 := by
  obtain ⟨response, hread, hgraphs⟩ := exists_emptyAnswer
  have hroot : graphsOf response loneProject = .ok [_] := graphsOf_eq_ok.mpr (Or.inr ⟨hgraphs, _, rfl, rfl⟩)
  have hok := (graphs_of_accepted remoteService [] loneProject [] (m := responding 302 "Found") rfl
    (by decide)).1.trans (conclusion_eq_ok.mpr ⟨response, hread, hroot⟩)
  refine ⟨fun h => by have := h.2; omega, _, rfl, hok, ?_⟩
  rintro ⟨e, he, _⟩
  cases hok.symm.trans he

end Conversion
end ManifestGraph
