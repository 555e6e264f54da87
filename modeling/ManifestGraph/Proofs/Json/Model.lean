/-
  Documents of a fixed shape. What a model makes of a value that was read has the properties that its
  parts have (`Yields`), the first of which is that no text of a document holds a lone half.
-/
import ManifestGraph.Json.Model
import ManifestGraph.Proofs.Data.Fit
import ManifestGraph.Proofs.Json.Documents

namespace ManifestGraph

open Json (Legible strict)

/-- What fits a value that was read has a property. -/
def Yields (P : α → Prop) (fit : Data → Fit α) : Prop :=
  ∀ n d a, Legible strict n d → fit d = .ok a → P a

/-- What fits the members of a record that was read has a property. -/
def MembersYield (P : α → Prop) (fit : Members → Fit α) : Prop :=
  ∀ n ms a, (∀ m ∈ ms, Legible strict n m.2) → fit ms = .ok a → P a

variable {P : α → Prop} {Q : β → Prop} {fit : Data → Fit α} {fitAll : Members → Fit α}

theorem Json.readModel_eq_ok {bs : Bytes} {a : α} :
    readModel fit bs = .ok a ↔ ∃ d, readStrict bs = some d ∧ fit d = .ok a := by
  unfold readModel
  cases readStrict bs with
  | none => exact ⟨fun h => (nomatch h), fun ⟨d, hd, _⟩ => (nomatch hd)⟩
  | some d =>
    dsimp only
    constructor
    · intro h
      cases hfit : fit d with
      | ok b => rw [hfit] at h; cases h; exact ⟨d, rfl, hfit⟩
      | bad ms => rw [hfit] at h; cases h
    · rintro ⟨d', hd, hfit⟩
      cases hd
      rw [hfit]
      rfl

/-- What was read from a document has the property. -/
theorem Yields.of_readModel (h : Yields P fit) {bs : Bytes} {a : α}
    (hread : Json.readModel fit bs = .ok a) : P a := by
  obtain ⟨d, hd, hfit⟩ := Json.readModel_eq_ok.mp hread
  exact h _ d a (Json.legible_of_readStrict hd) hfit

/-! ## Values -/

theorem yields_fitText : Yields (fun t : Text => t.isScalar = true) Data.fitText := by
  intro n d t h hfit
  cases h with
  | text h =>
    cases hfit
    rcases h with h | h
    · cases h
    · exact h
  | _ => cases hfit

theorem Yields.option (h : Yields P fit) :
    Yields (fun x => ∀ a, x = some a → P a) (Data.fitOption fit) := by
  intro n d x hd hfit
  by_cases hnull : d = .null
  · rw [hnull] at hfit
    cases hfit
    exact fun _ ha => (nomatch ha)
  · have hsome : Data.fitOption fit d = (fit d).map some := by
      cases d with
      | null => exact absurd rfl hnull
      | _ => rfl
    rw [hsome] at hfit
    obtain ⟨a, ha, rfl⟩ := Fit.exists_of_map hfit
    intro b hb
    cases hb
    exact h n d a hd ha

theorem Yields.items (h : Yields P fit) {n k : Nat} {items : List Data} {as : List α}
    (hitems : ∀ d ∈ items, Legible strict n d) (hfit : Fit.items fit k items = .ok as) :
    ∀ a ∈ as, P a := by
  intro a ha
  obtain ⟨d, hd, hfit⟩ := Fit.exists_of_items hfit ha
  exact h n d a (hitems d hd) hfit

theorem Json.Legible.items {n : Nat} {items : List Data} (h : Legible strict n (.list items)) :
    ∃ k, ∀ d ∈ items, Legible strict k d := by
  cases h with
  | emptyList => exact ⟨0, List.forall_mem_nil _⟩
  | list h => exact ⟨_, h⟩

theorem Json.Legible.members {n : Nat} {members : Members} (h : Legible strict n (.record members)) :
    ∃ k, ∀ m ∈ members, m.1.isScalar = true ∧ Legible strict k m.2 := by
  cases h with
  | emptyRecord => exact ⟨0, List.forall_mem_nil _⟩
  | record hkeys h =>
    refine ⟨_, fun m hm => ⟨?_, h m hm⟩⟩
    rcases hkeys m hm with hkey | hkey
    · cases hkey
    · exact hkey

theorem Yields.tuple (h : Yields P fit) : Yields (fun as => ∀ a ∈ as, P a) (Data.fitTuple fit) := by
  intro n d as hd hfit
  cases d with
  | list items =>
    obtain ⟨k, hitems⟩ := hd.items
    exact h.items hitems hfit
  | _ => cases hfit

theorem Yields.list (h : Yields P fit) : Yields (fun as => ∀ a ∈ as, P a) (Data.fitList fit) := by
  intro n d as hd hfit
  cases d with
  | list items =>
    obtain ⟨k, hitems⟩ := hd.items
    exact h.items hitems hfit
  | _ => cases hfit

/-- A mapping has every key once. -/
theorem Yields.mapping (h : Yields P fit) :
    Yields (fun entered : List (Text × α) =>
      (entered.map Prod.fst).Nodup ∧ ∀ m ∈ entered, m.1.isScalar = true ∧ P m.2) (Data.fitMapping fit) := by
  intro n d entered hd hfit
  cases d with
  | record members =>
    obtain ⟨k, hmembers⟩ := hd.members
    obtain ⟨all, hall, rfl⟩ := Fit.exists_of_map (g := lastOfEach) hfit
    refine ⟨nodup_lastOfEach all, fun m hm => ?_⟩
    obtain ⟨m', hm', hkey, hvalue⟩ :=
      exists_of_mem_right (Fit.entries_eq_ok.mp hall) (mem_of_mem_lastOfEach hm)
    rw [← hkey]
    exact ⟨(hmembers m' hm').1, h k m'.2 m.2 (hmembers m' hm').2 hvalue⟩
  | _ => cases hfit

theorem yields_fitModel (h : MembersYield P fitAll) : Yields P (Data.fitModel fitAll) := by
  intro n d a hd hfit
  cases d with
  | record members =>
    obtain ⟨k, hmembers⟩ := hd.members
    exact h k _ a (fun m hm => (hmembers m (mem_of_mem_lastOfEach hm)).2) hfit
  | _ => cases hfit

/-! ## Members -/

/-- Of members that do not matter nothing is asked. -/
theorem membersYield_any (fitAll : Members → Fit α) : MembersYield (fun _ => True) fitAll :=
  fun _ _ _ _ _ => trivial

theorem MembersYield.map {f : α → β} (h : MembersYield P fitAll) (hf : ∀ a, P a → Q (f a)) :
    MembersYield Q fun ms => f <$> fitAll ms := by
  intro n ms b hms hfit
  obtain ⟨a, ha, rfl⟩ := Fit.exists_of_map hfit
  exact hf a (h n ms a hms ha)

theorem MembersYield.seq {fitBefore : Members → Fit (α → β)}
    (hbefore : MembersYield (fun f => ∀ a, P a → Q (f a)) fitBefore) (h : MembersYield P fitAll) :
    MembersYield Q fun ms => fitBefore ms <*> fitAll ms := by
  intro n ms b hms hfit
  obtain ⟨f, a, hf, ha, rfl⟩ := Fit.exists_of_seq hfit
  exact hbefore n ms f hms hf a (h n ms a hms ha)

theorem Yields.required (h : Yields P fit) (names : List Text) :
    MembersYield P fun ms => ms.required names fit := by
  intro n ms a hms hfit
  obtain ⟨m, hm, hfit⟩ := Members.exists_of_required hfit
  exact h n m.2 a (hms m hm) hfit

theorem Yields.withDefault (h : Yields P fit) (names : List Text) {absent : α} (habsent : P absent) :
    MembersYield P fun ms => ms.withDefault names absent fit := by
  intro n ms a hms hfit
  rcases Members.exists_of_withDefault hfit with rfl | ⟨m, hm, hfit⟩
  · exact habsent
  · exact h n m.2 a (hms m hm) hfit

/-- A member may be null as well as absent. -/
theorem Yields.optional (h : Yields P fit) (names : List Text) :
    MembersYield (fun x => ∀ a, x = some a → P a) fun ms =>
      ms.withDefault names none (Data.fitOption fit) :=
  h.option.withDefault names fun _ hnone => nomatch hnone

end ManifestGraph
