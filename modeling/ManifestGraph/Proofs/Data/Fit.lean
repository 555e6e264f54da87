/-
  What fits a model still fits it, with the same outcome, after it was settled (`Settles`): a model looks
  at the last of repeated keys only, and a mapping keeps the last of them itself.
-/
import ManifestGraph.Data.Fit
import ManifestGraph.Proofs.Data.Related
import ManifestGraph.Proofs.Data.Settled

namespace ManifestGraph

namespace Fit

variable {f : Fit (α → β)} {x : Fit α} {g : α → β} {b : β} {a : α}

theorem exists_of_map (h : g <$> x = .ok b) : ∃ a, x = .ok a ∧ g a = b := by
  cases x with
  | ok a => cases h; exact ⟨a, rfl, rfl⟩
  | bad ms => cases h

theorem exists_of_seq (h : f <*> x = .ok b) : ∃ g a, f = .ok g ∧ x = .ok a ∧ g a = b := by
  cases f with
  | ok g =>
    cases x with
    | ok a => cases h; exact ⟨g, a, rfl, rfl, rfl⟩
    | bad ms => cases h
  | bad ms => cases x <;> cases h

theorem under_eq_ok {s : Step} : x.under s = .ok a ↔ x = .ok a := by
  cases x with
  | ok b => exact Iff.rfl
  | bad ms => exact ⟨fun h => (nomatch h), fun h => (nomatch h)⟩

/-- Two lists of members go together: the same keys, and each value fits. -/
def Matches (fit : Data → Fit α) (m : Text × Data) (a : Text × α) : Prop :=
  m.1 = a.1 ∧ fit m.2 = .ok a.2

variable {fit : Data → Fit α} {n : Nat} {items : List Data} {as : List α} {ms : Members}
  {entered : List (Text × α)}

theorem items_eq_ok :
    Fit.items fit n items = .ok as ↔ List.Forall₂ (fun d a => fit d = .ok a) items as := by
  induction items generalizing n as with
  | nil =>
    rw [Fit.items, List.forall₂_nil_left_iff]
    exact ⟨fun h => by cases h; rfl, fun h => by rw [h]⟩
  | cons d ds ih =>
    rw [Fit.items, List.forall₂_cons_left_iff]
    constructor
    · intro h
      obtain ⟨g, rest, hg, hrest, rfl⟩ := exists_of_seq h
      obtain ⟨a, ha, rfl⟩ := exists_of_map hg
      exact ⟨a, rest, under_eq_ok.mp ha, ih.mp hrest, rfl⟩
    · rintro ⟨a, rest, ha, hrest, rfl⟩
      rw [ha, ih.mpr hrest]
      rfl

/-- What fits is one of the items. -/
theorem exists_of_items (h : Fit.items fit n items = .ok as) (ha : a ∈ as) :
    ∃ d ∈ items, fit d = .ok a :=
  exists_of_mem_right (R := fun d a => fit d = .ok a) (items_eq_ok.mp h) ha

theorem items_map {f : β → Data} {h : β → α} {xs : List β} (hfit : ∀ x ∈ xs, fit (f x) = .ok (h x)) :
    Fit.items fit n (xs.map f) = .ok (xs.map h) := by
  rw [items_eq_ok, List.forall₂_map_left_iff, List.forall₂_map_right_iff]
  exact List.forall₂_same.mpr hfit

theorem entries_eq_ok : Fit.entries fit ms = .ok entered ↔ List.Forall₂ (Matches fit) ms entered := by
  induction ms generalizing entered with
  | nil =>
    rw [Fit.entries, List.forall₂_nil_left_iff]
    exact ⟨fun h => by cases h; rfl, fun h => by rw [h]⟩
  | cons m ms ih =>
    rw [Fit.entries, List.forall₂_cons_left_iff]
    constructor
    · intro h
      obtain ⟨g, rest, hg, hrest, rfl⟩ := exists_of_seq h
      obtain ⟨a, ha, rfl⟩ := exists_of_map hg
      exact ⟨(m.1, a), rest, ⟨rfl, under_eq_ok.mp ha⟩, ih.mp hrest, rfl⟩
    · rintro ⟨⟨name, a⟩, rest, ⟨hname, ha⟩, hrest, rfl⟩
      rw [ha, ih.mpr hrest, hname]
      rfl

end Fit

/-! ## Keys -/

theorem forall₂_putMember {R : Text × α → Text × β → Prop} {ms : List (Text × α)} {ns : List (Text × β)}
    {key : Text} {v : α} {w : β} (hkeys : ∀ m n, R m n → m.1 = n.1) (hnew : R (key, v) (key, w))
    (h : List.Forall₂ R ms ns) : List.Forall₂ R (putMember key v ms) (putMember key w ns) := by
  induction h with
  | nil => exact .cons hnew .nil
  | @cons m n ms ns hmn hrest ih =>
    rw [putMember, putMember, hkeys m n hmn]
    split
    next => exact .cons hnew hrest
    next => exact .cons hmn ih

/-- Members that go together still do when only the last of each key is kept. -/
theorem forall₂_lastOfEach {R : Text × α → Text × β → Prop} {ms : List (Text × α)}
    {ns : List (Text × β)} (hkeys : ∀ m n, R m n → m.1 = n.1) (h : List.Forall₂ R ms ns) :
    List.Forall₂ R (lastOfEach ms) (lastOfEach ns) := by
  have hfold : ∀ {ms ns}, List.Forall₂ R ms ns → ∀ {kept kept'}, List.Forall₂ R kept kept' →
      List.Forall₂ R (ms.foldl (fun kept m => putMember m.1 m.2 kept) kept)
        (ns.foldl (fun kept m => putMember m.1 m.2 kept) kept') := by
    intro ms ns h
    induction h with
    | nil => exact fun hkept => hkept
    | @cons m n ms ns hmn _ ih =>
      intro kept kept' hkept
      have hkey := hkeys m n hmn
      have hn : n = (m.1, n.2) := by rw [hkey]
      rw [hn] at hmn ⊢
      exact ih (forall₂_putMember hkeys hmn hkept)
  exact hfold h .nil

/-! ## Members -/

namespace Members

variable {ms : Members} {names : List Text} {fit : Data → Fit α} {a absent : α} {m : Text × Data}

theorem find?_singleton (ms : Members) (name : Text) :
    ms.find? [name] = (List.lookup name ms).map fun d => (name, d) := by
  rw [find?]
  cases List.lookup name ms <;> rfl

theorem mem_of_find? (h : ms.find? names = some m) : m ∈ ms := by
  induction names with
  | nil => cases h
  | cons name names ih =>
    rw [find?] at h
    cases hlookup : List.lookup name ms with
    | none => rw [hlookup] at h; exact ih h
    | some d =>
      rw [hlookup] at h
      rw [← Option.some.inj h]
      exact mem_of_lookup hlookup

/-- A member that must be there fits. -/
theorem required_eq_ok : ms.required names fit = .ok a ↔ ∃ m, ms.find? names = some m ∧ fit m.2 = .ok a := by
  rw [required]
  cases ms.find? names with
  | none => exact ⟨fun h => (nomatch h), fun ⟨_, h, _⟩ => (nomatch h)⟩
  | some m => simp [Fit.under_eq_ok]

/-- A member with a value of its own is absent or fits. -/
theorem withDefault_eq_ok : ms.withDefault names absent fit = .ok a ↔
    (ms.find? names = none ∧ a = absent) ∨ ∃ m, ms.find? names = some m ∧ fit m.2 = .ok a := by
  rw [withDefault]
  cases ms.find? names with
  | none => simp [eq_comm]
  | some m => simp [Fit.under_eq_ok]

theorem exists_of_required (h : ms.required names fit = .ok a) : ∃ m ∈ ms, fit m.2 = .ok a := by
  obtain ⟨m, hfound, hfit⟩ := required_eq_ok.mp h
  exact ⟨m, mem_of_find? hfound, hfit⟩

theorem exists_of_withDefault (h : ms.withDefault names absent fit = .ok a) :
    a = absent ∨ ∃ m ∈ ms, fit m.2 = .ok a := by
  rcases withDefault_eq_ok.mp h with ⟨_, rfl⟩ | ⟨m, hfound, hfit⟩
  · exact Or.inl rfl
  · exact Or.inr ⟨m, mem_of_find? hfound, hfit⟩

end Members

/-! ## Settled values -/

/-- What fits still does when it was settled, and gives the same. -/
def Settles (fit : Data → Fit α) : Prop := ∀ d a, fit d = .ok a → fit d.settled = .ok a

/-- The members of a record, with their values settled. -/
def Members.settled (ms : Members) : Members := ms.map fun m => (m.1, m.2.settled)

/-- Members that fit still do when their values were settled, and give the same. -/
def MembersSettle (fit : Members → Fit α) : Prop := ∀ ms a, fit ms = .ok a → fit ms.settled = .ok a

theorem Members.lookup_settled (name : Text) (ms : Members) :
    List.lookup name ms.settled = (List.lookup name ms).map Data.settled := by
  induction ms with
  | nil => rfl
  | cons m ms ih =>
    rw [settled, List.map_cons, lookup_cons_if, lookup_cons_if]
    split
    next => rfl
    next => exact ih

theorem Members.find?_settled (ms : Members) (names : List Text) :
    ms.settled.find? names = (ms.find? names).map fun m => (m.1, m.2.settled) := by
  induction names with
  | nil => rfl
  | cons name names ih =>
    rw [find?, find?, lookup_settled]
    cases List.lookup name ms with
    | none => exact ih
    | some d => rfl

theorem Members.find?_settled_of_some {ms : Members} {names : List Text} {m : Text × Data}
    (h : ms.find? names = some m) : ms.settled.find? names = some (m.1, m.2.settled) := by
  rw [find?_settled, h]
  rfl

section Settling

variable {fit : Data → Fit α} {fitAll : Members → Fit α}

theorem settles_fitText : Settles Data.fitText := by
  intro d a h
  cases d with
  | text t => exact h
  | _ => cases h

theorem Settles.option (h : Settles fit) : Settles (Data.fitOption fit) := by
  intro d a hd
  have hsome : ∀ {d : Data}, d ≠ .null → Data.fitOption fit d = (fit d).map some := by
    intro d hne
    cases d with
    | null => exact absurd rfl hne
    | _ => rfl
  by_cases hnull : d = .null
  · rw [hnull] at hd ⊢; exact hd
  · have hsettled : d.settled ≠ .null := by
      cases d with
      | null => exact absurd rfl hnull
      | _ => intro hd; cases hd
    rw [hsome hnull] at hd
    rw [hsome hsettled]
    cases hfit : fit d with
    | ok b => rw [hfit] at hd; rw [h _ _ hfit]; exact hd
    | bad ms => rw [hfit] at hd; cases hd

theorem Settles.items (h : Settles fit) {n : Nat} {items : List Data} {as : List α}
    (hitems : Fit.items fit n items = .ok as) : Fit.items fit n (items.map Data.settled) = .ok as := by
  rw [Fit.items_eq_ok] at hitems ⊢
  exact List.forall₂_map_left_iff.mpr (hitems.imp fun _ _ hd => h _ _ hd)

theorem Settles.tuple (h : Settles fit) : Settles (Data.fitTuple fit) := by
  intro d a hd
  cases d with
  | list items => rw [Data.settled_list]; exact h.items hd
  | _ => cases hd

theorem Settles.list (h : Settles fit) : Settles (Data.fitList fit) := by
  intro d a hd
  cases d with
  | list items => rw [Data.settled_list]; exact h.items hd
  | _ => cases hd

/-- A mapping keeps the last of repeated keys, whether or not that was done before. -/
theorem Settles.mapping (h : Settles fit) : Settles (Data.fitMapping fit) := by
  intro d a hd
  cases d with
  | record members =>
    change Fit.map lastOfEach (Fit.entries fit members) = .ok a at hd
    obtain ⟨entered, hentered, rfl⟩ := Fit.exists_of_map hd
    rw [Fit.entries_eq_ok] at hentered
    have hsettled : List.Forall₂ (Fit.Matches fit)
        (members.map fun m => (m.1, m.2.settled)) entered :=
      List.forall₂_map_left_iff.mpr (hentered.imp fun _ _ hm => ⟨hm.1, h _ _ hm.2⟩)
    have hlast := forall₂_lastOfEach (fun _ _ hm => hm.1) hsettled
    rw [Data.settled_record, Data.fitMapping, Fit.entries_eq_ok.mpr hlast, Fit.map,
      lastOfEach_lastOfEach]
  | _ => cases hd

theorem settles_fitModel (h : MembersSettle fitAll) : Settles (Data.fitModel fitAll) := by
  intro d a hd
  cases d with
  | record members =>
    rw [Data.settled_record, ← map_lastOfEach, Data.fitModel, lastOfEach_of_nodup ?_]
    · exact h _ _ hd
    · rw [List.map_map]
      exact nodup_lastOfEach members
  | _ => cases hd

theorem MembersSettle.map {f : α → β} (h : MembersSettle fitAll) :
    MembersSettle fun ms => f <$> fitAll ms := by
  intro ms b hb
  obtain ⟨a, ha, rfl⟩ := Fit.exists_of_map hb
  exact congrArg (f <$> ·) (h _ _ ha)

theorem MembersSettle.seq {fitBefore : Members → Fit (α → β)} (hbefore : MembersSettle fitBefore)
    (h : MembersSettle fitAll) : MembersSettle fun ms => fitBefore ms <*> fitAll ms := by
  intro ms b hb
  obtain ⟨g, a, hg, ha, rfl⟩ := Fit.exists_of_seq hb
  show fitBefore ms.settled <*> fitAll ms.settled = _
  rw [hbefore _ _ hg, h _ _ ha]
  rfl

theorem Settles.required (h : Settles fit) (names : List Text) :
    MembersSettle fun ms => ms.required names fit := by
  intro ms a ha
  obtain ⟨m, hfound, hfit⟩ := Members.required_eq_ok.mp ha
  exact Members.required_eq_ok.mpr ⟨_, Members.find?_settled_of_some hfound, h _ _ hfit⟩

theorem Settles.withDefault (h : Settles fit) (names : List Text) (absent : α) :
    MembersSettle fun ms => ms.withDefault names absent fit := by
  intro ms a ha
  refine Members.withDefault_eq_ok.mpr ?_
  rcases Members.withDefault_eq_ok.mp ha with ⟨hnone, rfl⟩ | ⟨m, hfound, hfit⟩
  · exact Or.inl ⟨by rw [Members.find?_settled, hnone]; rfl, rfl⟩
  · exact Or.inr ⟨_, Members.find?_settled_of_some hfound, h _ _ hfit⟩

theorem settles_noOthers (names : List (List Text)) : MembersSettle fun ms => ms.noOthers names := by
  intro ms a ha
  have hused : Members.used ms.settled names = Members.used ms names := by
    refine List.filterMap_congr fun alternatives _ => ?_
    rw [Members.find?_settled, Option.map_map]
    rfl
  have hfilter : (ms.settled.filter fun m => !(Members.used ms.settled names).contains m.1) =
      (ms.filter fun m => !(Members.used ms names).contains m.1).map fun m => (m.1, m.2.settled) := by
    rw [hused, Members.settled, List.filter_map]
    rfl
  unfold Members.noOthers at ha ⊢
  dsimp only at ha ⊢
  rw [hfilter]
  cases hothers : ms.filter fun m => !(Members.used ms names).contains m.1 with
  | nil => rfl
  | cons m rest => rw [hothers] at ha; cases ha

end Settling
end ManifestGraph
