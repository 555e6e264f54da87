/-
  Settled values: every key stands once in each record. Settling takes of the members with one key the
  last value (`lookup_lastOfEach`), leaves members with distinct keys as they are
  (`lastOfEach_of_nodup`), and has nothing left to do the second time (`settled_settled`).
-/
import ManifestGraph.Data
import Mathlib.Data.List.Induction
import Mathlib.Data.List.Nodup

namespace ManifestGraph

variable {α β : Type} {key name : Text} {value : α} {ms : List (Text × α)}

/-! ## Named members -/

theorem mem_keys_putMember :
    name ∈ (putMember key value ms).map Prod.fst ↔ name = key ∨ name ∈ ms.map Prod.fst := by
  induction ms with
  | nil => simp [putMember]
  | cons m ms ih =>
    rw [putMember]
    split
    next h => rw [List.map_cons, List.map_cons, List.mem_cons, List.mem_cons, h, or_self_left]
    next h =>
      rw [List.map_cons, List.mem_cons, ih, List.map_cons, List.mem_cons]
      exact or_left_comm

theorem nodup_putMember (h : (ms.map Prod.fst).Nodup) :
    ((putMember key value ms).map Prod.fst).Nodup := by
  induction ms with
  | nil => exact List.nodup_singleton _
  | cons m ms ih =>
    rw [List.map_cons, List.nodup_cons] at h
    rw [putMember]
    split
    next heq => rw [List.map_cons, List.nodup_cons, ← heq]; exact h
    next hne =>
      rw [List.map_cons, List.nodup_cons, mem_keys_putMember]
      refine ⟨?_, ih h.2⟩
      rintro (heq | hmem)
      · exact hne heq
      · exact h.1 hmem

theorem putMember_of_not_mem (h : key ∉ ms.map Prod.fst) :
    putMember key value ms = ms ++ [(key, value)] := by
  induction ms with
  | nil => rfl
  | cons m ms ih =>
    rw [List.map_cons, List.mem_cons, not_or] at h
    rw [putMember, if_neg (Ne.symm h.1), ih h.2]
    rfl

theorem lookup_cons_if (m : Text × α) (ms : List (Text × α)) :
    List.lookup name (m :: ms) = if name = m.1 then some m.2 else List.lookup name ms := by
  rw [List.lookup_cons]
  by_cases h : name = m.1
  · rw [if_pos h, beq_iff_eq.mpr h]
  · rw [if_neg h, beq_eq_false_iff_ne.mpr h]

theorem lookup_putMember :
    List.lookup name (putMember key value ms) =
      if name = key then some value else List.lookup name ms := by
  induction ms with
  | nil => rw [putMember, lookup_cons_if]
  | cons m ms ih =>
    rw [putMember]
    by_cases hm : m.1 = key
    · rw [if_pos hm, lookup_cons_if, lookup_cons_if, hm]
      by_cases h : name = key
      · rw [if_pos h, if_pos h]
      · rw [if_neg h, if_neg h, if_neg h]
    · rw [if_neg hm, lookup_cons_if, ih, lookup_cons_if]
      by_cases h : name = m.1
      · rw [if_pos h, if_pos h, if_neg fun he => hm (h.symm.trans he)]
      · rw [if_neg h, if_neg h]

theorem mem_putMember {m : Text × α} (h : m ∈ putMember key value ms) : m = (key, value) ∨ m ∈ ms := by
  induction ms with
  | nil => exact Or.inl (List.mem_singleton.mp h)
  | cons x ms ih =>
    rw [putMember] at h
    split at h
    next =>
      rcases List.mem_cons.mp h with h | h
      · exact Or.inl h
      · exact Or.inr (List.mem_cons_of_mem _ h)
    next =>
      rcases List.mem_cons.mp h with h | h
      · exact Or.inr (h ▸ List.mem_cons_self)
      · exact (ih h).imp_right (List.mem_cons_of_mem _)

theorem map_putMember (f : α → β) :
    (putMember key value ms).map (fun m => (m.1, f m.2)) =
      putMember key (f value) (ms.map fun m => (m.1, f m.2)) := by
  induction ms with
  | nil => rfl
  | cons m ms ih =>
    rw [putMember, List.map_cons, putMember]
    split
    next => rfl
    next => rw [List.map_cons, ih]

/-! ## The last of each -/

theorem lastOfEach_append_singleton (ms : List (Text × α)) (m : Text × α) :
    lastOfEach (ms ++ [m]) = putMember m.1 m.2 (lastOfEach ms) := by
  rw [lastOfEach, List.foldl_append]
  rfl

theorem nodup_lastOfEach (ms : List (Text × α)) : ((lastOfEach ms).map Prod.fst).Nodup := by
  induction ms using List.reverseRecOn with
  | nil => exact List.nodup_nil
  | append_singleton ms m ih => rw [lastOfEach_append_singleton]; exact nodup_putMember ih

theorem mem_of_mem_lastOfEach {m : Text × α} (h : m ∈ lastOfEach ms) : m ∈ ms := by
  induction ms using List.reverseRecOn with
  | nil => exact h
  | append_singleton ms x ih =>
    rw [lastOfEach_append_singleton] at h
    rcases mem_putMember h with h | h
    · exact List.mem_append_right _ (List.mem_singleton.mpr h)
    · exact List.mem_append_left _ (ih h)

theorem lookup_lastOfEach : List.lookup name (lastOfEach ms) = List.lookup name ms.reverse := by
  induction ms using List.reverseRecOn with
  | nil => rfl
  | append_singleton ms m ih =>
    rw [lastOfEach_append_singleton, lookup_putMember, ih, List.reverse_append, List.reverse_singleton,
      List.singleton_append, lookup_cons_if]

theorem lastOfEach_of_nodup (h : (ms.map Prod.fst).Nodup) : lastOfEach ms = ms := by
  induction ms using List.reverseRecOn with
  | nil => rfl
  | append_singleton ms m ih =>
    rw [List.map_append, List.map_singleton, List.nodup_append'] at h
    rw [lastOfEach_append_singleton, ih h.1, putMember_of_not_mem]
    exact List.disjoint_singleton.mp h.2.2

theorem lastOfEach_lastOfEach (ms : List (Text × α)) : lastOfEach (lastOfEach ms) = lastOfEach ms :=
  lastOfEach_of_nodup (nodup_lastOfEach ms)

theorem map_lastOfEach (f : α → β) (ms : List (Text × α)) :
    (lastOfEach ms).map (fun m => (m.1, f m.2)) = lastOfEach (ms.map fun m => (m.1, f m.2)) := by
  induction ms using List.reverseRecOn with
  | nil => rfl
  | append_singleton ms m ih =>
    rw [lastOfEach_append_singleton, map_putMember, ih, List.map_append, List.map_singleton,
      lastOfEach_append_singleton]

theorem mem_of_lookup {name : Text} {v : α} {ms : List (Text × α)} (h : List.lookup name ms = some v) :
    (name, v) ∈ ms := by
  obtain ⟨before, rest, rfl, _⟩ := List.lookup_eq_some_iff.mp h
  exact List.mem_append_right before List.mem_cons_self

theorem lookup_of_mem (h : (ms.map Prod.fst).Nodup) (hmem : (name, value) ∈ ms) :
    List.lookup name ms = some value := by
  induction ms with
  | nil => cases hmem
  | cons m ms ih =>
    rw [List.map_cons, List.nodup_cons] at h
    rw [lookup_cons_if]
    rcases List.mem_cons.mp hmem with rfl | hmem
    · exact if_pos rfl
    · rw [if_neg, ih h.2 hmem]
      rintro rfl
      exact h.1 (List.mem_map.mpr ⟨_, hmem, rfl⟩)

/-! ## Values -/

namespace Data

/-- Induction over values: through the items of a list and the values of a record. -/
@[elab_as_elim]
theorem parts {P : Data → Prop} (leaf : ∀ d, d.items? = none → d.members? = none → P d)
    (list : ∀ items, (∀ d ∈ items, P d) → P (.list items))
    (record : ∀ members, (∀ m ∈ members, P m.2) → P (.record members)) : ∀ d, P d
  | .null => leaf _ rfl rfl
  | .bool _ => leaf _ rfl rfl
  | .int _ => leaf _ rfl rfl
  | .float _ => leaf _ rfl rfl
  | .text _ => leaf _ rfl rfl
  | .moment _ => leaf _ rfl rfl
  | .list items => list items fun d _ => parts leaf list record d
  | .record members => record members fun m _ => parts leaf list record m.2
termination_by d => sizeOf d
decreasing_by
  · have := List.sizeOf_lt_of_mem ‹d ∈ items›
    simp only [Data.list.sizeOf_spec]
    omega
  · have := List.sizeOf_lt_of_mem ‹m ∈ members›
    have hpair : sizeOf m = 1 + sizeOf m.1 + sizeOf m.2 := rfl
    simp only [Data.record.sizeOf_spec]
    omega

theorem settledItems_eq (items : List Data) : settledItems items = items.map settled := by
  induction items with
  | nil => rfl
  | cons d ds ih => rw [settledItems, ih]; rfl

theorem settledMembers_eq (members : List (Text × Data)) :
    settledMembers members = members.map fun m => (m.1, m.2.settled) := by
  induction members with
  | nil => rfl
  | cons m ms ih => rw [settledMembers, ih]; rfl

theorem settled_leaf {d : Data} (hi : d.items? = none) (hm : d.members? = none) : d.settled = d := by
  cases d with
  | list items => cases hi
  | record members => cases hm
  | _ => rfl

theorem settled_list (items : List Data) : settled (.list items) = .list (items.map settled) := by
  rw [settled, settledItems_eq]

theorem settled_record (members : List (Text × Data)) :
    settled (.record members) = .record (lastOfEach (members.map fun m => (m.1, m.2.settled))) := by
  rw [settled, settledMembers_eq]

/-- A record with distinct keys is settled if its values are. -/
theorem settled_record_of_nodup {members : List (Text × Data)} (hkeys : (members.map Prod.fst).Nodup)
    (h : ∀ m ∈ members, m.2.settled = m.2) : settled (.record members) = .record members := by
  have hmembers : (members.map fun m => (m.1, m.2.settled)) = members := by
    refine (List.map_congr_left fun m hm => ?_).trans (List.map_id members)
    exact congrArg (Prod.mk m.1) (h m hm)
  rw [settled_record, hmembers, lastOfEach_of_nodup hkeys]

/-- There is nothing left to settle. -/
theorem settled_settled (d : Data) : d.settled.settled = d.settled := by
  induction d using parts with
  | leaf d hi hm => rw [settled_leaf hi hm, settled_leaf hi hm]
  | list items ih =>
    rw [settled_list, settled_list, List.map_map]
    exact congrArg list (List.map_congr_left ih)
  | record members ih =>
    rw [settled_record, settled_record, map_lastOfEach, List.map_map, lastOfEach_lastOfEach]
    refine congrArg record (congrArg lastOfEach (List.map_congr_left fun m hm => ?_))
    exact congrArg (Prod.mk m.1) (ih m hm)

end Data
end ManifestGraph
