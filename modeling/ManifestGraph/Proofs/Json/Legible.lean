/-
  Values that JSON can spell: numbers are short or in canonical form, texts have lone halves only where
  the dialect lets them in, and containers nest no deeper than it reads (`Legible`). Settling a value
  keeps it legible, and so does joining the halves in its texts.
-/
import ManifestGraph.Json.Reader
import ManifestGraph.Proofs.Binary64.Rounding
import ManifestGraph.Proofs.Data.Settled
import ManifestGraph.Proofs.Text.Halves

namespace ManifestGraph

namespace Data

mutual

/-- The value with the halves in all its texts joined. -/
def joined : Data → Data
  | .text t => .text t.joined
  | .list items => .list (joinedItems items)
  | .record members => .record (joinedMembers members)
  | d => d

/-- The items of a list, with the halves in their texts joined. -/
def joinedItems : List Data → List Data
  | [] => []
  | d :: ds => joined d :: joinedItems ds

/-- The members of a record, with the halves in their keys and values joined. -/
def joinedMembers : List (Text × Data) → List (Text × Data)
  | [] => []
  | (key, d) :: ms => (key.joined, joined d) :: joinedMembers ms

end

theorem joinedItems_eq (items : List Data) : joinedItems items = items.map joined := by
  induction items with
  | nil => rfl
  | cons d ds ih => rw [joinedItems, ih]; rfl

theorem joinedMembers_eq (members : List (Text × Data)) :
    joinedMembers members = members.map fun m => (m.1.joined, m.2.joined) := by
  induction members with
  | nil => rfl
  | cons m ms ih => rw [joinedMembers, ih]; rfl

theorem joined_list (items : List Data) : joined (.list items) = .list (items.map joined) := by
  rw [joined, joinedItems_eq]

theorem joined_record (members : List (Text × Data)) :
    joined (.record members) = .record (members.map fun m => (m.1.joined, m.2.joined)) := by
  rw [joined, joinedMembers_eq]

/-- There is nothing left to join. -/
theorem joined_joined (d : Data) : d.joined.joined = d.joined := by
  induction d using parts with
  | leaf d hi hm =>
    cases d with
    | text t => exact congrArg text (Text.joined_joined t)
    | list items => cases hi
    | record members => cases hm
    | _ => rfl
  | list items ih =>
    rw [joined_list, joined_list, List.map_map]
    exact congrArg list (List.map_congr_left ih)
  | record members ih =>
    rw [joined_record, joined_record, List.map_map]
    refine congrArg record (List.map_congr_left fun m hm => ?_)
    exact Prod.ext (Text.joined_joined m.1) (ih m hm)

/-- Settling parts no halves again. -/
theorem joined_settled {d : Data} (h : d.joined = d) : d.settled.joined = d.settled := by
  induction d using parts with
  | leaf d hi hm => rw [settled_leaf hi hm, h]
  | list items ih =>
    rw [joined_list] at h
    rw [settled_list, joined_list, List.map_map]
    refine congrArg list (List.map_congr_left fun d hd => ih d hd ?_)
    have hitems : items.map joined = items.map id := by rw [List.map_id]; exact list.inj h
    exact List.map_inj_left.mp hitems d hd
  | record members ih =>
    rw [joined_record] at h
    have hmembers : (members.map fun m => (m.1.joined, m.2.joined)) = members.map id := by
      rw [List.map_id]
      exact record.inj h
    have hmember : ∀ m ∈ members, (m.1.joined, m.2.joined) = m := List.map_inj_left.mp hmembers
    rw [settled_record, joined_record]
    refine congrArg record ((List.map_congr_left fun m hm => ?_).trans (List.map_id _))
    obtain ⟨m', hm', rfl⟩ := List.mem_map.mp (mem_of_mem_lastOfEach hm)
    have hkey : m'.1.joined = m'.1 := congrArg Prod.fst (hmember m' hm')
    have hvalue : m'.2.joined = m'.2 := congrArg Prod.snd (hmember m' hm')
    exact Prod.ext hkey (ih m' hm' hvalue)

end Data

namespace Json

/-- The text may stand in a string: without lone halves, unless the dialect lets them in. -/
def Dialect.Allows (d : Dialect) (t : Text) : Prop := d.halves = true ∨ t.isScalar = true

/-- A value that the dialect can read in at most some levels of containers. -/
inductive Legible (d : Dialect) : Nat → Data → Prop where
  | null (n : Nat) : Legible d n .null
  | bool (n : Nat) (b : Bool) : Legible d n (.bool b)
  | int {n : Nat} {i : Int} (h : i.natAbs < 10 ^ maxDigits) : Legible d n (.int i)
  | float {n : Nat} {x : Binary64} (h : x.Canonical) : Legible d n (.float x)
  | text {n : Nat} {t : Text} (h : d.Allows t) : Legible d n (.text t)
  | emptyList {n : Nat} (h : d.countsEmpty = true → 0 < n) : Legible d n (.list [])
  | list {n : Nat} {items : List Data} (h : ∀ x ∈ items, Legible d n x) :
      Legible d (n + 1) (.list items)
  | emptyRecord {n : Nat} (h : d.countsEmpty = true → 0 < n) : Legible d n (.record [])
  | record {n : Nat} {members : List (Text × Data)} (hkeys : ∀ m ∈ members, d.Allows m.1)
      (h : ∀ m ∈ members, Legible d n m.2) : Legible d (n + 1) (.record members)

variable {d d' : Dialect} {n k : Nat} {v : Data} {t : Text}

theorem Legible.mono (h : Legible d n v) (hk : n ≤ k) : Legible d k v := by
  induction h generalizing k with
  | null => exact .null k
  | bool _ b => exact .bool k b
  | int h => exact .int h
  | float h => exact .float h
  | text h => exact .text h
  | emptyList h => exact .emptyList fun hc => Nat.lt_of_lt_of_le (h hc) hk
  | list _ ih =>
    obtain ⟨j, rfl⟩ := Nat.exists_eq_add_of_le' (Nat.le_trans (Nat.le_add_left 1 _) hk)
    exact .list fun x hx => ih x hx (by omega)
  | emptyRecord h => exact .emptyRecord fun hc => Nat.lt_of_lt_of_le (h hc) hk
  | record hkeys _ ih =>
    obtain ⟨j, rfl⟩ := Nat.exists_eq_add_of_le' (Nat.le_trans (Nat.le_add_left 1 _) hk)
    exact .record hkeys fun m hm => ih m hm (by omega)

/-- What any dialect reads is legible, with one more level, in one that takes lone halves. -/
theorem Legible.weaken (h : Legible d n v) (hhalves : d'.halves = true) : Legible d' (n + 1) v := by
  induction h with
  | null n => exact .null _
  | bool n b => exact .bool _ b
  | int h => exact .int h
  | float h => exact .float h
  | text _ => exact .text (Or.inl hhalves)
  | emptyList _ => exact .emptyList fun _ => Nat.succ_pos _
  | list _ ih => exact .list ih
  | emptyRecord _ => exact .emptyRecord fun _ => Nat.succ_pos _
  | record _ _ ih => exact .record (fun _ _ => Or.inl hhalves) ih

theorem Legible.settled (h : Legible d n v) : Legible d n v.settled := by
  induction h with
  | null n => exact .null n
  | bool n b => exact .bool n b
  | int h => exact .int h
  | float h => exact .float h
  | text h => exact .text h
  | emptyList h => exact .emptyList h
  | list _ ih =>
    rw [Data.settled_list]
    refine .list fun x hx => ?_
    obtain ⟨y, hy, rfl⟩ := List.mem_map.mp hx
    exact ih y hy
  | emptyRecord h => exact .emptyRecord h
  | record hkeys _ ih =>
    rw [Data.settled_record]
    refine .record (fun m hm => ?_) fun m hm => ?_
    · obtain ⟨y, hy, rfl⟩ := List.mem_map.mp (mem_of_mem_lastOfEach hm)
      exact hkeys y hy
    · obtain ⟨y, hy, rfl⟩ := List.mem_map.mp (mem_of_mem_lastOfEach hm)
      exact ih y hy

theorem Dialect.Allows.joined (h : d.Allows t) : d.Allows t.joined := by
  rcases h with h | h
  · exact Or.inl h
  · rw [Text.joined_of_isScalar h]; exact Or.inr h

theorem Legible.joined (h : Legible d n v) : Legible d n v.joined := by
  induction h with
  | null n => exact .null n
  | bool n b => exact .bool n b
  | int h => exact .int h
  | float h => exact .float h
  | text h => exact .text h.joined
  | emptyList h => exact .emptyList h
  | list _ ih =>
    rw [Data.joined_list]
    refine .list fun x hx => ?_
    obtain ⟨y, hy, rfl⟩ := List.mem_map.mp hx
    exact ih y hy
  | emptyRecord h => exact .emptyRecord h
  | record hkeys _ ih =>
    rw [Data.joined_record]
    refine .record (fun m hm => ?_) fun m hm => ?_
    · obtain ⟨y, hy, rfl⟩ := List.mem_map.mp hm
      exact (hkeys y hy).joined
    · obtain ⟨y, hy, rfl⟩ := List.mem_map.mp hm
      exact ih y hy

/-- Without lone halves there is nothing to join. -/
theorem Legible.joined_eq (h : Legible d n v) (hhalves : d.halves = false) : v.joined = v := by
  have hscalar : ∀ t, d.Allows t → t.joined = t := by
    intro t ht
    rcases ht with ht | ht
    · rw [hhalves] at ht; cases ht
    · exact Text.joined_of_isScalar ht
  induction h with
  | null | bool | int | float | emptyList | emptyRecord => rfl
  | text h => exact congrArg Data.text (hscalar _ h)
  | list _ ih =>
    rw [Data.joined_list, List.map_congr_left ih, List.map_id']
  | record hkeys _ ih =>
    rw [Data.joined_record]
    refine congrArg Data.record ((List.map_congr_left fun m hm => ?_).trans (List.map_id _))
    rw [hscalar _ (hkeys m hm), ih m hm]
    rfl

/-! ## Members -/

/-- The members of a record are legible in some levels. -/
def LegibleMembers (d : Dialect) (n : Nat) (members : List (Text × Data)) : Prop :=
  ∀ m ∈ members, d.Allows m.1 ∧ Legible d n m.2

theorem LegibleMembers.nil : LegibleMembers d n [] := List.forall_mem_nil _

theorem LegibleMembers.cons {members : List (Text × Data)} (hkey : t.isScalar = true)
    (hv : Legible d n v) (h : LegibleMembers d n members) : LegibleMembers d n ((t, v) :: members) :=
  List.forall_mem_cons.mpr ⟨⟨Or.inr hkey, hv⟩, h⟩

theorem LegibleMembers.append {ms ms' : List (Text × Data)} (h : LegibleMembers d n ms)
    (h' : LegibleMembers d n ms') : LegibleMembers d n (ms ++ ms') := by
  intro m hm
  rcases List.mem_append.mp hm with hm | hm
  · exact h m hm
  · exact h' m hm

theorem LegibleMembers.toRecord {members : List (Text × Data)} (h : LegibleMembers d n members) :
    Legible d (n + 1) (.record members) :=
  .record (fun m hm => (h m hm).1) fun m hm => (h m hm).2

theorem Legible.listMap {items : List α} {f : α → Data} (h : ∀ x ∈ items, Legible d n (f x)) :
    Legible d (n + 1) (.list (items.map f)) := by
  refine .list fun y hy => ?_
  obtain ⟨x, hx, rfl⟩ := List.mem_map.mp hy
  exact h x hx

end Json
end ManifestGraph
