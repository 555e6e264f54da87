/-
  Ways down through a graph, and when there is only one. Two ways to one node join somewhere: two nodes
  on them share a child. So without cycles there is one way just if no two nodes do (`oneWay_iff`).
-/
import Mathlib.Logic.Relation

namespace ManifestGraph

open Relation (ReflTransGen TransGen)

variable {α : Type} {edge : α → α → Prop} {a b b' c : α} {way way' : List α}

/-- A way down from a node, told by the nodes that it gets to, the last one first. -/
inductive Way (edge : α → α → Prop) (a : α) : List α → α → Prop where
  | here : Way edge a [] a
  | step {way : List α} {b c : α} (h : Way edge a way b) (hc : edge b c) : Way edge a (c :: way) c

/-- There is at most one way from a node to another. -/
def OneWay (edge : α → α → Prop) (a c : α) : Prop :=
  ∀ way way', Way edge a way c → Way edge a way' c → way = way'

/-- Ways from `a` to `c` go over `b` and over `b'`, and join in a child of both. -/
structure Join (edge : α → α → Prop) (a c b b' : α) : Prop where
  left : ReflTransGen edge a b
  right : ReflTransGen edge a b'
  child : ∃ x, edge b x ∧ edge b' x ∧ ReflTransGen edge x c

theorem Join.symm (h : Join edge a c b b') : Join edge a c b' b := by
  obtain ⟨x, hx, hx', hc⟩ := h.child
  exact ⟨h.right, h.left, x, hx', hx, hc⟩

theorem Way.reach (h : Way edge a way c) : ReflTransGen edge a c := by
  induction h with
  | here => exact .refl
  | step _ hc ih => exact ih.tail hc

theorem exists_way (h : ReflTransGen edge a c) : ∃ way, Way edge a way c := by
  induction h with
  | refl => exact ⟨[], .here⟩
  | tail _ hc ih =>
    obtain ⟨way, hway⟩ := ih
    exact ⟨_, hway.step hc⟩

theorem Way.append (h : Way edge a way b) (h' : Way edge b way' c) :
    Way edge a (way' ++ way) c := by
  induction h' with
  | here => exact h
  | step _ hc ih => exact ih.step hc

/-- A way tells where it ends. -/
theorem Way.end_eq (h : Way edge a way b) (h' : Way edge a way b') : b = b' := by
  cases h with
  | here => cases h'; rfl
  | step _ _ => cases h'; rfl

/-- There is one way just if no two nodes on ways join. -/
theorem oneWay_iff (hacyclic : ∀ x, ¬TransGen edge x x) :
    OneWay edge a c ↔ ∀ b b', Join edge a c b b' → b = b' := by
  constructor
  · rintro hone b b' ⟨hb, hb', x, hx, hx', hc⟩
    obtain ⟨way, hway⟩ := exists_way hb
    obtain ⟨way', hway'⟩ := exists_way hb'
    obtain ⟨rest, hrest⟩ := exists_way hc
    have heq := hone _ _ ((hway.step hx).append hrest) ((hway'.step hx').append hrest)
    obtain rfl : way = way' := (List.cons.inj (List.append_cancel_left heq)).2
    exact hway.end_eq hway'
  · intro hjoin way way' hway
    induction hway generalizing way' with
    | here =>
      rintro (_ | ⟨hway', hc⟩)
      · rfl
      · exact absurd (TransGen.tail' hway'.reach hc) (hacyclic a)
    | @step way b c hway hc ih =>
      rintro (_ | ⟨hway', hc'⟩)
      · exact absurd (TransGen.tail' hway.reach hc) (hacyclic _)
      · obtain rfl := hjoin _ _ ⟨hway.reach, hway'.reach, _, hc, hc', .refl⟩
        -- what joins on the way to the last node but one joins on the way to the last one too
        rw [ih (fun y z h => hjoin y z ⟨h.left, h.right, ?_⟩) _ hway']
        obtain ⟨x, hx, hx', hb⟩ := h.child
        exact ⟨x, hx, hx', hb.tail hc⟩

end ManifestGraph
