/-
  Fits that agree: what is made of two values is related, or both are wrong in the same places
  (`Fit.Agree`). Agreement passes through the steps of which a model is made, so that a model which takes no
  notice of some part of a value can be shown to make the same of the value without it.
-/
import ManifestGraph.Proofs.Data.Fit

namespace ManifestGraph

namespace Fit

variable {α α' β β' γ : Type} {R : α → α' → Prop} {S : β → β' → Prop} {x : Fit α} {y : Fit α'}

/-- Both fit and what they give is related, or both are wrong in the same places. -/
inductive Agree (R : α → β → Prop) : Fit α → Fit β → Prop where
  | ok {a : α} {b : β} (h : R a b) : Agree R (.ok a) (.ok b)
  | bad (misfits : List Misfit) : Agree R (.bad misfits) (.bad misfits)

theorem agree_of_eq {x y : Fit α} (h : x = y) : Agree (· = ·) x y := by
  rw [h]
  cases y with
  | ok a => exact .ok rfl
  | bad misfits => exact .bad misfits

theorem Agree.mono {R' : α → α' → Prop} (hx : Agree R x y) (h : ∀ a b, R a b → R' a b) : Agree R' x y := by
  cases hx with
  | ok hR => exact .ok (h _ _ hR)
  | bad misfits => exact .bad misfits

theorem Agree.map {f : α → β} {g : α' → β'} (hx : Agree R x y) (h : ∀ a b, R a b → S (f a) (g b)) :
    Agree S (f <$> x) (g <$> y) := by
  cases hx with
  | ok hR => exact .ok (h _ _ hR)
  | bad misfits => exact .bad misfits

theorem Agree.seq {f : Fit (α → β)} {g : Fit (α' → β')}
    (hf : Agree (fun f g => ∀ a b, R a b → S (f a) (g b)) f g) (hx : Agree R x y) :
    Agree S (f <*> x) (g <*> y) := by
  cases hf with
  | ok hS =>
    cases hx with
    | ok hR => exact .ok (hS _ _ hR)
    | bad misfits => exact .bad misfits
  | bad misfits =>
    cases hx with
    | ok _ => exact .bad misfits
    | bad others => exact .bad (misfits ++ others)

theorem Agree.under (hx : Agree R x y) (s : Step) : Agree R (x.under s) (y.under s) := by
  cases hx with
  | ok hR => exact .ok hR
  | bad misfits => exact .bad _

/-- What agrees up to what is seen of it looks the same. -/
theorem Agree.map_eq {f : α → γ} {g : α' → γ} (h : Agree (fun a b => f a = g b) x y) :
    x.map f = y.map g := by
  cases h with
  | ok h => exact congrArg Fit.ok h
  | bad misfits => rfl

/-- The items of a list agree with what they were changed to, one by one. -/
theorem agree_items {R : α → α → Prop} {fit : Data → Fit α} {f : Data → Data}
    (h : ∀ d, Agree R (fit (f d)) (fit d)) (n : Nat) (ds : List Data) :
    Agree (List.Forall₂ R) (items fit n (ds.map f)) (items fit n ds) := by
  induction ds generalizing n with
  | nil => exact .ok .nil
  | cons d ds ih =>
    exact (((h d).under (.index n)).map fun _ _ hR _ _ hRs => .cons hR hRs).seq (ih (n + 1))

end Fit

/-! ## Changed values -/

namespace Data

/-- A list with every item changed. -/
def mapItems (f : Data → Data) : Data → Data
  | .list ds => .list (ds.map f)
  | d => d

/-- A record with the members under some names changed. -/
def mapAt (names : List Text) (f : Data → Data) : Data → Data
  | .record ms => .record (ms.map fun m => if m.1 ∈ names then (m.1, f m.2) else m)
  | d => d

/-- A record without the members under a name. -/
def without (name : Text) : Data → Data
  | .record ms => .record (ms.filter fun m => m.1 ≠ name)
  | d => d

theorem agree_fitList {α : Type} {R : α → α → Prop} {fit : Data → Fit α} {f : Data → Data}
    (h : ∀ d, Fit.Agree R (fit (f d)) (fit d)) (d : Data) :
    Fit.Agree (List.Forall₂ R) (fitList fit (mapItems f d)) (fitList fit d) := by
  cases d with
  | list ds => exact Fit.agree_items h 0 ds
  | _ => exact .bad _

end Data

namespace Members

variable {α : Type} {R : α → α → Prop} {ms ms' : Members} {name : Text} {names : List Text}
  {fit : Data → Fit α} {absent : α} {f : Data → Data}

theorem lookup_mapAt (name : Text) (names : List Text) (f : Data → Data) (ms : Members) :
    List.lookup name (lastOfEach (ms.map fun m => if m.1 ∈ names then (m.1, f m.2) else m)) =
      if name ∈ names then (List.lookup name (lastOfEach ms)).map f
      else List.lookup name (lastOfEach ms) := by
  have hlookup : ∀ ms : Members,
      List.lookup name (ms.map fun m => if m.1 ∈ names then (m.1, f m.2) else m) =
        if name ∈ names then (List.lookup name ms).map f else List.lookup name ms := by
    intro ms
    induction ms with
    | nil => exact (ite_self _).symm
    | cons m ms ih =>
      rw [List.map_cons, lookup_cons_if, lookup_cons_if, ih]
      by_cases hm : name = m.1
      · rw [hm]
        by_cases hmem : m.1 ∈ names
        · rw [if_pos hmem, if_pos rfl, if_pos rfl, if_pos hmem]; rfl
        · rw [if_neg hmem, if_pos rfl, if_pos rfl, if_neg hmem]
      · have hkey : name ≠ (if m.1 ∈ names then (m.1, f m.2) else m).1 := by
          split
          next => exact hm
          next => exact hm
        rw [if_neg hkey, if_neg hm]
  rw [lookup_lastOfEach, lookup_lastOfEach, ← List.map_reverse, hlookup]

theorem lookup_without (name erased : Text) (ms : Members) :
    List.lookup name (lastOfEach (ms.filter fun m => m.1 ≠ erased)) =
      if name = erased then none else List.lookup name (lastOfEach ms) := by
  have hlookup : ∀ ms : Members, List.lookup name (ms.filter fun m => m.1 ≠ erased) =
      if name = erased then none else List.lookup name ms := by
    intro ms
    induction ms with
    | nil => exact (ite_self _).symm
    | cons m ms ih =>
      by_cases hm : m.1 = erased
      · rw [List.filter_cons_of_neg (by simpa using hm), ih, lookup_cons_if, hm]
        by_cases hname : name = erased
        · rw [if_pos hname, if_pos hname]
        · rw [if_neg hname, if_neg hname, if_neg hname]
      · rw [List.filter_cons_of_pos (by simpa using hm), lookup_cons_if, ih, lookup_cons_if]
        by_cases hname : name = m.1
        · rw [if_pos hname, if_pos hname, if_neg (hname ▸ hm)]
        · rw [if_neg hname, if_neg hname]
  rw [lookup_lastOfEach, lookup_lastOfEach, ← List.filter_reverse, hlookup]

theorem find?_of_lookup (h : ∀ name ∈ names, List.lookup name ms = (List.lookup name ms').map f) :
    ms.find? names = (ms'.find? names).map fun m => (m.1, f m.2) := by
  induction names with
  | nil => rfl
  | cons name names ih =>
    obtain ⟨hname, hnames⟩ := List.forall_mem_cons.mp h
    rw [find?, find?, hname, ih hnames]
    cases List.lookup name ms' <;> rfl

/-- A member that was changed agrees if its model takes no notice of the change. -/
theorem agree_withDefault (h : ∀ name ∈ names, List.lookup name ms = (List.lookup name ms').map f)
    (habsent : R absent absent) (hfit : ∀ d, Fit.Agree R (fit (f d)) (fit d)) :
    Fit.Agree R (ms.withDefault names absent fit) (ms'.withDefault names absent fit) := by
  unfold withDefault
  rw [find?_of_lookup h]
  cases ms'.find? names with
  | none => exact .ok habsent
  | some m => exact (hfit m.2).under _

/-- A member that was not changed fits as it did. -/
theorem agree_withDefault_same (h : ∀ name ∈ names, List.lookup name ms = List.lookup name ms') :
    Fit.Agree (· = ·) (ms.withDefault names absent fit) (ms'.withDefault names absent fit) :=
  agree_withDefault (f := id) (fun name hname => by rw [h name hname, Option.map_id_fun, id]) rfl
    fun d => Fit.agree_of_eq rfl

theorem agree_mapAt (ms : Members) (names : List Text) (habsent : R absent absent)
    (hfit : ∀ d, Fit.Agree R (fit (f d)) (fit d)) : Fit.Agree R
      (withDefault (lastOfEach (ms.map fun m => if m.1 ∈ names then (m.1, f m.2) else m)) names absent fit)
      (withDefault (lastOfEach ms) names absent fit) :=
  agree_withDefault (fun name hname => (lookup_mapAt name names f ms).trans (if_pos hname)) habsent hfit

theorem agree_mapAt_same {others : List Text} (h : ∀ name ∈ others, name ∉ names) :
    Fit.Agree (· = ·)
      (withDefault (lastOfEach (ms.map fun m => if m.1 ∈ names then (m.1, f m.2) else m)) others absent fit)
      (withDefault (lastOfEach ms) others absent fit) :=
  agree_withDefault_same fun name hname => (lookup_mapAt name names f ms).trans (if_neg (h name hname))

end Members
end ManifestGraph
