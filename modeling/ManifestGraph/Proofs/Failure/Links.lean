/-
  The walk along the links of error objects. From every object of a finite set it ends, also where the
  links form cycles: it visits the object itself and then one object after the other where each leads,
  none of them twice, until there is no link or it leads back (`follows_iff`; there is one such path).
  The failure that an object stands for lists that path, so what a failure reports comes from the first
  object on the path that reports something (`walk_faithful`).
-/
import ManifestGraph.Failure.Links
import Mathlib.Data.List.Chain
import Mathlib.Data.List.Nodup
import Mathlib.Data.List.Perm.Subperm

namespace ManifestGraph.Failure

/-! ## Where an object leads -/

/-- What an object names is there: its cause; an attached object if there is no cause; its context if there
is neither and it is not hidden. -/
inductive Link.Designates (l : Link) (m : Nat) : Prop where
  | cause (h : l.cause = some m)
  | attached (hcause : l.cause = none) (h : l.attached = some m)
  | context (hcause : l.cause = none) (hattached : l.attached = none) (hshown : l.contextHidden = false)
      (h : l.context = some m)

namespace Links

/-- An object of the set leads to another one. -/
def Leads (ls : Links) (n m : Nat) : Prop := ∃ l, ls[n]? = some l ∧ l.Designates m

/-- Every link leads to an object of the set. -/
def Closed (ls : Links) : Prop :=
  ∀ l ∈ ls, ∀ m ∈ l.cause.toList ++ l.attached.toList ++ l.context.toList, m < ls.length

instance (ls : Links) : Decidable ls.Closed :=
  inferInstanceAs (Decidable (∀ l ∈ ls, ∀ m ∈ l.cause.toList ++ l.attached.toList ++ l.context.toList, _))

variable {ls : Links} {start n m fuel : Nat} {seen path : List Nat} {upcoming : Option Nat} {e : Failure}

theorem next_eq_some_iff : ls.next n = some m ↔ ls.Leads n m := by
  unfold next Leads
  cases hn : ls[n]? with
  | none => simp
  | some l =>
    dsimp only
    simp only [Option.some.injEq, exists_eq_left']
    constructor
    · intro h
      split at h
      next hcause => exact .cause (hcause.trans h)
      next hcause hattached => exact .attached hcause (hattached.trans h)
      next hcause hattached =>
        split at h
        next => cases h
        next hshown => exact .context hcause hattached (by simpa using hshown) h
    · rintro (h | ⟨hcause, h⟩ | ⟨hcause, hattached, hshown, h⟩)
      · rw [h]
      · rw [hcause, h]
      · rw [hcause, hattached, hshown]
        simpa using h

theorem Leads.lt (h : ls.Leads n m) : n < ls.length := by
  obtain ⟨l, hl, _⟩ := h
  exact (List.getElem?_eq_some_iff.mp hl).1

theorem Leads.eq {k : Nat} (h : ls.Leads n m) (h' : ls.Leads n k) : m = k :=
  Option.some.inj ((next_eq_some_iff.mpr h).symm.trans (next_eq_some_iff.mpr h'))

theorem Closed.lt (hlinks : ls.Closed) (h : ls.Leads n m) : m < ls.length := by
  obtain ⟨l, hl, hm⟩ := h
  refine hlinks l (List.mem_of_getElem? hl) m ?_
  cases hm with
  | cause h => simp [h]
  | attached _ h => simp [h]
  | context _ _ _ h => simp [h]

/-! ## The walk under way -/

/-- What the walk from an object gets to: the objects it has visited, the latest first, and the one that
comes up next. -/
inductive Underway (ls : Links) (start : Nat) : List Nat → Option Nat → Prop where
  | start : Underway ls start [] (some start)
  | visit {seen : List Nat} {n : Nat} (h : Underway ls start seen (some n)) (hn : n ∉ seen) :
      Underway ls start (n :: seen) (ls.next n)

namespace Underway

theorem nodup (h : Underway ls start seen upcoming) : seen.Nodup := by
  induction h with
  | start => exact List.nodup_nil
  | visit _ hn ih => exact List.nodup_cons.mpr ⟨hn, ih⟩

/-- After the first object the walk goes where the latest one leads. -/
theorem upcoming_eq (h : Underway ls start (n :: seen) upcoming) : upcoming = ls.next n := by
  cases h with
  | visit => rfl

theorem getLast?_eq (h : Underway ls start (n :: seen) upcoming) :
    (n :: seen).getLast? = some start := by
  generalize hs : n :: seen = visited at h
  induction h generalizing n seen with
  | start => cases hs
  | @visit visited k h _ ih =>
    cases visited with
    | nil => cases h; rfl
    | cons k' visited => rw [List.getLast?_cons_cons]; exact ih rfl

theorem chain (h : Underway ls start seen upcoming) : seen.IsChain fun b a => ls.Leads a b := by
  induction h with
  | start => exact .nil
  | @visit seen n h _ ih =>
    cases seen with
    | nil => exact .singleton n
    | cons a seen => exact .cons_cons (next_eq_some_iff.mp h.upcoming_eq.symm) ih

theorem lt (h : Underway ls start seen upcoming) (hlinks : ls.Closed) (hstart : start < ls.length) :
    (∀ n ∈ seen, n < ls.length) ∧ ∀ n ∈ upcoming, n < ls.length := by
  induction h with
  | start => exact ⟨fun _ hn => absurd hn List.not_mem_nil, fun n hn => Option.some.inj hn ▸ hstart⟩
  | visit _ _ ih =>
    refine ⟨List.forall_mem_cons.mpr ⟨ih.2 _ rfl, ih.1⟩, fun m hm => ?_⟩
    exact hlinks.lt (next_eq_some_iff.mp hm)

/-- No more objects are visited than there are. -/
theorem length_le (h : Underway ls start seen upcoming) (hlinks : ls.Closed)
    (hstart : start < ls.length) : seen.length ≤ ls.length := by
  have hsub : seen ⊆ List.range ls.length := fun n hn =>
    List.mem_range.mpr ((h.lt hlinks hstart).1 n hn)
  simpa using (h.nodup.subperm hsub).length_le

end Underway

/-- The bound is never reached: the walk ends where nothing comes up or what comes up was visited. -/
theorem exists_walkFrom_eq (h : Underway ls start seen upcoming) (hlinks : ls.Closed)
    (hstart : start < ls.length) (hfuel : ls.length < fuel + seen.length) :
    ∃ visited last, Underway ls start visited last ∧ (∀ n ∈ last, n ∈ visited) ∧
      walkFrom ls fuel seen upcoming = visited.reverse := by
  induction fuel generalizing seen upcoming with
  | zero =>
    have := h.length_le hlinks hstart
    omega
  | succ fuel ih =>
    cases upcoming with
    | none => exact ⟨seen, none, h, fun _ hn => absurd hn (Option.not_mem_none _), rfl⟩
    | some n =>
      rw [walkFrom]
      by_cases hn : n ∈ seen
      · rw [if_pos (by simpa using hn)]
        exact ⟨seen, some n, h, fun m hm => Option.some.inj hm ▸ hn, rfl⟩
      · rw [if_neg (by simpa using hn)]
        exact ih (h.visit hn) (by rw [List.length_cons]; omega)

/-! ## The path of a walk -/

/-- The path that the links of an object mark out: it starts with the object, goes from each object to the
one that it leads to, meets none twice, and stops only where there is no link or it leads back. -/
structure Follows (ls : Links) (start : Nat) (path : List Nat) : Prop where
  starts : path.head? = some start
  distinct : path.Nodup
  leads : path.IsChain ls.Leads
  stops : ∀ n ∈ path.getLast?, ∀ m, ls.Leads n m → m ∈ path

theorem follows_walk (hlinks : ls.Closed) (hstart : start < ls.length) :
    ls.Follows start (ls.walk start) := by
  have hfuel : ls.length < ls.length + 1 + ([] : List Nat).length := Nat.lt_succ_self _
  obtain ⟨visited, last, h, hlast, hwalk⟩ :=
    exists_walkFrom_eq (Underway.start : Underway ls start [] (some start)) hlinks hstart hfuel
  rw [walk, hwalk]
  cases visited with
  | nil =>
    cases h
    exact absurd (hlast start rfl) List.not_mem_nil
  | cons n seen =>
    refine ⟨?_, List.nodup_reverse.mpr h.nodup, List.isChain_reverse.mpr h.chain, ?_⟩
    · rw [List.head?_reverse, h.getLast?_eq]
    · intro k hk m hm
      rw [List.getLast?_reverse, List.head?_cons] at hk
      obtain rfl := Option.some.inj hk
      rw [h.upcoming_eq] at hlast
      exact List.mem_reverse.mpr (hlast m (next_eq_some_iff.mpr hm))

/-- The object after another one is the one it leads to, if that has not been met. -/
theorem Follows.getElem?_succ {k : Nat} (h : ls.Follows start path) (hn : path[k]? = some n) :
    path[k + 1]? = some m ↔ ls.Leads n m ∧ m ∉ path.take (k + 1) := by
  obtain ⟨hk, rfl⟩ := List.getElem?_eq_some_iff.mp hn
  have hnext : ∀ hk' : k + 1 < path.length, ls.Leads path[k] path[k + 1] :=
    fun hk' => List.isChain_iff_getElem.mp h.leads k hk'
  constructor
  · intro hm
    obtain ⟨hk', rfl⟩ := List.getElem?_eq_some_iff.mp hm
    refine ⟨hnext hk', fun hmem => ?_⟩
    obtain ⟨j, hj, heq⟩ := List.mem_take_iff_getElem.mp hmem
    have := (h.distinct.getElem_inj_iff).mp heq
    omega
  · rintro ⟨hlead, hnew⟩
    by_cases hk' : k + 1 < path.length
    · rw [List.getElem?_eq_getElem hk', (hnext hk').eq hlead]
    · -- the object is the last one: where it leads was met
      have hlast : path.getLast? = some path[k] := by
        rw [List.getLast?_eq_getElem?, ← List.getElem?_eq_getElem hk]
        congr 1
        omega
      rw [List.take_of_length_le (by omega)] at hnew
      exact absurd (h.stops _ hlast m hlead) hnew

/-- The links of an object mark out one path. -/
theorem Follows.eq {path' : List Nat} (h : ls.Follows start path) (h' : ls.Follows start path') :
    path = path' := by
  have htake : ∀ k, path.take k = path'.take k := by
    intro k
    induction k with
    | zero => rfl
    | succ k ih =>
      rw [List.take_add_one, List.take_add_one, ih]
      congr 2
      cases k with
      | zero => rw [← List.head?_eq_getElem?, ← List.head?_eq_getElem?, h.starts, h'.starts]
      | succ k =>
        have hk : path[k]? = path'[k]? := by
          rw [← List.getElem?_take_of_lt k.lt_succ_self, ih, List.getElem?_take_of_lt k.lt_succ_self]
        cases hn : path[k]? with
        | none =>
          have hlength := List.getElem?_eq_none_iff.mp hn
          have hlength' := List.getElem?_eq_none_iff.mp (hk ▸ hn)
          rw [List.getElem?_eq_none (by omega), List.getElem?_eq_none (by omega)]
        | some n =>
          ext m
          rw [h.getElem?_succ hn, h'.getElem?_succ (hk ▸ hn), ih]
  have hall := htake (path.length + path'.length)
  rwa [List.take_of_length_le (by omega), List.take_of_length_le (by omega)] at hall

/-- The walk from an object of the set is the path that the links mark out. -/
theorem follows_iff (hlinks : ls.Closed) (hstart : start < ls.length) :
    ls.Follows start path ↔ path = ls.walk start := by
  constructor
  · exact fun h => h.eq (follows_walk hlinks hstart)
  · rintro rfl
    exact follows_walk hlinks hstart

theorem Follows.lt (h : ls.Follows start path) (hlinks : ls.Closed) (hstart : start < ls.length)
    (hn : n ∈ path) : n < ls.length := by
  obtain ⟨k, hk, rfl⟩ := List.mem_iff_getElem.mp hn
  cases k with
  | zero =>
    have hfirst := h.starts
    rw [List.head?_eq_getElem?, List.getElem?_eq_getElem hk] at hfirst
    rwa [Option.some.inj hfirst]
  | succ k => exact hlinks.lt (List.isChain_iff_getElem.mp h.leads k hk)

/-! ## The failure that an object stands for -/

/-- The fault of an object of the set. -/
def faultAt (ls : Links) (n : Nat) : Option Fault := (ls[n]?).map Link.fault

/-- How a path ends: with an object without a link, or with one that leads back to a place of the path. -/
inductive Ends (ls : Links) (path : List Nat) : Option Nat → Prop where
  | nowhere {last : Nat} (hlast : path.getLast? = some last) (h : ls.next last = none) : Ends ls path none
  | back {last m b : Nat} (hlast : path.getLast? = some last) (h : ls.next last = some m)
      (hb : path[b]? = some m) : Ends ls path (some b)

/-- A failure lists the faults of a path and says how the path ends. -/
structure Lists (ls : Links) (path : List Nat) (e : Failure) : Prop where
  faults : e.chain.map some = path.map ls.faultAt
  ends : Ends ls path e.back

theorem Ends.eq {back back' : Option Nat} (h : Ends ls path back) (h' : Ends ls path back')
    (hdistinct : path.Nodup) : back = back' := by
  cases h with
  | nowhere hlast hnext =>
    cases h' with
    | nowhere => rfl
    | back hlast' hnext' _ =>
      obtain rfl := Option.some.inj (hlast.symm.trans hlast')
      rw [hnext] at hnext'
      cases hnext'
  | back hlast hnext hb =>
    cases h' with
    | nowhere hlast' hnext' =>
      obtain rfl := Option.some.inj (hlast.symm.trans hlast')
      rw [hnext] at hnext'
      cases hnext'
    | back hlast' hnext' hb' =>
      obtain rfl := Option.some.inj (hlast.symm.trans hlast')
      obtain rfl := Option.some.inj (hnext.symm.trans hnext')
      obtain ⟨hlt, _⟩ := List.getElem?_eq_some_iff.mp hb
      rw [(List.getElem?_inj hlt hdistinct).mp (hb.trans hb'.symm)]

theorem Lists.eq {e' : Failure} (h : ls.Lists path e) (h' : ls.Lists path e') (hdistinct : path.Nodup) :
    e = e' := by
  have hchain : e.chain = e'.chain :=
    List.map_injective_iff.mpr (fun _ _ => Option.some.inj) (h.faults.trans h'.faults.symm)
  have hback := h.ends.eq h'.ends hdistinct
  cases e
  cases e'
  cases hchain
  cases hback
  rfl

theorem Follows.ends (h : ls.Follows start path) :
    Ends ls path ((path.getLast?.bind ls.next).bind fun n => path.findIdx? (· == n)) := by
  cases hlast : path.getLast? with
  | none =>
    have hstart := h.starts
    rw [List.getLast?_eq_none_iff.mp hlast] at hstart
    cases hstart
  | some last =>
    rw [Option.bind_some]
    cases hnext : ls.next last with
    | none => exact .nowhere hlast hnext
    | some m =>
      rw [Option.bind_some]
      have hm : m ∈ path := h.stops last hlast m (next_eq_some_iff.mp hnext)
      cases hb : path.findIdx? (· == m) with
      | none => exact absurd (List.findIdx?_eq_none_iff.mp hb m hm) (by simp)
      | some b =>
        obtain ⟨hlt, heq, _⟩ := List.findIdx?_eq_some_iff_getElem.mp hb
        exact .back hlast hnext (by rw [List.getElem?_eq_getElem hlt, eq_of_beq heq])

theorem map_some_filterMap {α β : Type} {f : α → Option β} {as : List α}
    (h : ∀ a ∈ as, (f a).isSome = true) : (as.filterMap f).map some = as.map f := by
  induction as with
  | nil => rfl
  | cons a as ih =>
    rw [List.forall_mem_cons] at h
    obtain ⟨b, hb⟩ := Option.isSome_iff_exists.mp h.1
    rw [List.filterMap_cons_some hb, List.map_cons, List.map_cons, ih h.2, hb]

/-- An object of the set stands for the failure that lists its path. -/
theorem exists_failure? (hlinks : ls.Closed) (hstart : start < ls.length) :
    ∃ e, ls.failure? start = some e ∧ ls.Lists (ls.walk start) e := by
  have hpath := follows_walk hlinks hstart
  have hknown : ∀ n ∈ ls.walk start, (ls.faultAt n).isSome = true := by
    intro n hn
    rw [faultAt, List.getElem?_eq_getElem (hpath.lt hlinks hstart hn)]
    rfl
  have hfaults := map_some_filterMap hknown
  unfold failure?
  dsimp only
  split
  next hnil =>
    rw [show (fun n => (ls[n]?).map Link.fault) = ls.faultAt from rfl] at hnil
    rw [hnil, List.map_nil, eq_comm, List.map_eq_nil_iff] at hfaults
    have hfirst := hpath.starts
    rw [hfaults] at hfirst
    cases hfirst
  next fault causes hcons =>
    refine ⟨_, rfl, ?_, hpath.ends⟩
    rw [← hfaults]
    exact congrArg (List.map some) hcons.symm

/-! ## The failure that starts at a place of the path -/

/-- A path from one of its places on, and then from where it leads back to up to that place. -/
def turned {α : Type} (path : List α) (back : Option Nat) (place : Nat) : List α :=
  path.drop place ++ match back with
    | some b => (path.take place).drop b
    | none => []

theorem map_turned {α β : Type} (f : α → β) (path : List α) (back : Option Nat) (place : Nat) :
    (turned path back place).map f = turned (path.map f) back place := by
  cases back <;> simp [turned, List.map_drop, List.map_take]

/-- Unless the path leads back to before the place, it goes on from there as before. -/
theorem turned_of_le {α : Type} {path : List α} {back : Option Nat} {place : Nat}
    (h : ∀ b ∈ back, place ≤ b) : turned path back place = path.drop place := by
  cases back with
  | none => simp [turned]
  | some b =>
    have hb := h b rfl
    have hnil : (path.take place).drop b = [] :=
      List.drop_eq_nil_of_le (by rw [List.length_take]; omega)
    simp [turned, hnil]

theorem nodup_turned {α : Type} {path : List α} (back : Option Nat) (place : Nat) (h : path.Nodup) :
    (turned path back place).Nodup := by
  have hparts : (path.drop place ++ path.take place).Nodup := by
    rw [List.nodup_append_comm, List.take_append_drop]
    exact h
  refine hparts.sublist ((List.Sublist.refl _).append ?_)
  cases back with
  | none => exact List.nil_sublist _
  | some b => exact List.drop_sublist b _

theorem getLast?_drop_of_getElem? {α : Type} {path : List α} {place : Nat} {a : α}
    (h : path[place]? = some a) : (path.drop place).getLast? = path.getLast? := by
  rw [List.getLast?_drop, if_neg (Nat.not_le.mpr (List.getElem?_eq_some_iff.mp h).1)]

/-- A path that leads back to before the place ends just before the place. -/
theorem getLast?_turned {α : Type} {path : List α} {b place : Nat} (hb : b ≤ place)
    (hplace : place < path.length) : (turned path (some b) (place + 1)).getLast? = path[place]? := by
  have hround : ((path.take (place + 1)).drop b).getLast? = path[place]? := by
    rw [List.getLast?_drop, if_neg (by rw [List.length_take]; omega), List.getLast?_take,
      if_neg (Nat.succ_ne_zero place), Nat.add_sub_cancel, List.getElem?_eq_getElem hplace]
    rfl
  rw [turned, List.getLast?_append, hround, List.getElem?_eq_getElem hplace]
  rfl

/-- An end that leads back stops a path. -/
theorem follows_of_ends {back : Option Nat} (hstarts : path.head? = some start) (hdistinct : path.Nodup)
    (hleads : path.IsChain ls.Leads) (hends : Ends ls path back) : ls.Follows start path := by
  refine ⟨hstarts, hdistinct, hleads, fun n hn m hm => ?_⟩
  have hnext := next_eq_some_iff.mpr hm
  cases hends with
  | nowhere hlast hnone =>
    obtain rfl := Option.some.inj (hlast.symm.trans hn)
    rw [hnone] at hnext
    cases hnext
  | back hlast hsome hb =>
    obtain rfl := Option.some.inj (hlast.symm.trans hn)
    obtain rfl := Option.some.inj (hsome.symm.trans hnext)
    exact List.mem_of_getElem? hb

/-- The path from one of its places on is the path that the object there marks out. -/
theorem follows_turned {place : Nat} {back : Option Nat} (h : ls.Follows start path)
    (hends : Ends ls path back) (hn : path[place]? = some n) :
    ls.Follows n (turned path back place) ∧
      Ends ls (turned path back place) (back.map fun b => b - place) := by
  have hhead : (turned path back place).head? = some n := by
    unfold turned
    rw [List.head?_append, List.head?_drop, hn]
    rfl
  suffices hnew : (turned path back place).IsChain ls.Leads ∧
      Ends ls (turned path back place) (back.map fun b => b - place) from
    ⟨follows_of_ends hhead (nodup_turned back place h.distinct) hnew.1 hnew.2, hnew.2⟩
  have hlast' := getLast?_drop_of_getElem? hn
  by_cases hle : ∀ b ∈ back, place ≤ b
  · rw [turned_of_le hle]
    refine ⟨h.leads.drop place, ?_⟩
    cases hends with
    | nowhere hlast hnext => exact .nowhere (hlast'.trans hlast) hnext
    | back hlast hnext hb =>
      refine .back (hlast'.trans hlast) hnext ?_
      rw [List.getElem?_drop, Nat.add_sub_cancel' (hle _ rfl), hb]
  · -- the path leads back to before the place, so what lies between comes after its end
    cases hends with
    | nowhere => simp at hle
    | @back last m b hlast hnext hb =>
      have hb' : b < place := by simpa using hle
      obtain ⟨k, rfl⟩ : ∃ k, place = k + 1 := Nat.exists_eq_succ_of_ne_zero (by omega)
      obtain ⟨hk, hnk⟩ := List.getElem?_eq_some_iff.mp hn
      have hlead : ls.next path[k] = some n :=
        next_eq_some_iff.mpr (hnk ▸ List.isChain_iff_getElem.mp h.leads k hk)
      constructor
      · refine List.isChain_append.mpr ⟨h.leads.drop _, (h.leads.take _).drop b, fun x hx y hy => ?_⟩
        rw [hlast', hlast] at hx
        rw [List.head?_drop, List.getElem?_take_of_lt hb', hb] at hy
        obtain rfl := Option.some.inj hx
        obtain rfl := Option.some.inj hy
        exact next_eq_some_iff.mp hnext
      · have hend : (turned path (some b) (k + 1)).getLast? = some path[k] := by
          rw [getLast?_turned (Nat.lt_succ_iff.mp hb') (by omega), List.getElem?_eq_getElem (by omega)]
        have hzero : b - (k + 1) = 0 := by omega
        refine .back hend hlead ?_
        dsimp only
        rw [hzero, ← List.head?_eq_getElem?, hhead]

theorem since_eq_turned (e : Failure) (place : Nat) :
    e.since place = match turned e.chain e.back place with
      | [] => none
      | fault :: causes => some { fault, causes, back := e.back.map fun b => b - place } := rfl

/-- What starts at a place of the path is the failure of the object there. -/
theorem Lists.since_eq {place : Nat} (h : ls.Lists (ls.walk start) e) (hlinks : ls.Closed)
    (hstart : start < ls.length) (hn : (ls.walk start)[place]? = some n) :
    e.since place = ls.failure? n := by
  have hpath := follows_walk hlinks hstart
  obtain ⟨hpath', hends'⟩ := follows_turned hpath h.ends hn
  have hnlt := hpath.lt hlinks hstart (List.mem_of_getElem? hn)
  have hwalk := (follows_iff hlinks hnlt).mp hpath'
  obtain ⟨e', he', hlists⟩ := exists_failure? hlinks hnlt
  rw [he', since_eq_turned]
  have hfaults : (turned e.chain e.back place).map some = (ls.walk n).map ls.faultAt := by
    rw [map_turned, h.faults, ← map_turned, hwalk]
  split
  next hnil =>
    rw [hnil, List.map_nil, eq_comm, List.map_eq_nil_iff, ← hwalk] at hfaults
    have hfirst := hpath'.starts
    rw [hfaults] at hfirst
    cases hfirst
  next fault causes hcons =>
    rw [hcons] at hfaults
    exact congrArg some (Lists.eq ⟨hfaults, hwalk ▸ hends'⟩ hlists (hwalk ▸ hpath'.distinct))

/-! ## What a failure reports -/

/-- The result comes from the first of some objects that has one; there is none just if none of them has. -/
structure FirstOf {α β : Type} (f : α → Option β) (path : List α) (result : Option β) : Prop where
  eq_some_iff : ∀ b, result = some b ↔
    ∃ before a after, path = before ++ a :: after ∧ f a = some b ∧ ∀ x ∈ before, f x = none
  eq_none_iff : result = none ↔ ∀ a ∈ path, f a = none

theorem firstOf_findSome? {α β : Type} (f : α → Option β) (path : List α) :
    FirstOf f path (path.findSome? f) where
  eq_some_iff := fun _ => List.findSome?_eq_some_iff
  eq_none_iff := List.findSome?_eq_none_iff

/-- The exit code that an object of the set reports. -/
def exitCodeAt (ls : Links) (n : Nat) : Option Int :=
  (ls.faultAt n).bind fun f => f.exitMark?.bind codeOf

/-- The object of the set is a structured error. -/
def isCatalogAt (ls : Links) (n : Nat) : Bool :=
  ((ls.faultAt n).bind fun f => f.reason.catalog?).isSome

/-- The failure of an object of the set that is a structured error. -/
def catalogFailureAt (ls : Links) (n : Nat) : Option Failure :=
  if ls.isCatalogAt n then ls.failure? n else none

/-- An exit code is a number: a status, an integer or a truth value. -/
theorem exists_codeOf {f : Fault} {mark : Data} (h : f.exitMark? = some mark) :
    ∃ code, codeOf mark = some code := by
  unfold Fault.exitMark? at h
  split at h <;> cases h <;> exact ⟨_, rfl⟩

theorem exitCode?_eq (e : Failure) :
    e.exitCode? = e.chain.findSome? fun f => f.exitMark?.bind codeOf := by
  unfold exitCode? exitMark?
  induction e.chain with
  | nil => rfl
  | cons f faults ih =>
    rw [List.findSome?_cons, List.findSome?_cons]
    cases hf : f.exitMark? with
    | none => exact ih
    | some mark =>
      obtain ⟨code, hcode⟩ := exists_codeOf hf
      simp only [Option.bind_some, hcode]

/-- What is first among the faults of a failure is first on its path. -/
theorem Lists.findSome?_eq {β : Type} (h : ls.Lists path e) (f : Fault → Option β) :
    e.chain.findSome? f = path.findSome? fun n => (ls.faultAt n).bind f := by
  calc e.chain.findSome? f = (e.chain.map some).findSome? fun o => o.bind f := by
        rw [List.findSome?_map]; rfl
    _ = path.findSome? fun n => (ls.faultAt n).bind f := by
        rw [h.faults, List.findSome?_map]; rfl

theorem Lists.findIdx?_eq (h : ls.Lists path e) :
    (e.chain.findIdx? fun f => f.reason.catalog?.isSome) = path.findIdx? ls.isCatalogAt := by
  calc (e.chain.findIdx? fun f => f.reason.catalog?.isSome)
      = (e.chain.map some).findIdx? fun o => (o.bind fun f => f.reason.catalog?).isSome := by
        rw [List.findIdx?_map]; rfl
    _ = path.findIdx? ls.isCatalogAt := by rw [h.faults, List.findIdx?_map]; rfl

/-- The structured error that is found is the first on the path, with all that it leads to. -/
theorem Lists.sinceCatalog?_eq (h : ls.Lists (ls.walk start) e) (hlinks : ls.Closed)
    (hstart : start < ls.length) :
    e.sinceCatalog? = (ls.walk start).findSome? ls.catalogFailureAt := by
  rw [sinceCatalog?, h.findIdx?_eq]
  cases hplace : (ls.walk start).findIdx? ls.isCatalogAt with
  | none =>
    have hnone := List.findIdx?_eq_none_iff.mp hplace
    symm
    exact List.findSome?_eq_none_iff.mpr fun n hn => if_neg (by simp [hnone n hn])
  | some place =>
    obtain ⟨hlt, hcatalog, hbefore⟩ := List.findIdx?_eq_some_iff_getElem.mp hplace
    have hn := List.getElem?_eq_getElem hlt
    obtain ⟨e', he', _⟩ := exists_failure? hlinks
      ((follows_walk hlinks hstart).lt hlinks hstart (List.getElem_mem hlt))
    have hfirst : (ls.walk start).findSome? ls.catalogFailureAt = some e' := by
      have hsplit : ls.walk start = (ls.walk start).take place ++
          (ls.walk start)[place] :: (ls.walk start).drop (place + 1) := by
        rw [List.getElem_cons_drop, List.take_append_drop]
      refine List.findSome?_eq_some_iff.mpr ⟨_, _, _, hsplit, (if_pos hcatalog).trans he', fun m hm => ?_⟩
      obtain ⟨k, hk, rfl⟩ := List.mem_take_iff_getElem.mp hm
      exact if_neg (hbefore k (by omega))
    rw [Option.bind_some, h.since_eq hlinks hstart hn, he', hfirst]

/-- The walk from an object of a finite set goes along its links, visits nothing twice and ends where there
is no link or the links lead back; no other path does that. The first object on it with an exit code gives
the exit code of the failure that the object stands for, and the first one that is a structured error is the
structured error that is found. -/
theorem walk_faithful (hlinks : ls.Closed) (hstart : start < ls.length) :
    (∀ path, ls.Follows start path ↔ path = ls.walk start) ∧
      ∃ e, ls.failure? start = some e ∧ FirstOf ls.exitCodeAt (ls.walk start) e.exitCode? ∧
        FirstOf ls.catalogFailureAt (ls.walk start) e.sinceCatalog? := by
  obtain ⟨e, he, hlists⟩ := exists_failure? hlinks hstart
  have hexit : e.exitCode? = (ls.walk start).findSome? ls.exitCodeAt := by
    rw [exitCode?_eq, hlists.findSome?_eq]
    rfl
  refine ⟨fun path => follows_iff hlinks hstart, e, he, ?_, ?_⟩
  · rw [hexit]
    exact firstOf_findSome? _ _
  · rw [hlists.sinceCatalog?_eq hlinks hstart]
    exact firstOf_findSome? _ _

/-- Four errors, of which each leads to the next by another kind of link and the last one back to the
second. -/
def tangle : Links := [
  { fault := Reason.general "unresolved", cause := some 1, attached := some 3 },
  { fault := Reason.inFamily .installation "not installed", attached := some 2, context := some 0 },
  { fault := Reason.foreign .runtime "stopped", context := some 3 },
  { fault := Reason.commandFailed (.line "pip") 3 none none, cause := some 1, contextHidden := true }]

theorem walk_faithful_tangle : tangle.Closed ∧ 0 < tangle.length ∧ tangle.walk 0 = [0, 1, 2, 3] ∧
    (∀ path, tangle.Follows 0 path ↔ path = tangle.walk 0) ∧
      ∃ e, tangle.failure? 0 = some e ∧ FirstOf tangle.exitCodeAt (tangle.walk 0) e.exitCode? ∧
        FirstOf tangle.catalogFailureAt (tangle.walk 0) e.sinceCatalog? := by
  have hlinks : tangle.Closed := by decide
  have hstart : 0 < tangle.length := by decide
  exact ⟨hlinks, hstart, by decide, walk_faithful hlinks hstart⟩

end Links
end ManifestGraph.Failure
