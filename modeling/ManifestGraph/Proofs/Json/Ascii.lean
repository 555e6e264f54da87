/-
  What the ASCII layouts write: printable characters only (`plain_write`), and the same whether or not
  the halves in a value's texts are joined (`write_joined`).
-/
import ManifestGraph.Proofs.Bytes.Encoding
import ManifestGraph.Proofs.Json.Strings

namespace ManifestGraph.Json

open CodePoint (isHigh isLow pair pairNumber isHigh_iff isLow_iff isPlain isPlain_iff)

variable {s : Style} {t : Text} {c a b : CodePoint}

/-! ## Printable characters -/

/-- The layout puts printable ASCII characters between the parts of a value, and so it writes texts. -/
structure Style.Plain (s : Style) : Prop where
  ascii : s.ascii = true
  comma : Text.Plain s.comma
  colon : Text.Plain s.colon

theorem plain_spaced : Style.spaced.Plain :=
  ⟨rfl, by unfold Text.Plain; decide, by unfold Text.Plain; decide⟩

theorem plain_compactAscii : Style.compactAscii.Plain :=
  ⟨rfl, by unfold Text.Plain; decide, by unfold Text.Plain; decide⟩

theorem plain_of_allBare (h : AllBare t) : t.Plain := by
  intro c hc
  have hbare := h c hc
  have hnat : ∀ x : Char, c = .scalar x → c.toNat = x.toNat := by
    rintro x rfl
    rfl
  simp only [isBare, CodePoint.isDigit, CodePoint.isLetter, Bool.or_eq_true, Bool.and_eq_true,
    decide_eq_true_eq] at hbare
  refine isPlain_iff.mpr ?_
  rcases hbare with (((hdigit | hletter) | hplus) | hminus) | hpoint
  · omega
  · omega
  · rw [hnat _ hplus]; decide
  · rw [hnat _ hminus]; decide
  · rw [hnat _ hpoint]; decide

theorem plain_hex (width n : Nat) : Text.Plain (Text.hex width n) := by
  have hdigit : ∀ k < 16, (Text.hexDigit k).isPlain = true := by decide
  induction width generalizing n with
  | zero => exact fun _ hc => absurd hc List.not_mem_nil
  | succ width ih =>
    refine (ih (n / 16)).append ?_
    exact List.forall_mem_singleton.mpr (hdigit _ (Nat.mod_lt n (by decide)))

theorem plain_escapeUnit (n : Nat) : Text.Plain (escapeUnit n) := by
  have hprefix : Text.Plain ("\\u" : String) := by unfold Text.Plain; decide
  exact hprefix.append (plain_hex 4 n)

theorem plain_writePoint (c : CodePoint) : Text.Plain (writePoint true c) := by
  rcases writePoint_cases true c with ⟨e, he, hwrite⟩ | ⟨_, _, hwrite⟩
  · rw [hwrite]
    exact List.forall_mem_cons.mpr ⟨rfl, List.forall_mem_singleton.mpr (isPlain_iff.mpr he.printable)⟩
  rw [hwrite]
  split
  next => exact plain_escapeUnit _
  next hlow =>
  split
  next hhigh =>
    rw [Bool.not_true, Bool.false_or, decide_eq_true_eq] at hhigh
    exact List.forall_mem_singleton.mpr (isPlain_iff.mpr ⟨by omega, hhigh⟩)
  split
  next => exact plain_escapeUnit _
  next => exact (plain_escapeUnit _).append (plain_escapeUnit _)

theorem plain_writeText (t : Text) : Text.Plain (writeText true t) := by
  have hquote : Text.Plain ("\"" : String) := by unfold Text.Plain; decide
  refine (hquote.append ?_).append hquote
  intro c hc
  obtain ⟨a, _, hca⟩ := List.mem_flatMap.mp hc
  exact plain_writePoint a c hca

section Plain

variable (hs : s.Plain)

include hs

theorem plain_writeItems {items : List Data} (h : ∀ x ∈ items, Text.Plain (write s x)) :
    Text.Plain (writeItems s items) := by
  induction items with
  | nil => exact List.forall_mem_singleton.mpr rfl
  | cons x items ih =>
    rw [writeItems]
    exact hs.comma.append
      ((h x List.mem_cons_self).append (ih fun y hy => h y (List.mem_cons_of_mem _ hy)))

theorem plain_writeMembers {members : List (Text × Data)}
    (h : ∀ m ∈ members, Text.Plain (write s m.2)) : Text.Plain (writeMembers s members) := by
  induction members with
  | nil => exact List.forall_mem_singleton.mpr rfl
  | cons m members ih =>
    rw [writeMembers, hs.ascii]
    exact hs.comma.append ((plain_writeText m.1).append (hs.colon.append
      ((h m List.mem_cons_self).append (ih fun y hy => h y (List.mem_cons_of_mem _ hy)))))

/-- Everything that is written is printable ASCII; in particular it is one line. -/
theorem plain_write (v : Data) : Text.Plain (write s v) := by
  have hwords : Text.Plain ("null" : String) ∧ Text.Plain ("true" : String) ∧
      Text.Plain ("false" : String) ∧ Text.Plain ("[]" : String) ∧
      Text.Plain ("\x7b\x7d" : String) ∧ Text.Plain [.scalar '['] ∧ Text.Plain [.scalar '\x7b'] := by
    unfold Text.Plain
    decide
  obtain ⟨hnull, htrue, hfalse, hlist, hrecord, hopenList, hopenRecord⟩ := hwords
  induction v using Data.parts with
  | leaf v hi hm =>
    cases v with
    | null => exact hnull
    | bool b =>
      cases b with
      | true => exact htrue
      | false => exact hfalse
    | int n => exact plain_of_allBare (allBare_ofInt n)
    | float x => exact plain_of_allBare (allBare_render x)
    | text t => rw [write, hs.ascii]; exact plain_writeText t
    | moment m => rw [write, hs.ascii]; exact plain_writeText m.shown
    | list items => cases hi
    | record members => cases hm
  | list items ih =>
    cases items with
    | nil => exact hlist
    | cons x items =>
      rw [write]
      exact hopenList.append ((ih x List.mem_cons_self).append
        (plain_writeItems hs fun y hy => ih y (List.mem_cons_of_mem _ hy)))
  | record members ih =>
    cases members with
    | nil => exact hrecord
    | cons m members =>
      rw [write, hs.ascii]
      exact hopenRecord.append ((plain_writeText m.1).append (hs.colon.append
        ((ih m List.mem_cons_self).append
          (plain_writeMembers hs fun y hy => ih y (List.mem_cons_of_mem _ hy)))))

end Plain

/-! ## Joined halves -/

/-- A pair of halves is escaped like the character that they make. -/
theorem writePoint_pair (ha : a.isHigh = true) (hb : b.isLow = true) :
    writePoint true (a.pair b) = writePoint true a ++ writePoint true b := by
  have hnumber := CodePoint.toNat_pair ha hb
  unfold pairNumber at hnumber
  rw [isHigh_iff] at ha
  rw [isLow_iff] at hb
  have hhigh : 0xD800 + ((a.pair b).toNat - 0x10000) / 1024 = a.toNat := by omega
  have hlow : 0xDC00 + ((a.pair b).toNat - 0x10000) % 1024 = b.toNat := by omega
  rw [writePoint_wide (by omega), writePoint_wide (by omega), writePoint_wide (by omega),
    if_neg (by omega), if_pos (by omega), if_pos (by omega), hhigh, hlow]

theorem writeText_joined (t : Text) : writeText true t.joined = writeText true t := by
  have hpoints : t.joined.flatMap (writePoint true) = t.flatMap (writePoint true) := by
    induction t using Text.joined.induct with
    | case1 => rfl
    | case2 => rfl
    | case3 c d t h ih =>
      rw [Bool.and_eq_true] at h
      rw [Text.joined_pair h.1 h.2, List.flatMap_cons, List.flatMap_cons, List.flatMap_cons, ih,
        writePoint_pair h.1 h.2, List.append_assoc]
    | case4 c d t h ih => rw [Text.joined, if_neg h, List.flatMap_cons, List.flatMap_cons, ih]
  rw [writeText, hpoints, writeText]

theorem writeItems_map {items : List Data} {f : Data → Data}
    (h : ∀ x ∈ items, write s (f x) = write s x) : writeItems s (items.map f) = writeItems s items := by
  induction items with
  | nil => rfl
  | cons x items ih =>
    rw [List.map_cons, writeItems, writeItems, h x List.mem_cons_self,
      ih fun y hy => h y (List.mem_cons_of_mem _ hy)]

theorem writeMembers_joined (hs : s.ascii = true) {members : List (Text × Data)}
    (h : ∀ m ∈ members, write s m.2.joined = write s m.2) :
    writeMembers s (members.map fun m => (m.1.joined, m.2.joined)) = writeMembers s members := by
  induction members with
  | nil => rfl
  | cons m members ih =>
    rw [List.map_cons, writeMembers, writeMembers, hs, writeText_joined, h m List.mem_cons_self,
      ih fun y hy => h y (List.mem_cons_of_mem _ hy)]

/-- The ASCII layouts do not tell a pair of halves from the character that they make. -/
theorem write_joined (hs : s.ascii = true) (v : Data) : write s v.joined = write s v := by
  induction v using Data.parts with
  | leaf v hi hm =>
    cases v with
    | text t => rw [Data.joined, write, write, hs, writeText_joined]
    | list items => cases hi
    | record members => cases hm
    | _ => rfl
  | list items ih =>
    cases items with
    | nil => rfl
    | cons x items =>
      rw [Data.joined_list, List.map_cons, write, write, ih x List.mem_cons_self,
        writeItems_map fun y hy => ih y (List.mem_cons_of_mem _ hy)]
  | record members ih =>
    cases members with
    | nil => rfl
    | cons m members =>
      rw [Data.joined_record, List.map_cons, write, write, hs, writeText_joined,
        ih m List.mem_cons_self,
        writeMembers_joined hs fun y hy => ih y (List.mem_cons_of_mem _ hy)]

end ManifestGraph.Json
