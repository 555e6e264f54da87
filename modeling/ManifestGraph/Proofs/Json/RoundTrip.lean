/-
  What is written is read back. A written value spells its tokens (`spells_write`), and the tokens of a
  legible value are read as that value (`run_tokens`); so text that was written is read as the value
  with the halves in its texts joined (`readFrom_write`).
-/
import ManifestGraph.Proofs.Json.Steps
import ManifestGraph.Proofs.Json.Strings

namespace ManifestGraph.Json

variable {d : Dialect} {s : Style} {n : Nat} {v : Data} {opened : List Frame} {rest : List Token}

/-! ## Tokens of a value -/

mutual

/-- The tokens that stand for a value. -/
def tokens : Data → List Token
  | .list [] => [.listOpen, .listClose]
  | .list (d :: ds) => .listOpen :: (tokens d ++ itemTokens ds)
  | .record [] => [.recordOpen, .recordClose]
  | .record ((key, d) :: ms) =>
    .recordOpen :: .atom (.text key) :: .colon :: (tokens d ++ memberTokens ms)
  | d => [.atom d]

/-- The tokens of the items after the first one, and of the end of the list. -/
def itemTokens : List Data → List Token
  | [] => [.listClose]
  | d :: ds => .comma :: (tokens d ++ itemTokens ds)

/-- The tokens of the members after the first one, and of the end of the record. -/
def memberTokens : List (Text × Data) → List Token
  | [] => [.recordClose]
  | (key, d) :: ms => .comma :: .atom (.text key) :: .colon :: (tokens d ++ memberTokens ms)

end

/-! ## The lexer -/

section Spelling

variable (hs : s.Lays) (hascii : s.ascii = true ∨ d.halves = false)

include hs

theorem exists_cons_writeItems (items : List Data) :
    ∃ c t, writeItems s items = c :: t ∧ isBare c = false := by
  cases items with
  | nil => exact ⟨_, _, rfl, rfl⟩
  | cons x items =>
    obtain ⟨k, hk⟩ := hs.comma
    exact ⟨.scalar ',', _, by rw [writeItems, hk]; rfl, rfl⟩

theorem exists_cons_writeMembers (members : List (Text × Data)) :
    ∃ c t, writeMembers s members = c :: t ∧ isBare c = false := by
  cases members with
  | nil => exact ⟨_, _, rfl, rfl⟩
  | cons m members =>
    obtain ⟨k, hk⟩ := hs.comma
    exact ⟨.scalar ',', _, by rw [writeMembers, hk]; rfl, rfl⟩

/-- A value is ended by what follows it in its list. -/
theorem Spells.beforeItems {t : Text} {items : List Data} {xs ys : List Token} (ht : Spells d t xs)
    (h : Spells d (writeItems s items) ys) : Spells d (t ++ writeItems s items) (xs ++ ys) := by
  obtain ⟨c, u, heq, hc⟩ := exists_cons_writeItems hs items
  rw [heq] at h ⊢
  exact ht.append hc h

/-- A value is ended by what follows it in its record. -/
theorem Spells.beforeMembers {t : Text} {members : List (Text × Data)} {xs ys : List Token}
    (ht : Spells d t xs) (h : Spells d (writeMembers s members) ys) :
    Spells d (t ++ writeMembers s members) (xs ++ ys) := by
  obtain ⟨c, u, heq, hc⟩ := exists_cons_writeMembers hs members
  rw [heq] at h ⊢
  exact ht.append hc h

theorem spells_writeItems {items : List Data} (h : ∀ x ∈ items, Spells d (write s x) (tokens x.joined)) :
    Spells d (writeItems s items) (itemTokens (items.map Data.joined)) := by
  induction items with
  | nil => exact lexes_listClose.spells
  | cons x items ih =>
    have hitems := ih fun y hy => h y (List.mem_cons_of_mem _ hy)
    exact ((h x List.mem_cons_self).beforeItems hs hitems).after hs.lexes_comma

include hascii

theorem spells_writeMembers {members : List (Text × Data)} (hkeys : ∀ m ∈ members, d.Allows m.1)
    (h : ∀ m ∈ members, Spells d (write s m.2) (tokens m.2.joined)) :
    Spells d (writeMembers s members)
      (memberTokens (members.map fun m => (m.1.joined, m.2.joined))) := by
  induction members with
  | nil => exact lexes_recordClose.spells
  | cons m members ih =>
    have hkey := lexes_writeText (hkeys m List.mem_cons_self) hascii
    have hmembers := ih (fun y hy => hkeys y (List.mem_cons_of_mem _ hy))
      fun y hy => h y (List.mem_cons_of_mem _ hy)
    have hvalue := (h m List.mem_cons_self).beforeMembers hs hmembers
    exact ((hvalue.after hs.lexes_colon).after hkey).after hs.lexes_comma

/-- A written value spells its tokens. -/
theorem spells_write (h : Legible d n v) : Spells d (write s v) (tokens v.joined) := by
  have hwords : AllBare ("null" : String) ∧ AllBare ("true" : String) ∧ AllBare ("false" : String) := by
    unfold AllBare
    decide
  induction h with
  | null => exact spells_bare hwords.1 rfl
  | bool _ b =>
    cases b with
    | false => exact spells_bare hwords.2.2 rfl
    | true => exact spells_bare hwords.2.1 rfl
  | @int _ i h => exact spells_bare (allBare_ofInt i) (bareValue_ofInt h)
  | @float _ x h => exact spells_bare (allBare_render x) (bareValue_render h)
  | text h => exact (lexes_writeText h hascii).spells
  | emptyList => exact (lexes_listOpen.append lexes_listClose).spells
  | @list n items _ ih =>
    cases items with
    | nil => exact (lexes_listOpen.append lexes_listClose).spells
    | cons x items =>
      have hitems := spells_writeItems hs fun y hy => ih y (List.mem_cons_of_mem _ hy)
      rw [Data.joined_list]
      exact ((ih x List.mem_cons_self).beforeItems hs hitems).after lexes_listOpen
  | emptyRecord => exact (lexes_recordOpen.append lexes_recordClose).spells
  | @record n members hkeys _ ih =>
    cases members with
    | nil => exact (lexes_recordOpen.append lexes_recordClose).spells
    | cons m members =>
      have hkey := lexes_writeText (hkeys m List.mem_cons_self) hascii
      have hmembers := spells_writeMembers hs hascii
        (fun y hy => hkeys y (List.mem_cons_of_mem _ hy)) fun y hy => ih y (List.mem_cons_of_mem _ hy)
      have hvalue := (ih m List.mem_cons_self).beforeMembers hs hmembers
      rw [Data.joined_record]
      exact ((hvalue.after hs.lexes_colon).after hkey).after lexes_recordOpen

end Spelling

/-! ## The reader -/

theorem run_of_step {r r' : Reader} {token : Token} (h : r.step d token = .ok r') :
    Reader.run d r (token :: rest) = Reader.run d r' rest := by
  rw [Reader.run, h]
  rfl

theorem run_firstItem (hnest : Reader.mayNest d opened = true) {token : Token}
    (htoken : token ≠ .listClose) :
    Reader.run d (.firstItem opened) (token :: rest) =
      Reader.run d (.value (.items [] :: opened)) (token :: rest) := by
  rw [Reader.run, Reader.run, step_firstItem htoken, if_pos hnest]
  rfl

theorem exists_cons_tokens (v : Data) : ∃ token ts, tokens v = token :: ts ∧ token ≠ .listClose := by
  cases v with
  | list items => cases items <;> exact ⟨_, _, rfl, by simp⟩
  | record members =>
    cases members with
    | nil => exact ⟨_, _, rfl, by simp⟩
    | cons m members => exact ⟨_, _, rfl, by simp⟩
  | _ => exact ⟨_, _, rfl, by simp⟩

/-- The reader takes the value where one is due, inside of some containers. -/
def Takes (d : Dialect) (opened : List Frame) (v : Data) : Prop :=
  ∀ rest, Reader.run d (.value opened) (tokens v ++ rest) = Reader.run d (Reader.deliver v opened) rest

theorem run_items {items before : List Data}
    (h : ∀ before, ∀ x ∈ items, Takes d (.items before :: opened) x) :
    Reader.run d (.afterItem before opened) (itemTokens items ++ rest) =
      Reader.run d (Reader.deliver (.list (before.reverse ++ items)) opened) rest := by
  induction items generalizing before with
  | nil =>
    rw [List.append_nil]
    exact run_of_step rfl
  | cons x items ih =>
    calc Reader.run d (.afterItem before opened) (itemTokens (x :: items) ++ rest)
        = Reader.run d (.value (.items before :: opened)) (tokens x ++ (itemTokens items ++ rest)) := by
          rw [← List.append_assoc]
          exact run_of_step rfl
      _ = Reader.run d (.afterItem (x :: before) opened) (itemTokens items ++ rest) :=
          h before x List.mem_cons_self _
      _ = Reader.run d (Reader.deliver (.list ((x :: before).reverse ++ items)) opened) rest :=
          ih fun b y hy => h b y (List.mem_cons_of_mem _ hy)
      _ = _ := by rw [List.reverse_cons, List.append_assoc, List.singleton_append]

theorem run_members {members before : List (Text × Data)}
    (h : ∀ before, ∀ m ∈ members, Takes d (.member before m.1 :: opened) m.2) :
    Reader.run d (.afterMember before opened) (memberTokens members ++ rest) =
      Reader.run d (Reader.deliver (.record (before.reverse ++ members)) opened) rest := by
  induction members generalizing before with
  | nil =>
    rw [List.append_nil]
    exact run_of_step rfl
  | cons m members ih =>
    calc Reader.run d (.afterMember before opened) (memberTokens (m :: members) ++ rest)
        = Reader.run d (.value (.member before m.1 :: opened))
            (tokens m.2 ++ (memberTokens members ++ rest)) := by
          rw [← List.append_assoc]
          exact (run_of_step rfl).trans ((run_of_step rfl).trans (run_of_step rfl))
      _ = Reader.run d (.afterMember (m :: before) opened) (memberTokens members ++ rest) :=
          h before m List.mem_cons_self _
      _ = Reader.run d (Reader.deliver (.record ((m :: before).reverse ++ members)) opened) rest :=
          ih fun b y hy => h b y (List.mem_cons_of_mem _ hy)
      _ = _ := by rw [List.reverse_cons, List.append_assoc, List.singleton_append]

theorem step_listOpen (h : d.countsEmpty = true → opened.length < d.maxDepth) :
    Reader.step d (.value opened) .listOpen = .ok (.firstItem opened) :=
  beginValue_listOpen_eq_ok.mpr ⟨h, rfl⟩

theorem step_recordOpen (h : d.countsEmpty = true → opened.length < d.maxDepth) :
    Reader.step d (.value opened) .recordOpen = .ok (.firstKey opened) :=
  beginValue_recordOpen_eq_ok.mpr ⟨h, rfl⟩

theorem step_firstKey {name : Text} (h : opened.length < d.maxDepth) :
    Reader.step d (.firstKey opened) (.atom (.text name)) = .ok (.colon [] name opened) :=
  step_firstKey_eq_ok.mpr ⟨h, rfl⟩

theorem takes_emptyList (h : d.countsEmpty = true → opened.length < d.maxDepth) :
    Takes d opened (.list []) :=
  fun _ => (run_of_step (step_listOpen h)).trans (run_of_step rfl)

theorem takes_emptyRecord (h : d.countsEmpty = true → opened.length < d.maxDepth) :
    Takes d opened (.record []) :=
  fun _ => (run_of_step (step_recordOpen h)).trans (run_of_step rfl)

theorem takes_list {x : Data} {items : List Data} (hdepth : opened.length < d.maxDepth)
    (h : ∀ before, ∀ y ∈ x :: items, Takes d (.items before :: opened) y) :
    Takes d opened (.list (x :: items)) := by
  intro rest
  obtain ⟨token, ts, hx, htoken⟩ := exists_cons_tokens x
  calc Reader.run d (.value opened) (tokens (.list (x :: items)) ++ rest)
      = Reader.run d (.firstItem opened) (tokens x ++ (itemTokens items ++ rest)) := by
        rw [← List.append_assoc]
        exact run_of_step (step_listOpen fun _ => hdepth)
    _ = Reader.run d (.value (.items [] :: opened)) (tokens x ++ (itemTokens items ++ rest)) := by
        rw [hx]
        exact run_firstItem (mayNest_iff.mpr hdepth) htoken
    _ = Reader.run d (.afterItem [x] opened) (itemTokens items ++ rest) := h [] x List.mem_cons_self _
    _ = Reader.run d (Reader.deliver (.list (x :: items)) opened) rest :=
        run_items fun b y hy => h b y (List.mem_cons_of_mem _ hy)

theorem takes_record {m : Text × Data} {members : List (Text × Data)}
    (hdepth : opened.length < d.maxDepth)
    (h : ∀ before, ∀ y ∈ m :: members, Takes d (.member before y.1 :: opened) y.2) :
    Takes d opened (.record (m :: members)) := by
  intro rest
  calc Reader.run d (.value opened) (tokens (.record (m :: members)) ++ rest)
      = Reader.run d (.value (.member [] m.1 :: opened)) (tokens m.2 ++ (memberTokens members ++ rest)) := by
        rw [← List.append_assoc]
        refine (run_of_step (step_recordOpen fun _ => hdepth)).trans ?_
        exact (run_of_step (step_firstKey hdepth)).trans (run_of_step rfl)
    _ = Reader.run d (.afterMember [m] opened) (memberTokens members ++ rest) :=
        h [] m List.mem_cons_self _
    _ = Reader.run d (Reader.deliver (.record (m :: members)) opened) rest :=
        run_members fun b y hy => h b y (List.mem_cons_of_mem _ hy)

/-- A legible value is taken wherever there are enough levels left. -/
theorem Legible.takes (h : Legible d n v) (hdepth : opened.length + n ≤ d.maxDepth) :
    Takes d opened v := by
  induction h generalizing opened with
  | null | bool | int | float | text => exact fun rest => run_of_step rfl
  | emptyList h => exact takes_emptyList fun hc => by have := h hc; omega
  | @list n items _ ih =>
    cases items with
    | nil => exact takes_emptyList fun _ => by omega
    | cons x items =>
      refine takes_list (by omega) fun before y hy => ih y hy ?_
      rw [List.length_cons]
      omega
  | emptyRecord h => exact takes_emptyRecord fun hc => by have := h hc; omega
  | @record n members _ _ ih =>
    cases members with
    | nil => exact takes_emptyRecord fun _ => by omega
    | cons m members =>
      refine takes_record (by omega) fun before y hy => ih y hy ?_
      rw [List.length_cons]
      omega

/-! ## Documents -/

theorem exists_of_run_append {r r' : Reader} {xs ys : List Token}
    (h : Reader.run d r (xs ++ ys) = .ok r') :
    ∃ r₁, Reader.run d r xs = .ok r₁ ∧ Reader.run d r₁ ys = .ok r' := by
  induction xs generalizing r with
  | nil => exact ⟨r, rfl, h⟩
  | cons x xs ih =>
    obtain ⟨r₁, hstep, hrun⟩ := run_cons_eq_ok.mp h
    rw [run_of_step hstep]
    exact ih hrun

/-- Reading goes on after a text that was lexed and whose tokens were read. -/
theorem readFrom_of_lexes {l l' : Lexer} {t u : Text} {xs : List Token} {r r' : Reader}
    (h : Lexes d l t l' xs) (hrun : Reader.run d r xs = .ok r') (hrest : readFrom d l' r' u = .ok v) :
    readFrom d l r (t ++ u) = .ok v := by
  induction h generalizing r with
  | done => cases hrun; exact hrest
  | step first _ ih =>
    obtain ⟨r₁, hfirst, hlater⟩ := exists_of_run_append hrun
    exact readFrom_cons_eq_ok.mpr ⟨_, _, r₁, first, hfirst, ih hlater hrest⟩

/-- A text that spells tokens is read as what the tokens are read as. -/
theorem readFrom_of_spells {t : Text} {xs : List Token} {r : Reader} (h : Spells d t xs)
    (hrun : Reader.run d r xs = .ok (.done v)) : readFrom d .between r t = .ok v := by
  obtain ⟨l, ys, zs, hlex, hends, rfl⟩ := h
  obtain ⟨r₁, hfirst, hrest⟩ := exists_of_run_append hrun
  have hread := readFrom_of_lexes hlex hfirst (readFrom_nil_eq_ok.mpr ⟨zs, hends.finish, hrest⟩)
  rwa [List.append_nil] at hread

/-- What is written is read back, with the halves in its texts joined. -/
theorem readFrom_write (hs : s.Lays) (hascii : s.ascii = true ∨ d.halves = false)
    (h : Legible d d.maxDepth v) :
    readFrom d .between (.value []) (write s v) = .ok v.joined := by
  refine readFrom_of_spells (spells_write hs hascii h) ?_
  have htakes : Takes d [] v.joined := h.joined.takes (by rw [List.length_nil]; omega)
  have htakes := htakes []
  rw [List.append_nil] at htakes
  exact htakes

end ManifestGraph.Json
