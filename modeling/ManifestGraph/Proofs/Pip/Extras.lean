/-
  Requirements that hang on extras. A requirement may hang on one of several, as in `extra == 'a' or
  extra == 'b'`; the extra that is found in it is the first one (`HangsOn.extra_eq`), so it is taken if that
  one is asked for, whatever the others are (`requiredNames_of_guarded`). Of the names of what is taken,
  those that compare equal are told once, by the first of them (`firstNames_distinctNames`).
-/
import ManifestGraph.Pip.Requirement
import Mathlib.Data.List.Infix

namespace ManifestGraph.Pip

namespace Requirement

variable {o r s t u declared gap guard rest e : Text} {extras : List Text} {c q : CodePoint}

/-! ## How a requirement names the extras it hangs on -/

/-- Nothing but blanks. -/
def Blank (t : Text) : Prop := ∀ c ∈ t, c.isBlank = true

/-- The beginning of a comparison of `extra` with a text in quotation marks. -/
def Opens (q : CodePoint) (o : Text) : Prop :=
  isQuote q = true ∧ ∃ before after : Text, Blank before ∧ Blank after ∧
    o = "extra" ++ before ++ "==" ++ after ++ [q]

/-- Nowhere is `extra` compared with a text in quotation marks. -/
def NoExtra (r : Text) : Prop := ∀ q o, Opens q o → ¬o <:+: r

/-- The name of an extra is not empty and holds no quotation mark. -/
def IsExtra (e : Text) : Prop := e ≠ [] ∧ ∀ c ∈ e, isQuote c = false

/-- The comparison of `extra` with a name. -/
def Compares (e t : Text) : Prop := ∃ q o, Opens q o ∧ t = o ++ (e ++ [q])

/-- Comparisons with some extras, one after the other, with `or` between them. -/
inductive Alternatives : List Text → Text → Prop where
  | one {e t : Text} (he : IsExtra e) (ht : Compares e t) : Alternatives [e] t
  | or {e t before after rest : Text} {extras : List Text} (he : IsExtra e) (ht : Compares e t)
      (hbefore : Blank before) (hafter : Blank after) (hrest : Alternatives extras rest) :
      Alternatives (e :: extras) (t ++ (before ++ "or" ++ after ++ rest))

/-- The requirement hangs on any of some extras; if there are none, it is free of them. -/
inductive HangsOn : Text → List Text → Prop where
  | nothing {r : Text} (h : NoExtra r) : HangsOn r []
  | anyOf {declared gap guard : Text} {extras : List Text} (hdeclared : NoExtra declared)
      (hgap : Blank gap) (hguard : Alternatives extras guard) :
      HangsOn (declared ++ CodePoint.scalar ';' :: gap ++ guard) extras

/-! ## The extra that is found -/

theorem exists_eq_append_skipBlanks (t : Text) : ∃ before, Blank before ∧ t = before ++ skipBlanks t :=
  ⟨t.takeWhile CodePoint.isBlank, List.all_eq_true.mp List.all_takeWhile,
    List.takeWhile_append_dropWhile.symm⟩

theorem skipBlanks_append (h : Blank s) (hc : c.isBlank = false) :
    skipBlanks (s ++ c :: t) = c :: t := by
  rw [skipBlanks, List.dropWhile_append_of_pos h, List.dropWhile_cons_of_neg (by simp [hc])]

theorem not_isBlank_of_isQuote (h : isQuote q = true) : q.isBlank = false := by
  simp only [isQuote, Bool.or_eq_true, decide_eq_true_eq] at h
  rcases h with rfl | rfl <;> decide

/-- A beginning starts with the only `e` in it, and is without a semicolon. -/
theorem Opens.exists_tail (h : Opens q o) :
    ∃ rest, o = CodePoint.scalar 'e' :: rest ∧ CodePoint.scalar 'e' ∉ rest ∧
      CodePoint.scalar ';' ∉ rest := by
  obtain ⟨hq, before, after, hbefore, hafter, rfl⟩ := h
  have hmem : ∀ c ∈ Text.ofString "xtra" ++ before ++ "==" ++ after ++ [q],
      c ∈ Text.ofString "xtra==" ∨ c.isBlank = true ∨ isQuote c = true := by
    intro c hc
    simp only [List.mem_append, List.mem_singleton] at hc
    rcases hc with (((hc | hc) | hc) | hc) | rfl
    · exact Or.inl (List.mem_append_left _ hc)
    · exact Or.inr (Or.inl (hbefore c hc))
    · exact Or.inl (List.mem_append_right (Text.ofString "xtra") hc)
    · exact Or.inr (Or.inl (hafter c hc))
    · exact Or.inr (Or.inr hq)
  exact ⟨_, rfl, fun hc => absurd (hmem _ hc) (by decide), fun hc => absurd (hmem _ hc) (by decide)⟩

theorem noExtra_of_unquoted (h : ∀ c ∈ r, isQuote c = false) : NoExtra r := by
  rintro q o ⟨hq, before, after, _, _, rfl⟩ hin
  rw [h q (hin.subset (by simp))] at hq
  cases hq

/-- Where an extra is found, a comparison begins. -/
theorem exists_opens_of_extraHere? (h : extraHere? t = some e) : ∃ q o, Opens q o ∧ o <+: t := by
  unfold extraHere? at h
  dsimp only at h
  split at h
  next hstart =>
    obtain ⟨u, rfl⟩ := List.isPrefixOf_iff_prefix.mp hstart
    rw [List.drop_left] at h
    split at h
    next rest hsigns =>
      split at h
      next q rest' hquote =>
        split at h
        next hcond =>
          simp only [Bool.and_eq_true] at hcond
          obtain ⟨before, hbefore, hu⟩ := exists_eq_append_skipBlanks u
          obtain ⟨after, hafter, hrest⟩ := exists_eq_append_skipBlanks rest
          refine ⟨q, _, ⟨hcond.1.1, before, after, hbefore, hafter, rfl⟩, rest', ?_⟩
          rw [hu, hsigns, hrest, hquote]
          simp [Text.ofString]
        next => cases h
      next => cases h
    next => cases h
  next => cases h

theorem extraHere?_of_opens (h : Opens q o) (he : IsExtra e) :
    extraHere? (o ++ (e ++ [q]) ++ rest) = some e := by
  obtain ⟨hq, before, after, hbefore, hafter, rfl⟩ := h
  have hsplit : Text.ofString "extra" ++ before ++ "==" ++ after ++ [q] ++ (e ++ [q]) ++ rest =
      Text.ofString "extra" ++ (before ++ CodePoint.scalar '=' ::
        (CodePoint.scalar '=' :: (after ++ q :: (e ++ q :: rest)))) := by
    simp [Text.ofString]
  have hname : (e ++ q :: rest).takeWhile (fun c => !isQuote c) = e := by
    rw [List.takeWhile_append_of_pos (fun c hc => by simp [he.2 c hc]),
      List.takeWhile_cons_of_neg (by simp [hq]), List.append_nil]
  have hsome : (isQuote q && !e.isEmpty && e.length < (e ++ q :: rest).length) = true := by
    simp [hq, he.1]
  rw [hsplit, extraHere?]
  dsimp only
  rw [if_pos (List.isPrefixOf_iff_prefix.mpr (List.prefix_append _ _)), List.drop_left,
    skipBlanks_append hbefore (by decide)]
  simp only [skipBlanks_append hafter (not_isBlank_of_isQuote hq), hname]
  rw [if_pos hsome]

theorem prefix_of_append_cons (hc : c ∉ o) (h : o <+: s ++ c :: t) : o <+: s := by
  obtain ⟨u, hu⟩ := h
  rcases List.append_eq_append_iff.mp hu with ⟨front, rfl, _⟩ | ⟨back, rfl, hback⟩
  · exact List.prefix_append o front
  · cases back with
    | nil => rw [List.append_nil]
    | cons d back =>
      obtain ⟨rfl, _⟩ := List.cons.inj hback
      simp at hc

theorem infix_of_append_cons (hc : c ∉ o) (h : o <:+: s ++ c :: t) : o <:+: s ∨ o <:+: t := by
  induction s with
  | nil =>
    rcases List.infix_cons_iff.mp h with h | h
    · exact Or.inl (prefix_of_append_cons hc h).isInfix
    · exact Or.inr h
  | cons d s ih =>
    rcases List.infix_cons_iff.mp h with h | h
    · exact Or.inl (prefix_of_append_cons (s := d :: s) hc h).isInfix
    · exact (ih h).imp_left fun h => List.infix_cons_iff.mpr (Or.inr h)

/-- A comparison does not begin before the `e` of another one and reach into it. -/
theorem Opens.prefix_of_append (h : Opens q o) (hs : s ≠ [])
    (ht : ∀ c ∈ t.head?, c = CodePoint.scalar 'e') (hstart : o <+: s ++ t) : o <+: s := by
  obtain ⟨tail, rfl, he, _⟩ := h.exists_tail
  cases s with
  | nil => exact absurd rfl hs
  | cons d s =>
    obtain ⟨rfl, htail⟩ := List.cons_prefix_cons.mp hstart
    refine List.cons_prefix_cons.mpr ⟨rfl, ?_⟩
    cases t with
    | nil => simpa using htail
    | cons c t =>
      obtain rfl := ht c rfl
      exact prefix_of_append_cons he htail

theorem NoExtra.append_gap (hdeclared : NoExtra declared) (hgap : Blank gap) :
    NoExtra (declared ++ CodePoint.scalar ';' :: gap) := by
  intro q o ho hin
  obtain ⟨tail, rfl, _, hsemicolon⟩ := ho.exists_tail
  have hnot : CodePoint.scalar ';' ∉ CodePoint.scalar 'e' :: tail := by
    simpa using hsemicolon
  rcases infix_of_append_cons hnot hin with h | h
  · exact hdeclared q _ ho h
  · exact absurd (hgap _ (h.subset List.mem_cons_self)) (by decide)

/-- Nothing is found before the first place where `extra` is compared. -/
theorem extra_append (hs : NoExtra s) (ht : ∀ c ∈ t.head?, c = CodePoint.scalar 'e') :
    extra (s ++ t) = extra t := by
  induction s with
  | nil => rfl
  | cons c s ih =>
    have hnone : extraHere? (c :: s ++ t) = none := by
      rw [Option.eq_none_iff_forall_ne_some]
      intro e he
      obtain ⟨q, o, ho, hstart⟩ := exists_opens_of_extraHere? he
      exact hs q o ho (ho.prefix_of_append (List.cons_ne_nil c s) ht hstart).isInfix
    rw [List.cons_append, extra, ← List.cons_append, hnone]
    exact ih fun q o ho h => hs q o ho (List.infix_cons_iff.mpr (Or.inr h))

/-- Of the alternatives of a guard the first one is found. -/
theorem Alternatives.extra_append_eq (h : Alternatives extras guard) (hs : NoExtra s) :
    extra (s ++ guard) = extras.headD [] := by
  have hfirst : ∃ e t rest, IsExtra e ∧ Compares e t ∧ guard = t ++ rest ∧ extras.headD [] = e := by
    cases h with
    | one he ht => exact ⟨_, _, [], he, ht, (List.append_nil _).symm, rfl⟩
    | or he ht _ _ _ => exact ⟨_, _, _, he, ht, rfl, rfl⟩
  obtain ⟨e, t, rest, he, ⟨q, o, ho, rfl⟩, rfl, hhead⟩ := hfirst
  have hfound : extraHere? (o ++ (e ++ [q]) ++ rest) = some e := extraHere?_of_opens ho he
  obtain ⟨tail, rfl, _, _⟩ := ho.exists_tail
  rw [extra_append hs (by simp), hhead]
  simp only [List.cons_append] at hfound ⊢
  rw [extra, hfound]

theorem HangsOn.extra_eq (h : HangsOn r extras) : extra r = extras.headD [] := by
  cases h with
  | nothing h => simpa [extra] using extra_append (t := []) h (by simp)
  | anyOf hdeclared hgap hguard => exact hguard.extra_append_eq (hdeclared.append_gap hgap)

theorem HangsOn.ne_nil (h : HangsOn r (e :: extras)) : e ≠ [] := by
  cases h with
  | anyOf _ _ hguard =>
    cases hguard with
    | one he _ => exact he.1
    | or he _ _ _ _ => exact he.1

end Requirement

/-! ## The requirements that are taken -/

/-- A declared requirement, told with the extras that it hangs on. -/
structure Guarded where
  text : Text
  extras : List Text
  hangsOn : Requirement.HangsOn text extras

namespace Guarded

variable {g : Guarded} {requested : List Text}

/-- The name of the package that is required. -/
def name (g : Guarded) : Text := Requirement.name g.text

/-- The requirement hangs on nothing, or on an extra that is asked for, ignoring case. -/
def Asked (requested : List Text) (g : Guarded) : Prop :=
  g.extras = [] ∨ ∃ e ∈ g.extras, e.lower ∈ requested.map Text.lower

/-- The requirement hangs on nothing, or the first extra that it hangs on is asked for. -/
def FirstAsked (requested : List Text) (g : Guarded) : Prop :=
  ∀ e ∈ g.extras.head?, e.lower ∈ requested.map Text.lower

instance (requested : List Text) : DecidablePred (Asked requested) :=
  fun _ => inferInstanceAs (Decidable (_ ∨ _))

instance (requested : List Text) : DecidablePred (FirstAsked requested) :=
  fun g => inferInstanceAs (Decidable (∀ e ∈ g.extras.head?, _))

theorem FirstAsked.asked (h : g.FirstAsked requested) : g.Asked requested := by
  cases hextras : g.extras with
  | nil => exact Or.inl hextras
  | cons e extras =>
    exact Or.inr ⟨e, by simp [hextras], h e (by simp [hextras])⟩

/-- What decides whether a requirement is taken is the first extra that it hangs on. -/
theorem isTaken_eq (g : Guarded) (requested : List Text) :
    ((Requirement.extra g.text).isEmpty ||
      (requested.map Text.lower).contains (Requirement.extra g.text).lower) =
        decide (g.FirstAsked requested) := by
  rw [g.hangsOn.extra_eq, Bool.eq_iff_iff, decide_eq_true_iff]
  cases hextras : g.extras with
  | nil => simp [FirstAsked, hextras]
  | cons e extras =>
    have hne : e ≠ [] := (hextras ▸ g.hangsOn).ne_nil
    simp [FirstAsked, hextras, hne]

theorem applicable_eq (gs : List Guarded) (requested : List Text) :
    applicable (gs.map text) requested = (gs.filter (FirstAsked requested)).map text := by
  rw [applicable, List.filter_map]
  congr 2
  funext g
  exact g.isTaken_eq requested

/-- The requirements whose first extra is asked for are all that hang on one that is, unless one of these
hangs first on another. -/
theorem map_filter_firstAsked_eq_iff {gs : List Guarded} :
    (gs.filter (FirstAsked requested)).map text = (gs.filter (Asked requested)).map text ↔
      ∀ g ∈ gs, g.Asked requested → g.FirstAsked requested := by
  have hfilter : gs.filter (FirstAsked requested) =
      (gs.filter (Asked requested)).filter (FirstAsked requested) := by
    rw [List.filter_filter]
    refine List.filter_congr fun g _ => ?_
    by_cases h : g.FirstAsked requested
    · simp [h, h.asked]
    · simp [h]
  constructor
  · intro h g hg hasked
    have hlength := congrArg List.length h
    rw [List.length_map, List.length_map, hfilter, List.length_filter_eq_length_iff] at hlength
    simpa using hlength g (List.mem_filter.mpr ⟨hg, by simpa using hasked⟩)
  · intro h
    rw [hfilter, List.filter_eq_self.mpr]
    intro g hg
    obtain ⟨hmem, hasked⟩ := List.mem_filter.mp hg
    simpa using h g hmem (by simpa using hasked)

end Guarded

/-! ## The names of what is taken -/

/-- Of some names those that do not compare equal to an earlier one, in order; empty names do not
count. -/
structure FirstNames (names kept : List Text) : Prop where
  sublist : kept.Sublist names
  distinct : (kept.map normalName).Nodup
  mem_iff : ∀ name, name ∈ kept ↔ name ≠ [] ∧ ∃ before after, names = before ++ name :: after ∧
    ∀ m ∈ before, m ≠ [] → normalName m ≠ normalName name

theorem distinctNames_sublist (seen names : List Text) : (distinctNames seen names).Sublist names := by
  induction names generalizing seen with
  | nil => exact List.Sublist.slnil
  | cons name names ih =>
    rw [distinctNames]
    split
    next => exact (ih seen).cons name
    next => exact (ih _).cons_cons name

theorem nodup_distinctNames (seen names : List Text) :
    ((distinctNames seen names).map normalName).Nodup ∧
      ∀ name ∈ distinctNames seen names, normalName name ∉ seen := by
  induction names generalizing seen with
  | nil => exact ⟨List.nodup_nil, fun _ h => absurd h List.not_mem_nil⟩
  | cons name names ih =>
    rw [distinctNames]
    split
    next => exact ih seen
    next h =>
      obtain ⟨hnodup, hseen⟩ := ih (normalName name :: seen)
      have hname : normalName name ∉ seen := by
        intro hmem
        simp [hmem] at h
      refine ⟨List.nodup_cons.mpr ⟨fun hmem => ?_, hnodup⟩, fun n hn => ?_⟩
      · obtain ⟨n, hn, heq⟩ := List.mem_map.mp hmem
        exact hseen n hn (heq ▸ List.mem_cons_self)
      · rcases List.mem_cons.mp hn with rfl | hn
        · exact hname
        · exact List.not_mem_of_not_mem_cons (hseen n hn)

theorem exists_split_cons {n name : Text} {names : List Text} {P : Text → Prop} :
    (∃ before after, n :: names = before ++ name :: after ∧ ∀ m ∈ before, P m) ↔
      n = name ∨ P n ∧ ∃ before after, names = before ++ name :: after ∧ ∀ m ∈ before, P m := by
  constructor
  · rintro ⟨before, after, h, hbefore⟩
    cases before with
    | nil => exact Or.inl (List.cons.inj h).1
    | cons m before =>
      obtain ⟨rfl, hrest⟩ := List.cons.inj h
      rw [List.forall_mem_cons] at hbefore
      exact Or.inr ⟨hbefore.1, before, after, hrest, hbefore.2⟩
  · rintro (rfl | ⟨hn, before, after, rfl, hbefore⟩)
    · exact ⟨[], names, rfl, List.forall_mem_nil _⟩
    · exact ⟨n :: before, after, rfl, List.forall_mem_cons.mpr ⟨hn, hbefore⟩⟩

theorem mem_distinctNames {seen names : List Text} {name : Text} :
    name ∈ distinctNames seen names ↔ normalName name ∉ seen ∧ name ≠ [] ∧
      ∃ before after, names = before ++ name :: after ∧
        ∀ m ∈ before, m ≠ [] → normalName m ≠ normalName name := by
  induction names generalizing seen with
  | nil => simp [distinctNames]
  | cons n names ih =>
    rw [distinctNames, exists_split_cons]
    split
    next h =>
      simp only [Bool.or_eq_true, List.isEmpty_iff, List.contains_iff_mem] at h
      rw [ih]
      grind
    next h =>
      simp only [Bool.or_eq_true, List.isEmpty_iff, List.contains_iff_mem, not_or] at h
      rw [List.mem_cons, ih]
      grind

theorem firstNames_distinctNames (names : List Text) : FirstNames names (distinctNames [] names) where
  sublist := distinctNames_sublist [] names
  distinct := (nodup_distinctNames [] names).1
  mem_iff := fun name => by simp [mem_distinctNames]

/-- The names that are required are the first names of the requirements whose first extra is asked for.
These are all that hang on an extra that is asked for, or on none, just if no requirement that hangs on
such an extra hangs first on another. -/
theorem requiredNames_of_guarded (gs : List Guarded) (requested : List Text) :
    FirstNames ((gs.filter (Guarded.FirstAsked requested)).map Guarded.name)
        (requiredNames (gs.map Guarded.text) requested) ∧
      (applicable (gs.map Guarded.text) requested =
          (gs.filter (Guarded.Asked requested)).map Guarded.text ↔
        ∀ g ∈ gs, g.Asked requested → g.FirstAsked requested) := by
  have hnames : (gs.filter (Guarded.FirstAsked requested)).map Guarded.name =
      (applicable (gs.map Guarded.text) requested).map Requirement.name := by
    rw [Guarded.applicable_eq, List.map_map]
    rfl
  rw [hnames]
  refine ⟨firstNames_distinctNames _, ?_⟩
  rw [Guarded.applicable_eq]
  exact Guarded.map_filter_firstAsked_eq_iff

theorem hangsOn_either :
    Requirement.HangsOn "pytest ; extra == 'dev' or extra == 'test'" (["dev", "test"] : List Text) := by
  have hblank : Requirement.Blank " " := by unfold Requirement.Blank; decide
  have hopens : Requirement.Opens '\'' "extra == '" := ⟨by decide, " ", " ", hblank, hblank, by decide⟩
  have hdev : Requirement.IsExtra "dev" := by unfold Requirement.IsExtra; decide
  have htest : Requirement.IsExtra "test" := by unfold Requirement.IsExtra; decide
  have hdeclared : Requirement.NoExtra "pytest " := Requirement.noExtra_of_unquoted (by decide)
  have htext : ("pytest ; extra == 'dev' or extra == 'test'" : Text) =
      "pytest " ++ CodePoint.scalar ';' :: " " ++
        ("extra == '" ++ ("dev" ++ [CodePoint.scalar '\'']) ++ (" " ++ "or" ++ " " ++
          ("extra == '" ++ ("test" ++ [CodePoint.scalar '\''])))) := by decide +kernel
  rw [htext]
  exact .anyOf hdeclared hblank
    (.or hdev ⟨_, _, hopens, rfl⟩ hblank hblank (.one htest ⟨_, _, hopens, rfl⟩))

/-- A requirement that hangs on either of two extras. -/
def twoAlternatives : Guarded where
  text := "pytest ; extra == 'dev' or extra == 'test'"
  extras := ["dev", "test"]
  hangsOn := hangsOn_either

/-- Asked for by its second extra, the requirement is not taken. -/
theorem second_alternative_dropped :
    requiredNames [twoAlternatives.text] ["test"] = [] ∧
      ¬FirstNames (([twoAlternatives].filter (Guarded.Asked ["test"])).map Guarded.name)
        (requiredNames [twoAlternatives.text] ["test"]) := by
  have hnone : requiredNames [twoAlternatives.text] ["test"] = [] := by decide +kernel
  have hasked : ([twoAlternatives].filter (Guarded.Asked ["test"])).map Guarded.name = ["pytest"] := by
    decide +kernel
  refine ⟨hnone, fun h => ?_⟩
  rw [hnone, hasked] at h
  have hmem := (h.mem_iff "pytest").mpr ⟨by decide, [], [], rfl, List.forall_mem_nil _⟩
  exact absurd hmem List.not_mem_nil

end ManifestGraph.Pip
