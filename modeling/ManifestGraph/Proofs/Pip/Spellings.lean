/-
  How packages are spelled in requirements. Of several spellings of one package the first one counts, and
  the packages that an item requires are met in the order of the spellings that count (`packagesOf_eq_iff`).
  Declaring two requirements first makes their spellings count (`exists_reordered_first`), so the order of
  the declarations does not show just if no two packages change places when they are spelled in another
  way (`spelledApart_iff`).
-/
import ManifestGraph.Proofs.Pip.Dag

namespace ManifestGraph.Pip

variable {r : Report} {i j : Item} {name a b : Text} {seen names ss ts : List Text}

/-! ## Two lists in ascending order -/

/-- If two lists show the same in the same order, nothing changes places between them. -/
theorem le_of_map_eq {α : Type} {f : Text → α} (hss : ss.Pairwise fun s t => Text.le s t = true)
    (hts : ts.Pairwise fun s t => Text.le s t = true) (hnodup : (ss.map f).Nodup)
    (heq : ss.map f = ts.map f) {s s' t t' : Text} (hs : s ∈ ss) (hs' : s' ∈ ss) (ht : t ∈ ts)
    (ht' : t' ∈ ts) (hst : f s = f t) (hst' : f s' = f t') (hle : Text.le s s' = true) :
    Text.le t t' = true := by
  have hplace : ∀ p q (hp : p < ss.length) (hq : q < ts.length), f ss[p] = f ts[q] → p = q := by
    intro p q hp hq hpq
    have hmap : (ss.map f)[p]? = (ss.map f)[q]? := by
      conv => rhs; rw [heq]
      simp [hp, hq, hpq]
    exact (List.getElem?_inj (by simpa using hp) hnodup).mp hmap
  obtain ⟨p, hp, rfl⟩ := List.mem_iff_getElem.mp hs
  obtain ⟨q, hq, rfl⟩ := List.mem_iff_getElem.mp hs'
  obtain ⟨p', hp', rfl⟩ := List.mem_iff_getElem.mp ht
  obtain ⟨q', hq', rfl⟩ := List.mem_iff_getElem.mp ht'
  obtain rfl := hplace p p' hp hp' hst
  obtain rfl := hplace q q' hq hq' hst'
  rcases Nat.lt_trichotomy p q with hpq | rfl | hqp
  · exact List.pairwise_iff_getElem.mp hts p q hp' hq' hpq
  · exact Text.le_refl _
  · -- then the first list has one text in both places
    have hback := List.pairwise_iff_getElem.mp hss q p hq hp hqp
    have hsame := congrArg f (Text.le_antisymm hle hback)
    have := hplace p q hp hq' (hsame.trans hst')
    omega

/-- Lists that show the same, in whatever order, show it in the same order if nothing changes places between
them. -/
theorem map_eq_of_le {α : Type} {f : Text → α} (hss : ss.Pairwise fun s t => Text.le s t = true)
    (hts : ts.Pairwise fun s t => Text.le s t = true) (hnodup : (ss.map f).Nodup)
    (hperm : (ss.map f).Perm (ts.map f))
    (hkeep : ∀ s ∈ ss, ∀ s' ∈ ss, ∀ t ∈ ts, ∀ t' ∈ ts, f s = f t → f s' = f t' →
      Text.le s s' = true → Text.le t t' = true) : ss.map f = ts.map f := by
  have hinj : ∀ s ∈ ss, ∀ s' ∈ ss, f s = f s' → s = s' := fun _ hs _ hs' =>
    List.inj_on_of_nodup_map hnodup hs hs'
  -- on what is shown, the order of the first list is an order for both
  let Before (x y : α) : Prop := ∀ s ∈ ss, ∀ s' ∈ ss, f s = x → f s' = y → Text.le s s' = true
  have hanti : ∀ x y, x ∈ ss.map f → y ∈ ts.map f → Before x y → Before y x → x = y := by
    intro x y hx hy hxy hyx
    obtain ⟨s, hs, rfl⟩ := List.mem_map.mp hx
    obtain ⟨s', hs', rfl⟩ := List.mem_map.mp (hperm.mem_iff.mpr hy)
    rw [Text.le_antisymm (hxy s hs s' hs' rfl rfl) (hyx s' hs' s hs rfl rfl)]
  have hfirst : (ss.map f).Pairwise Before := by
    refine List.pairwise_map.mpr (hss.imp_of_mem fun {s s'} hs hs' hle => ?_)
    intro u hu u' hu' hus hus'
    rwa [hinj u hu s hs hus, hinj u' hu' s' hs' hus']
  have hsecond : (ts.map f).Pairwise Before := by
    refine List.pairwise_map.mpr (hts.imp_of_mem fun {t t'} ht ht' hle => ?_)
    intro s hs s' hs' hst hst'
    refine (Bool.or_eq_true _ _ ▸ Text.le_total s s').elim id fun hback => ?_
    have htt := Text.le_antisymm hle (hkeep s' hs' s hs t' ht' t ht hst' hst hback)
    rw [hinj s hs s' hs' (by rw [hst, hst', htt])]
    exact Text.le_refl s'
  exact hperm.eq_of_pairwise hanti hfirst hsecond

/-! ## Which spellings count -/

theorem exists_mem_distinctNames (h : name ∈ names) (hne : name ≠ []) (hseen : normalName name ∉ seen) :
    ∃ n ∈ distinctNames seen names, normalName n = normalName name := by
  induction names generalizing seen with
  | nil => exact absurd h List.not_mem_nil
  | cons m names ih =>
    rw [distinctNames]
    split
    next hskip =>
      refine ih ((List.mem_cons.mp h).resolve_left ?_) hseen
      rintro rfl
      simp [hne, hseen] at hskip
    next hkeep =>
      by_cases hm : normalName m = normalName name
      · exact ⟨m, List.mem_cons_self, hm⟩
      · have hmem : name ∈ names := (List.mem_cons.mp h).resolve_left fun heq => hm (heq ▸ rfl)
        have hseen' : normalName name ∉ normalName m :: seen :=
          List.not_mem_cons_of_ne_of_not_mem (Ne.symm hm) hseen
        obtain ⟨n, hn, heq⟩ := ih hmem hseen'
        exact ⟨n, List.mem_cons_of_mem m hn, heq⟩

/-- The names in the requirements of an item that apply; empty ones do not count. -/
def Item.spelled (i : Item) : List Text :=
  ((applicable (i.requires.getD []) (i.extras.getD [])).map Requirement.name).filter fun n => !n.isEmpty

/-- The spellings by which an item requires packages of the report. -/
def Report.spellings (r : Report) (i : Item) : List Text := r.known i.spelled

/-- The packages of the report that an item requires, by their normal names, in the order in which they
are met. -/
def Report.packagesOf (r : Report) (i : Item) : List Text := (r.known i.dependencyNames).map normalName

/-- No two packages that an item requires change places when they are spelled in another of the item's
ways. -/
def Report.SpelledApart (r : Report) (i : Item) : Prop :=
  ∀ a ∈ r.spellings i, ∀ b ∈ r.spellings i, ∀ a' ∈ r.spellings i, ∀ b' ∈ r.spellings i,
    normalName a = normalName a' → normalName b = normalName b' → normalName a ≠ normalName b →
      Text.le a b = true → Text.le a' b' = true

instance (r : Report) (i : Item) : Decidable (r.SpelledApart i) :=
  inferInstanceAs (Decidable (∀ a ∈ r.spellings i, ∀ b ∈ r.spellings i, ∀ a' ∈ r.spellings i,
    ∀ b' ∈ r.spellings i, _ → _ → _ → _ → _))

theorem mem_spelled : name ∈ i.spelled ↔ name ≠ [] ∧
    ∃ e ∈ applicable (i.requires.getD []) (i.extras.getD []), Requirement.name e = name := by
  simp [Item.spelled, and_comm]

theorem mem_known_iff : name ∈ r.known names ↔ name ∈ names ∧ (r.item? name).isSome = true := by
  simp [Report.known, item?_eq_last?]

theorem mem_spelled_of_mem_dependencyNames (h : name ∈ i.dependencyNames) : name ∈ i.spelled := by
  have hmem := Text.mem_sort.mp h
  have hne := (((firstNames_distinctNames _).mem_iff name).mp hmem).1
  exact mem_spelled.mpr ⟨hne, List.mem_map.mp ((distinctNames_sublist [] _).subset hmem)⟩

theorem exists_mem_dependencyNames (h : name ∈ i.spelled) :
    ∃ n ∈ i.dependencyNames, normalName n = normalName name := by
  obtain ⟨hne, e, he, rfl⟩ := mem_spelled.mp h
  obtain ⟨n, hn, heq⟩ := exists_mem_distinctNames (List.mem_map_of_mem he) hne List.not_mem_nil
  exact ⟨n, Text.mem_sort.mpr hn, heq⟩

theorem item?_congr (h : normalName a = normalName b) : r.item? a = r.item? b := by
  rw [item?_eq_last?, item?_eq_last?, h]

theorem mem_packagesOf : name ∈ r.packagesOf i ↔ ∃ n ∈ r.spellings i, normalName n = name := by
  constructor
  · intro h
    obtain ⟨n, hn, rfl⟩ := List.mem_map.mp h
    obtain ⟨hmem, hsome⟩ := mem_known_iff.mp hn
    exact ⟨n, mem_known_iff.mpr ⟨mem_spelled_of_mem_dependencyNames hmem, hsome⟩, rfl⟩
  · rintro ⟨n, hn, rfl⟩
    obtain ⟨hmem, hsome⟩ := mem_known_iff.mp hn
    obtain ⟨m, hm, heq⟩ := exists_mem_dependencyNames hmem
    refine List.mem_map.mpr ⟨m, mem_known_iff.mpr ⟨hm, ?_⟩, heq⟩
    rw [item?_congr heq, hsome]

theorem pairwise_known_dependencyNames (r : Report) (i : Item) :
    (r.known i.dependencyNames).Pairwise fun s t => Text.le s t = true :=
  (Text.pairwise_sort _).sublist List.filter_sublist

theorem mem_spellings_of_mem_known (h : name ∈ r.known i.dependencyNames) : name ∈ r.spellings i :=
  mem_known_iff.mpr ((mem_known_iff.mp h).imp_left mem_spelled_of_mem_dependencyNames)

/-- Items with the same spellings require the same packages in the same order just if no two packages change
places between the spellings that count. -/
theorem packagesOf_eq_iff (h : ∀ n, n ∈ i.spelled ↔ n ∈ j.spelled) :
    r.packagesOf i = r.packagesOf j ↔
      ∀ a ∈ r.known i.dependencyNames, ∀ b ∈ r.known i.dependencyNames,
        ∀ a' ∈ r.known j.dependencyNames, ∀ b' ∈ r.known j.dependencyNames,
          normalName a = normalName a' → normalName b = normalName b' →
            Text.le a b = true → Text.le a' b' = true := by
  have hsorted := pairwise_known_dependencyNames r i
  have hsorted' := pairwise_known_dependencyNames r j
  have hnodup := nodup_known_dependencyNames r i
  constructor
  · intro heq a ha b hb a' ha' b' hb' haa hbb hle
    exact le_of_map_eq hsorted hsorted' hnodup heq ha hb ha' hb' haa hbb hle
  · refine map_eq_of_le hsorted hsorted' hnodup ?_
    refine (List.perm_ext_iff_of_nodup hnodup (nodup_known_dependencyNames r j)).mpr fun name => ?_
    calc name ∈ r.packagesOf i ↔ ∃ n ∈ r.spellings i, normalName n = name := mem_packagesOf
      _ ↔ ∃ n ∈ r.spellings j, normalName n = name := by simp only [Report.spellings, mem_known_iff, h]
      _ ↔ name ∈ r.packagesOf j := mem_packagesOf.symm

/-! ## Requirements in another order -/

/-- An item whose requirements are declared in another order. -/
structure Item.Reordered (i j : Item) : Prop where
  name : i.name = j.name
  version : i.version = j.version
  requested : i.requested = j.requested
  extras : i.extras = j.extras
  requires : Option.Rel List.Perm i.requires j.requires

namespace Item.Reordered

theorem refl (i : Item) : i.Reordered i := by
  refine ⟨rfl, rfl, rfl, rfl, ?_⟩
  cases i.requires with
  | none => exact .none
  | some es => exact .some (.refl es)

theorem requirements_perm (h : i.Reordered j) : (i.requires.getD []).Perm (j.requires.getD []) := by
  have hrequires := h.requires
  generalize i.requires = es, j.requires = fs at hrequires
  cases hrequires with
  | none => exact .nil
  | some hperm => exact hperm

theorem mem_spelled_iff (h : i.Reordered j) : name ∈ i.spelled ↔ name ∈ j.spelled := by
  have hperm := h.requirements_perm.filter fun e =>
    (Requirement.extra e).isEmpty || ((j.extras.getD []).map Text.lower).contains (Requirement.extra e).lower
  rw [mem_spelled, mem_spelled, h.extras]
  simp only [applicable, hperm.mem_iff]

end Item.Reordered

theorem applicable_cons {e : Text} {es fs extras : List Text} (h : e ∈ applicable es extras) :
    applicable (e :: fs) extras = e :: applicable fs extras :=
  List.filter_cons_of_pos (List.mem_filter.mp h).2

theorem distinctNames_first (ha : a ≠ []) (hb : b ≠ []) (hne : normalName a ≠ normalName b) :
    distinctNames [] (a :: b :: names) = a :: b :: distinctNames [normalName b, normalName a] names := by
  simp [distinctNames, ha, hb, Ne.symm hne]

/-- Any spellings of two packages can be made to count: by declaring their requirements first. -/
theorem exists_reordered_first (ha : a ∈ i.spelled) (hb : b ∈ i.spelled)
    (hne : normalName a ≠ normalName b) :
    ∃ j, i.Reordered j ∧ a ∈ j.dependencyNames ∧ b ∈ j.dependencyNames := by
  obtain ⟨hane, e, he, rfl⟩ := mem_spelled.mp ha
  obtain ⟨hbne, e', he', rfl⟩ := mem_spelled.mp hb
  cases hes : i.requires with
  | none => rw [hes] at he; exact absurd he List.not_mem_nil
  | some es =>
    rw [hes, Option.getD_some] at he he'
    have hmem := List.mem_of_mem_filter he
    have hmem' : e' ∈ es.erase e := by
      refine (List.mem_erase_of_ne ?_).mpr (List.mem_of_mem_filter he')
      rintro rfl
      exact hne rfl
    have hperm : es.Perm (e :: e' :: (es.erase e).erase e') :=
      (List.perm_cons_erase hmem).trans ((List.perm_cons_erase hmem').cons e)
    let j : Item := { i with requires := some (e :: e' :: (es.erase e).erase e') }
    have hj : j.dependencyNames = Text.sort (Requirement.name e :: Requirement.name e' ::
        distinctNames [normalName (Requirement.name e'), normalName (Requirement.name e)]
          ((applicable ((es.erase e).erase e') (i.extras.getD [])).map Requirement.name)) := by
      rw [← distinctNames_first hane hbne hne, Item.dependencyNames, requiredNames]
      change Text.sort (distinctNames [] ((applicable (e :: e' :: (es.erase e).erase e')
        (i.extras.getD [])).map Requirement.name)) = _
      rw [applicable_cons he, applicable_cons he', List.map_cons, List.map_cons]
    refine ⟨j, ⟨rfl, rfl, rfl, rfl, ?_⟩, ?_, ?_⟩
    · rw [hes]
      exact .some hperm
    · rw [hj, Text.mem_sort]
      exact List.mem_cons_self
    · rw [hj, Text.mem_sort]
      exact List.mem_cons_of_mem _ List.mem_cons_self

/-- The packages that an item requires are met in the same order, in whatever order it declares its
requirements, just if they are spelled apart. -/
theorem spelledApart_iff : r.SpelledApart i ↔ ∀ j, i.Reordered j → r.packagesOf i = r.packagesOf j := by
  constructor
  · intro hapart j hij
    refine (packagesOf_eq_iff fun _ => hij.mem_spelled_iff).mpr fun a ha b hb a' ha' b' hb' haa hbb hle => ?_
    by_cases hab : normalName a = normalName b
    · -- one package has one spelling that counts
      have hsame := List.inj_on_of_nodup_map (nodup_known_dependencyNames r j) ha' hb'
        (haa ▸ hbb ▸ hab)
      rw [hsame]
      exact Text.le_refl b'
    · have hback : ∀ n ∈ r.known j.dependencyNames, n ∈ r.spellings i := fun n hn =>
        mem_known_iff.mpr ((mem_known_iff.mp (mem_spellings_of_mem_known hn)).imp_left hij.mem_spelled_iff.mpr)
      exact hapart a (mem_spellings_of_mem_known ha) b (mem_spellings_of_mem_known hb) a' (hback a' ha') b'
        (hback b' hb') haa hbb hab hle
  · intro hsame a ha b hb a' ha' b' hb' haa hbb hab hle
    obtain ⟨ha, haknown⟩ := mem_known_iff.mp ha
    obtain ⟨hb, hbknown⟩ := mem_known_iff.mp hb
    obtain ⟨ha', haknown'⟩ := mem_known_iff.mp ha'
    obtain ⟨hb', hbknown'⟩ := mem_known_iff.mp hb'
    obtain ⟨j, hij, haj, hbj⟩ := exists_reordered_first ha hb hab
    obtain ⟨k, hik, hak, hbk⟩ := exists_reordered_first ha' hb' (haa ▸ hbb ▸ hab)
    have hjk : r.packagesOf j = r.packagesOf k := (hsame j hij).symm.trans (hsame k hik)
    exact (packagesOf_eq_iff fun _ => hij.mem_spelled_iff.symm.trans hik.mem_spelled_iff).mp hjk
      a (mem_known_iff.mpr ⟨haj, haknown⟩) b (mem_known_iff.mpr ⟨hbj, hbknown⟩)
      a' (mem_known_iff.mpr ⟨hak, haknown'⟩) b' (mem_known_iff.mpr ⟨hbk, hbknown'⟩) haa hbb hle

end ManifestGraph.Pip
