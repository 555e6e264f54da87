/-
  What a search of a whole tree finds. A file is found just if its name fits and neither it nor a directory
  on the way to it is passed over (`Sought`, `mem_filesIn`). The names on the way tell the file, because no
  name holds a slash, so every file is found once (`nodup_filesIn`). In which order a directory lists its
  entries makes no difference (`Relisted.perm_filesIn`), and the files come in ascending order
  (`find_sought`).
-/
import ManifestGraph.Proofs.Data.Settled
import ManifestGraph.Proofs.Discovery
import ManifestGraph.Proofs.Text.Splitting
import Mathlib.Data.List.Sort

namespace ManifestGraph

open ManifestGraph.Path (slash)

/-! ## Trees -/

/-- An entry of a directory can have this name. -/
structure FileTree.IsName (name : Text) : Prop where
  filled : name ≠ []
  unbroken : slash ∉ name
  here : name ≠ Text.ofString "."

instance (name : Text) : Decidable (FileTree.IsName name) :=
  decidable_of_iff (name ≠ [] ∧ slash ∉ name ∧ name ≠ Text.ofString ".")
    ⟨fun ⟨h, h', h''⟩ => ⟨h, h', h''⟩, fun ⟨h, h', h''⟩ => ⟨h, h', h''⟩⟩

/-- Every directory of the tree has proper names, each of them once. -/
inductive FileTree.Proper : FileTree → Prop where
  | file (content : Bytes) : Proper (.file content)
  | directory {es : List (Text × FileTree)} (distinct : (es.map Prod.fst).Nodup)
      (names : ∀ e ∈ es, IsName e.1) (inner : ∀ e ∈ es, Proper e.2) : Proper (.directory es)

/-- The same entries, and the same in each of their directories, listed in another order. -/
inductive FileTree.Relisted : List (Text × FileTree) → List (Text × FileTree) → Prop where
  | perm {es es' : List (Text × FileTree)} (h : es.Perm es') : Relisted es es'
  | within {es es' : List (Text × FileTree)} (before : List (Text × FileTree)) (name : Text)
      (after : List (Text × FileTree)) (h : Relisted es es') :
      Relisted (before ++ (name, .directory es) :: after) (before ++ (name, .directory es') :: after)
  | trans {es es' es'' : List (Text × FileTree)} (h : Relisted es es') (h' : Relisted es' es'') :
      Relisted es es''

namespace FileTree

variable {t : FileTree} {name : Text} {names : List Text} {es : List (Text × FileTree)}

theorem at?_cons (h : (es.map Prod.fst).Nodup) (hmem : (name, t) ∈ es) (names : List Text) :
    (directory es).at? (name :: names) = t.at? names := by
  rw [at?, entry?, lookup_of_mem h hmem, Option.bind_some]

/-- Names that lead somewhere are proper ones. -/
theorem Proper.isName (h : t.Proper) (hat : (t.at? names).isSome) : ∀ name ∈ names, IsName name := by
  induction names generalizing t with
  | nil => exact List.forall_mem_nil _
  | cons name names ih =>
    cases h with
    | file content => cases hat
    | @directory es distinct hnames inner =>
      rw [at?, entry?] at hat
      cases hlookup : List.lookup name es with
      | none => rw [hlookup] at hat; cases hat
      | some u =>
        rw [hlookup, Option.bind_some] at hat
        have hmem := mem_of_lookup hlookup
        exact List.forall_mem_cons.mpr ⟨hnames _ hmem, ih (inner _ hmem) hat⟩

end FileTree

/-- Proper names that are joined with slashes are the parts of a path. -/
theorem Path.ofText_join {names : List Text} (hnames : ∀ name ∈ names, FileTree.IsName name)
    (hne : names ≠ []) : ofText (Text.join [slash] names) = { parts := names } := by
  have hstart : leadingSlashes (Text.join [slash] names) = 0 := by
    cases names with
    | nil => exact absurd rfl hne
    | cons name rest =>
      have hname := hnames name List.mem_cons_self
      obtain ⟨c, t, rfl⟩ := List.exists_cons_of_ne_nil hname.filled
      have hc : c ≠ slash := fun heq => hname.unbroken (heq ▸ List.mem_cons_self)
      have hjoin : ∃ t', Text.join [slash] ((c :: t) :: rest) = c :: t' := by
        cases rest with
        | nil => exact ⟨t, Text.join_singleton _ _⟩
        | cons name' rest => exact ⟨_, Text.join_cons_of_ne_nil _ (List.cons_ne_nil _ _)⟩
      obtain ⟨t', hjoin⟩ := hjoin
      rw [hjoin, leadingSlashes, List.takeWhile_cons_of_neg (by simpa using hc)]
      rfl
  have hparts := Text.splitOn_join (fun name hname => (hnames name hname).unbroken) hne
  rw [ofText, hstart, hparts, List.filter_eq_self.mpr]
  intro name hname
  obtain ⟨hfilled, _, hhere⟩ := hnames name hname
  simpa using ⟨hfilled, hhere⟩

namespace Discovery

open FileTree (Proper Relisted IsName)

variable {includes excludes excludes' : List Text} {way name x : Text} {names : List Text} {t : FileTree}
  {es es' : List (Text × FileTree)} {fs : FileSystem} {root : Path} {files : List FoundFile}

/-! ## Files that are searched for -/

/-- No name is passed over, by itself or with the way to it; `way` leads to the first one. -/
def Passes (excludes : List Text) (way : Text) (names : List Text) : Prop :=
  ∀ before name, before ++ [name] <+: names →
    Exclusion.covers excludes name (way ++ Text.join [slash] (before ++ [name])) = false

/-- The names lead from a tree, to which `way` leads, to a file that is searched for: the name of the file
fits, and neither the file nor a directory on the way to it is passed over. -/
structure Sought (includes excludes : List Text) (way : Text) (t : FileTree) (names : List Text) :
    Prop where
  isFile : ∃ content, t.at? names = some (.file content)
  fits : ∃ p ∈ includes, Glob.accepts p (names.getLastD []) = true
  passes : Passes excludes way names

theorem passes_nil : Passes excludes way [] := by
  intro before name hstart
  cases before <;> exact absurd (List.prefix_nil.mp hstart) (List.cons_ne_nil _ _)

theorem passes_cons : Passes excludes way (name :: names) ↔
    Exclusion.covers excludes name (way ++ name) = false ∧
      Passes excludes (way ++ name ++ [slash]) names := by
  have hjoin : ∀ before name', way ++ Text.join [slash] (name :: before ++ [name']) =
      way ++ name ++ [slash] ++ Text.join [slash] (before ++ [name']) := by
    intro before name'
    rw [List.cons_append, Text.join_cons_of_ne_nil name (List.concat_ne_nil name' before)]
    simp only [List.append_assoc, List.cons_append, List.nil_append]
  constructor
  · refine fun h => ⟨?_, fun before name' hstart => ?_⟩
    · have hfirst := h [] name ⟨names, rfl⟩
      rwa [List.nil_append, Text.join_singleton] at hfirst
    · rw [← hjoin]
      exact h (name :: before) name' (List.cons_prefix_cons.mpr ⟨rfl, hstart⟩)
  · rintro ⟨hfirst, hrest⟩ before name' hstart
    cases before with
    | nil =>
      obtain ⟨rfl, _⟩ := List.cons_prefix_cons.mp hstart
      rw [List.nil_append, Text.join_singleton]
      exact hfirst
    | cons first before =>
      obtain ⟨rfl, hinner⟩ := List.cons_prefix_cons.mp hstart
      rw [hjoin]
      exact hrest before name' hinner

theorem not_sought_nil : ¬ Sought includes excludes way (.directory es) [] := by
  intro h
  obtain ⟨content, hat⟩ := h.isFile
  cases hat

/-- A file of the directory itself. -/
theorem sought_singleton (h : (es.map Prod.fst).Nodup) (hmem : (name, t) ∈ es) :
    Sought includes excludes way (.directory es) [name] ↔
      Exclusion.covers excludes name (way ++ name) = false ∧ (∃ content, t = .file content) ∧
        ∃ p ∈ includes, Glob.accepts p name = true := by
  have hat : (FileTree.directory es).at? [name] = some t := FileTree.at?_cons h hmem []
  constructor
  · rintro ⟨⟨content, hfile⟩, hfits, hpasses⟩
    rw [hat] at hfile
    cases hfile
    exact ⟨(passes_cons.mp hpasses).1, ⟨content, rfl⟩, hfits⟩
  · rintro ⟨hpass, ⟨content, rfl⟩, hfits⟩
    exact ⟨⟨content, hat⟩, hfits, passes_cons.mpr ⟨hpass, passes_nil⟩⟩

/-- A file further down. -/
theorem sought_cons (h : (es.map Prod.fst).Nodup) (hmem : (name, t) ∈ es) (hne : names ≠ []) :
    Sought includes excludes way (.directory es) (name :: names) ↔
      Exclusion.covers excludes name (way ++ name) = false ∧
        Sought includes excludes (way ++ name ++ [slash]) t names := by
  have hlast : (name :: names).getLastD [] = names.getLastD [] := by
    rw [List.getLastD_eq_getLast?, List.getLastD_eq_getLast?, List.getLast?_cons_of_ne_nil hne]
  constructor
  · rintro ⟨hfile, hfits, hpasses⟩
    rw [FileTree.at?_cons h hmem] at hfile
    rw [hlast] at hfits
    obtain ⟨hpass, hpasses⟩ := passes_cons.mp hpasses
    exact ⟨hpass, hfile, hfits, hpasses⟩
  · rintro ⟨hpass, hfile, hfits, hpasses⟩
    refine ⟨?_, hlast.symm ▸ hfits, passes_cons.mpr ⟨hpass, hpasses⟩⟩
    rwa [FileTree.at?_cons h hmem]

/-! ## Searches -/

/-- The files of one entry, unless it is passed over. -/
def filesOf (includes excludes : List Text) (way : Text) (e : Text × FileTree) : List Text :=
  if Exclusion.covers excludes e.1 (way ++ e.1) then []
  else filesAt includes excludes (way ++ e.1) e.1 e.2

theorem filesIn_eq (includes excludes : List Text) (way : Text) (es : List (Text × FileTree)) :
    filesIn includes excludes way es = es.flatMap (filesOf includes excludes way) := by
  induction es with
  | nil => rfl
  | cons e es ih =>
    rw [filesIn, ih]
    rfl

theorem mem_filesOf : x ∈ filesOf includes excludes way (name, t) ↔
    Exclusion.covers excludes name (way ++ name) = false ∧
      x ∈ filesAt includes excludes (way ++ name) name t := by
  unfold filesOf
  split
  next hcovers => simp [hcovers]
  next hcovers => simp [hcovers]

theorem mem_filesAt_file {content : Bytes} : x ∈ filesAt includes excludes way name (.file content) ↔
    (∃ p ∈ includes, Glob.accepts p name = true) ∧ x = way := by
  rw [filesAt, ← List.any_eq_true]
  split
  next hfits => simp [hfits]
  next hfits => simp [hfits]

/-- The files of an entry are those that are searched for through it, if this is so in the entry itself. -/
theorem mem_filesOf_iff (h : (es.map Prod.fst).Nodup) (hmem : (name, t) ∈ es)
    (hinner : ∀ inner, t = .directory inner → ∀ way x, x ∈ filesIn includes excludes way inner ↔
      ∃ names, Sought includes excludes way (.directory inner) names ∧
        x = way ++ Text.join [slash] names) :
    x ∈ filesOf includes excludes way (name, t) ↔
      ∃ names, Sought includes excludes way (.directory es) (name :: names) ∧
        x = way ++ Text.join [slash] (name :: names) := by
  rw [mem_filesOf]
  cases t with
  | file content =>
    rw [mem_filesAt_file]
    constructor
    · rintro ⟨hpass, hfits, rfl⟩
      refine ⟨[], (sought_singleton h hmem).mpr ⟨hpass, ⟨content, rfl⟩, hfits⟩, ?_⟩
      rw [Text.join_singleton]
    · rintro ⟨names, hsought, rfl⟩
      cases names with
      | nil =>
        obtain ⟨hpass, _, hfits⟩ := (sought_singleton h hmem).mp hsought
        exact ⟨hpass, hfits, by rw [Text.join_singleton]⟩
      | cons name' names =>
        obtain ⟨_, hsought⟩ := (sought_cons h hmem (List.cons_ne_nil _ _)).mp hsought
        obtain ⟨content', hat⟩ := hsought.isFile
        cases hat
  | directory inner =>
    have hway : ∀ names ≠ [], way ++ name ++ [slash] ++ Text.join [slash] names =
        way ++ Text.join [slash] (name :: names) := by
      intro names hne
      rw [Text.join_cons_of_ne_nil name hne, List.append_assoc, List.append_assoc]
      rfl
    rw [filesAt, hinner inner rfl]
    constructor
    · rintro ⟨hpass, names, hsought, rfl⟩
      have hne : names ≠ [] := fun hnil => not_sought_nil (hnil ▸ hsought)
      exact ⟨names, (sought_cons h hmem hne).mpr ⟨hpass, hsought⟩, hway names hne⟩
    · rintro ⟨names, hsought, rfl⟩
      have hne : names ≠ [] := by
        rintro rfl
        obtain ⟨_, ⟨content, hfile⟩, _⟩ := (sought_singleton h hmem).mp hsought
        cases hfile
      obtain ⟨hpass, hsought⟩ := (sought_cons h hmem hne).mp hsought
      exact ⟨hpass, names, hsought, (hway names hne).symm⟩

/-- The files that are found are those that are searched for. -/
theorem mem_filesIn (h : (FileTree.directory es).Proper) : x ∈ filesIn includes excludes way es ↔
    ∃ names, Sought includes excludes way (.directory es) names ∧ x = way ++ Text.join [slash] names := by
  generalize hdirectory : FileTree.directory es = t at h
  induction h generalizing es way x with
  | file content => cases hdirectory
  | @directory entries distinct hnames inner ih =>
    obtain rfl : es = entries := FileTree.directory.inj hdirectory
    have hentry : ∀ name t, (name, t) ∈ es → (x ∈ filesOf includes excludes way (name, t) ↔
        ∃ names, Sought includes excludes way (.directory es) (name :: names) ∧
          x = way ++ Text.join [slash] (name :: names)) := by
      intro name t hmem
      refine mem_filesOf_iff distinct hmem ?_
      rintro inner rfl way x
      exact ih _ hmem rfl
    rw [filesIn_eq, List.mem_flatMap]
    constructor
    · rintro ⟨⟨name, u⟩, hmem, hx⟩
      obtain ⟨names, h⟩ := (hentry name u hmem).mp hx
      exact ⟨name :: names, h⟩
    · rintro ⟨names, hsought, hx⟩
      cases names with
      | nil => exact absurd hsought not_sought_nil
      | cons name names =>
        obtain ⟨content, hat⟩ := hsought.isFile
        obtain ⟨u, hlookup, _⟩ := Option.bind_eq_some_iff.mp hat
        have hmem : (name, u) ∈ es := mem_of_lookup hlookup
        exact ⟨(name, u), hmem, (hentry name u hmem).mpr ⟨names, hsought, hx⟩⟩

/-- The names on the way to a file are proper, and there is at least one. -/
theorem Sought.isName (hproper : (FileTree.directory es).Proper)
    (h : Sought includes excludes way (.directory es) names) :
    (∀ name ∈ names, IsName name) ∧ names ≠ [] := by
  obtain ⟨content, hat⟩ := h.isFile
  exact ⟨hproper.isName (Option.isSome_of_eq_some hat), fun hnil => not_sought_nil (hnil ▸ h)⟩

/-- The entry of a directory in which a file was found is the first name on its way. -/
theorem exists_of_mem_filesOf (hproper : (FileTree.directory es).Proper) (hmem : (name, t) ∈ es)
    (h : x ∈ filesOf includes excludes way (name, t)) :
    ∃ names, (∀ name' ∈ name :: names, slash ∉ name') ∧ x = way ++ Text.join [slash] (name :: names) := by
  cases hproper with
  | directory distinct hnames inner =>
    obtain ⟨names, hsought, hx⟩ :=
      (mem_filesOf_iff distinct hmem fun _ ht _ _ => mem_filesIn (ht ▸ inner _ hmem)).mp h
    have hnames := (hsought.isName (.directory distinct hnames inner)).1
    exact ⟨names, fun part hpart => (hnames part hpart).unbroken, hx⟩

/-- Every file is found once. -/
theorem nodup_filesIn (h : (FileTree.directory es).Proper) : (filesIn includes excludes way es).Nodup := by
  generalize hdirectory : FileTree.directory es = t at h
  induction h generalizing es way with
  | file content => cases hdirectory
  | @directory entries distinct hnames inner ih =>
    obtain rfl : es = entries := FileTree.directory.inj hdirectory
    rw [filesIn_eq, List.nodup_flatMap]
    constructor
    · rintro ⟨name, t⟩ hmem
      unfold filesOf
      split
      next => exact List.nodup_nil
      next =>
        cases t with
        | file content =>
          rw [filesAt]
          split
          next => exact List.nodup_singleton _
          next => exact List.nodup_nil
        | directory es' => exact ih _ hmem rfl
    · have hproper : (FileTree.directory es).Proper := .directory distinct hnames inner
      refine (List.Pairwise.of_map Prod.fst (fun _ _ => id) distinct).imp_of_mem ?_
      rintro ⟨name, t⟩ ⟨name', t'⟩ hmem hmem' hdistinct x hx hx'
      obtain ⟨names, hnames, rfl⟩ := exists_of_mem_filesOf hproper hmem hx
      obtain ⟨names', hnames', hsame⟩ := exists_of_mem_filesOf hproper hmem' hx'
      have hparts := Text.join_injective hnames hnames' (List.cons_ne_nil _ _) (List.cons_ne_nil _ _)
        (List.append_cancel_left hsame)
      exact hdistinct (List.cons.inj hparts).1

/-- In which order the entries are listed makes no difference. -/
theorem perm_filesIn_of_relisted (h : Relisted es es') (way : Text) :
    (filesIn includes excludes way es).Perm (filesIn includes excludes way es') := by
  induction h generalizing way with
  | perm hperm =>
    rw [filesIn_eq, filesIn_eq]
    exact hperm.flatMap_right _
  | @within inner inner' before name after _ ih =>
    have hentry : (filesOf includes excludes way (name, .directory inner)).Perm
        (filesOf includes excludes way (name, .directory inner')) := by
      unfold filesOf
      split
      next => exact List.Perm.refl _
      next => exact ih _
    simp only [filesIn_eq, List.flatMap_append, List.flatMap_cons]
    exact (hentry.append_right _).append_left _
  | trans _ _ ih ih' => exact (ih way).trans (ih' way)

theorem mem_search (h : (FileTree.directory es).Proper) : x ∈ search includes excludes (.directory es) ↔
    ∃ names, Sought includes excludes [] (.directory es) names ∧ x = Text.join [slash] names := by
  rw [search_directory, Text.mem_sort]
  exact mem_filesIn h

theorem nodup_search (h : (FileTree.directory es).Proper) :
    (search includes excludes (.directory es)).Nodup :=
  (Text.perm_sort _).nodup_iff.mpr (nodup_filesIn h)

/-! ## More exclusions -/

theorem covers_of_subset (hsub : excludes ⊆ excludes') (h : Exclusion.covers excludes name x = true) :
    Exclusion.covers excludes' name x = true := by
  obtain ⟨p, hp, haccepts⟩ := List.any_eq_true.mp h
  exact List.any_eq_true.mpr ⟨p, hsub hp, haccepts⟩

/-- What is searched for under more exclusions is searched for under fewer. -/
theorem Sought.of_subset (hsub : excludes ⊆ excludes') (h : Sought includes excludes' way t names) :
    Sought includes excludes way t names := by
  refine ⟨h.isFile, h.fits, fun before name hstart => ?_⟩
  have hpasses := h.passes before name hstart
  rw [← Bool.not_eq_true] at hpasses ⊢
  exact fun hcovers => hpasses (covers_of_subset hsub hcovers)

/-- More exclusions only remove files. -/
theorem search_sublist (hproper : (FileTree.directory es).Proper) (hsub : excludes ⊆ excludes') :
    (search includes excludes' (.directory es)).Sublist (search includes excludes (.directory es)) := by
  have hfewer : search includes excludes' (.directory es) ⊆ search includes excludes (.directory es) := by
    intro x hx
    obtain ⟨names, hsought, rfl⟩ := (mem_search hproper).mp hx
    exact (mem_search hproper).mpr ⟨names, hsought.of_subset hsub, rfl⟩
  have : Std.Antisymm fun s t : Text => Text.le s t = true := ⟨fun _ _ => Text.le_antisymm⟩
  exact List.sublist_of_subperm_of_pairwise (List.subperm_of_subset (nodup_search hproper) hfewer)
    (Text.pairwise_sort _) (Text.pairwise_sort _)

/-! ## The files that are found -/

/-- The file that names lead to from the root of a search. -/
def fileAt (root : Path) (names : List Text) : FoundFile :=
  ⟨{ root with parts := root.parts ++ names }, Text.join [slash] names⟩

theorem fileAt_eq (hnames : ∀ name ∈ names, IsName name) (hne : names ≠ []) :
    (⟨root ++ Path.ofText (Text.join [slash] names), Text.join [slash] names⟩ : FoundFile) =
      fileAt root names := by
  rw [Path.ofText_join hnames hne]
  rfl

/-- A search of a directory finds the files that are searched for and no others, each of them once and in
ascending order. In which order the directory and those in it are listed makes no difference, and more
exclusions only remove files. -/
theorem find_sought (includes excludes : List Text) (hroot : fs.look root = .ok (some (.directory es)))
    (hproper : (FileTree.directory es).Proper) :
    ∃ files, find fs root includes excludes = .ok files ∧
      (∀ file, file ∈ files ↔
        ∃ names, Sought includes excludes [] (.directory es) names ∧ file = fileAt root names) ∧
      files.Pairwise (fun file file' =>
        Text.le file.relative file'.relative = true ∧ file.relative ≠ file'.relative) ∧
      (∀ fs' es', fs'.look root = .ok (some (.directory es')) → Relisted es es' →
        find fs' root includes excludes = .ok files) ∧
      ∀ excludes', excludes ⊆ excludes' →
        ∃ fewer, find fs root includes excludes' = .ok fewer ∧ fewer.Sublist files := by
  refine ⟨_, find_of_root (root?_of_look hroot), ?_, ?_, ?_, ?_⟩
  · intro file
    rw [List.mem_map]
    constructor
    · rintro ⟨way, hway, rfl⟩
      obtain ⟨names, hsought, rfl⟩ := (mem_search hproper).mp hway
      obtain ⟨hnames, hne⟩ := hsought.isName hproper
      exact ⟨names, hsought, fileAt_eq hnames hne⟩
    · rintro ⟨names, hsought, rfl⟩
      obtain ⟨hnames, hne⟩ := hsought.isName hproper
      exact ⟨_, (mem_search hproper).mpr ⟨names, hsought, rfl⟩, fileAt_eq hnames hne⟩
  · rw [List.pairwise_map]
    exact List.Pairwise.and (Text.pairwise_sort _) (nodup_search hproper)
  · intro fs' es' hroot' hrelisted
    rw [find_of_root (root?_of_look hroot'), search_directory, search_directory,
      Text.sort_eq_of_perm (perm_filesIn_of_relisted hrelisted [])]
  · intro excludes' hsub
    exact ⟨_, find_of_root (root?_of_look hroot), (search_sublist hproper hsub).map _⟩

/-- A directory with nothing but a lock file. -/
def lockedDirectory : FileTree := .directory [("uv.lock", .file [])]

/-- A project with the packages that it installed. -/
def lockedEntries : List (Text × FileTree) :=
  [("uv.lock", .file []), ("node_modules", lockedDirectory), ("a", lockedDirectory)]

/-- The project as all there is. -/
def lockedFiles : FileSystem := { tree := .directory lockedEntries }

theorem proper_lockedEntries : (FileTree.directory lockedEntries).Proper := by
  have hlocked : lockedDirectory.Proper :=
    .directory (by decide) (by decide) (fun _ he => List.mem_singleton.mp he ▸ .file [])
  refine .directory (by decide) (by decide) ?_
  exact List.forall_mem_cons.mpr ⟨.file [],
    List.forall_mem_cons.mpr ⟨hlocked, List.forall_mem_singleton.mpr hlocked⟩⟩

theorem find_sought_lockedFiles :
    lockedFiles.look (Path.ofText ".") = .ok (some (.directory lockedEntries)) ∧
      (FileTree.directory lockedEntries).Proper ∧
      ∃ files, find lockedFiles (Path.ofText ".") ["uv.lock"] ["node_modules"] = .ok files ∧
        fileAt (Path.ofText ".") ["a", "uv.lock"] ∈ files ∧
        fileAt (Path.ofText ".") ["node_modules", "uv.lock"] ∉ files := by
  have hlocate : lockedFiles.locate (Path.ofText ".") = .ok [] :=
    Except.eq_ok_of_toOption (by decide +kernel)
  have hlook : lockedFiles.look (Path.ofText ".") = .ok (some (.directory lockedEntries)) :=
    FileSystem.look_of_locate hlocate rfl
  obtain ⟨files, hfind, hmem, _⟩ := find_sought ["uv.lock"] ["node_modules"] hlook proper_lockedEntries
  refine ⟨hlook, proper_lockedEntries, files, hfind, (hmem _).mpr ⟨_, ⟨⟨[], rfl⟩, ?_, ?_⟩, rfl⟩, ?_⟩
  · exact ⟨_, List.mem_singleton_self _, by decide +kernel⟩
  · exact passes_cons.mpr ⟨by decide +kernel, passes_cons.mpr ⟨by decide +kernel, passes_nil⟩⟩
  · intro hfound
    obtain ⟨names, hsought, hfile⟩ := (hmem _).mp hfound
    have hnames : names = ["node_modules", "uv.lock"] := (congrArg (fun f => f.path.parts) hfile).symm
    have hpass := (passes_cons.mp (hnames ▸ hsought.passes)).1
    exact absurd hpass (by decide +kernel)

end Discovery
end ManifestGraph
