/-
  Files that were written. A file put where there is no directory keeps the directories with all their names
  (`grows_put`), so that every path leads where it led before (`follow_of_grows`), and what was written to a
  path is read from it (`read_write`).
-/
import ManifestGraph.FileTree
import ManifestGraph.Proofs.Data.Settled
import ManifestGraph.Proofs.Machine

namespace ManifestGraph

/-- A path that has parts ends with its name. -/
theorem Path.parts_eq {p : Path} (h : p.parts ≠ []) : p.parts = p.parent.parts ++ [p.name] := by
  rw [parent, name, List.getLastD_eq_getLast?, List.getLast?_eq_some_getLast h, Option.getD_some,
    List.dropLast_concat_getLast]

namespace FileTree

variable {t t' new : FileTree} {name : Text} {names : List Text} {es : List (Text × FileTree)}
  {content : Bytes}

/-- Every directory of the first tree is one of the second tree, where it has at least the same names. -/
def Grows (t t' : FileTree) : Prop :=
  ∀ names es, t.at? names = some (.directory es) → ∃ es', t'.at? names = some (.directory es') ∧
    ∀ name, (List.lookup name es).isSome → (List.lookup name es').isSome

/-- What a tree leads to behind some names is found in what it leads to by them. -/
theorem at?_append (names further : List Text) (t : FileTree) :
    t.at? (names ++ further) = (t.at? names).bind (at? further) := by
  induction names generalizing t with
  | nil => rfl
  | cons name names ih =>
    rw [List.cons_append, at?, at?, Option.bind_assoc]
    exact congrArg _ (funext ih)

/-- A tree that was put somewhere is there. -/
theorem at?_put (new : FileTree) (names : List Text) (t : FileTree) :
    (put new names t).at? names = some new := by
  induction names generalizing t with
  | nil => rfl
  | cons name names ih =>
    rw [put.eq_def, at?, entry?, lookup_putMember, if_pos rfl]
    exact ih _

/-- A member put into a directory leaves all names in it. -/
theorem isSome_lookup_putMember (key : Text) (value : FileTree)
    (h : (List.lookup name es).isSome) : (List.lookup name (putMember key value es)).isSome := by
  rw [lookup_putMember]
  split
  next => rfl
  next => exact h

/-- A directory grows with one of its members. -/
theorem grows_directory (h : ∀ t, List.lookup name es = some t → t.Grows new) :
    (directory es).Grows (.directory (putMember name new es)) := by
  intro names inner hat
  cases names with
  | nil =>
    cases hat
    exact ⟨_, rfl, fun _ => isSome_lookup_putMember name new⟩
  | cons key names =>
    rw [at?, entry?] at hat
    obtain ⟨t, ht, hat⟩ := Option.bind_eq_some_iff.mp hat
    rw [at?, entry?, lookup_putMember]
    split
    next hkey => exact h t (hkey ▸ ht) names inner hat
    next => rw [ht]; exact ⟨inner, hat, fun _ hname => hname⟩

/-- There is no directory in a file. -/
theorem grows_file : (file content).Grows t := by
  intro names es h
  cases names <;> cases h

/-- A file put into a directory, unless in the place of another directory. -/
theorem grows_put (hat : t.at? names = some (.directory es))
    (hname : ∀ inner, List.lookup name es ≠ some (.directory inner)) :
    t.Grows (put (.file content) (names ++ [name]) t) := by
  induction names generalizing t with
  | nil =>
    cases hat
    refine grows_directory fun u hu => ?_
    cases u with
    | file content => exact grows_file
    | directory inner => exact absurd hu (hname inner)
  | cons key names ih =>
    cases t with
    | file content => cases hat
    | directory entries =>
      -- the directories on the way down grow with the one the file is put into
      rw [List.cons_append, put]
      refine grows_directory fun u hu => ?_
      rw [at?, entry?, hu] at hat
      rw [hu]
      exact ih hat

end FileTree

namespace FileSystem

variable {fs fs' : FileSystem} {t t' : FileTree} {p : Path} {content : Bytes}
  {place place' parts : List Text} {part : Text}

theorem follow_append (t : FileTree) (place parts further : List Text) :
    follow t place (parts ++ further) = follow t place parts >>= fun place' => follow t place' further := by
  induction parts generalizing place with
  | nil => rfl
  | cons part parts ih =>
    rw [List.cons_append, follow, follow]
    split
    next =>
      split
      next => exact ih _
      next =>
        split
        next => rfl
        next =>
          split
          next => exact ih _
          next => rfl
    next => rfl
    next => rfl

/-- Where directories keep their names, parts that led somewhere still lead there. -/
theorem follow_of_grows (hgrows : t.Grows t') (h : follow t place parts = .ok place') :
    follow t' place parts = .ok place' := by
  induction parts generalizing place with
  | nil => exact h
  | cons part parts ih =>
    rw [follow] at h ⊢
    split at h
    next es hat =>
      obtain ⟨es', hat', hnames⟩ := hgrows _ es hat
      rw [hat']
      dsimp only
      split at h
      next hup => rw [if_pos hup]; exact ih h
      next hup =>
        rw [if_neg hup]
        split at h
        next => cases h
        next hlong =>
          rw [if_neg hlong]
          split at h
          next hfound => rw [if_pos (hnames part hfound)]; exact ih h
          next => cases h
    next => cases h
    next => cases h

/-- A name in a directory leads to what is there. -/
theorem follow_singleton {es : List (Text × FileTree)} (hat : t.at? place.reverse = some (.directory es))
    (hup : part ≠ Path.up) (hlong : ¬ maxName < (Utf8.encode part).length)
    (hfound : (List.lookup part es).isSome) : follow t place [part] = .ok (part :: place) := by
  rw [follow, hat]
  dsimp only
  rw [if_neg hup, if_neg hlong, if_pos hfound, follow]

theorem locate_eq_ok {names : List Text} : fs.locate p = .ok names ↔ checkPath p = .ok () ∧
    follow fs.tree (if p.isAbsolute then [] else fs.here.reverse) p.parts = .ok names.reverse := by
  rw [locate, Except.bind_eq_ok]
  constructor
  · rintro ⟨_, hcheck, h⟩
    obtain ⟨place, hfollow, h⟩ := Except.bind_eq_ok.mp h
    cases h
    exact ⟨hcheck, by rw [List.reverse_reverse]; exact hfollow⟩
  · rintro ⟨hcheck, hfollow⟩
    refine ⟨(), hcheck, Except.bind_eq_ok.mpr ⟨_, hfollow, ?_⟩⟩
    rw [List.reverse_reverse]

/-- What is written goes into a directory that is there, and not in the place of another one. -/
theorem exists_of_write (h : fs.write p content = .ok fs') : ∃ names es,
    checkPath p = .ok () ∧ p.parts ≠ [] ∧ p.name ≠ Path.up ∧ fs.locate p.parent = .ok names ∧
    fs.tree.at? names = some (.directory es) ∧ ¬ maxName < (Utf8.encode p.name).length ∧
    (∀ inner, List.lookup p.name es ≠ some (.directory inner)) ∧
    fs' = { fs with tree := FileTree.put (.file content) (names ++ [p.name]) fs.tree } := by
  obtain ⟨_, hcheck, h⟩ := Except.bind_eq_ok.mp h
  split at h
  next =>
    obtain ⟨_, _, h⟩ := Except.bind_eq_ok.mp h
    cases h
  next hname =>
    rw [Bool.or_eq_true, not_or, List.isEmpty_iff, decide_eq_true_iff] at hname
    obtain ⟨names, hlocate, h⟩ := Except.bind_eq_ok.mp h
    split at h
    next es hat =>
      split at h
      next => cases h
      next hlong =>
        split at h
        next => cases h
        next hother =>
          cases h
          exact ⟨names, es, hcheck, hname.1, hname.2, hlocate, hat, hlong, fun inner h => hother inner h, rfl⟩
    next => cases h
    next => cases h

/-- What was written to a path is read from it. -/
theorem read_write (h : fs.write p content = .ok fs') : fs'.read p = .ok content := by
  obtain ⟨names, es, hcheck, hparts, hup, hlocate, hat, hlong, hother, rfl⟩ := exists_of_write h
  have hgrows : fs.tree.Grows (.put (.file content) (names ++ [p.name]) fs.tree) :=
    FileTree.grows_put hat hother
  obtain ⟨es', hat', hnames⟩ := hgrows names es hat
  have hput := FileTree.at?_put (.file content) (names ++ [p.name]) fs.tree
  have hfound : (List.lookup p.name es').isSome := by
    rw [FileTree.at?_append, hat', Option.bind_some, FileTree.at?, FileTree.entry?] at hput
    obtain ⟨t, ht, _⟩ := Option.bind_eq_some_iff.mp hput
    exact Option.isSome_of_eq_some ht
  have hlocated : locate { fs with tree := FileTree.put (.file content) (names ++ [p.name]) fs.tree } p =
      .ok (names ++ [p.name]) := by
    refine locate_eq_ok.mpr ⟨hcheck, ?_⟩
    -- the path is looked up in the changed tree, where its parent leads where it led before
    have hparent := follow_of_grows hgrows (locate_eq_ok.mp hlocate).2
    rw [Path.parts_eq hparts, follow_append, List.reverse_append]
    refine Except.bind_eq_ok.mpr ⟨names.reverse, hparent, ?_⟩
    exact follow_singleton (by rw [List.reverse_reverse]; exact hat') hup hlong hfound
  refine Except.bind_eq_ok.mpr ⟨_, hlocated, ?_⟩
  dsimp only
  rw [hput]

end FileSystem
end ManifestGraph
