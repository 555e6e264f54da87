/-
  The files that a search finds. No part of their paths is empty (`full_of_find`), so a program can be given
  their names (`Path.Full.toText_ne_nil`), and they come in ascending order of their ways from the directory
  (`pairwise_of_find`).
-/
import ManifestGraph.Discovery
import ManifestGraph.Proofs.Machine
import ManifestGraph.Proofs.Text.Order

namespace ManifestGraph

/-! ## Paths -/

namespace Path

variable {p q : Path}

/-- No part of the path is empty. -/
def Full (p : Path) : Prop := ∀ part ∈ p.parts, part ≠ []

theorem full_ofText (t : Text) : (ofText t).Full := by
  intro part hpart hnil
  obtain ⟨_, hkept⟩ := List.mem_filter.mp hpart
  rw [hnil] at hkept
  cases hkept

theorem Full.append (hp : p.Full) (hq : q.Full) : (p ++ q).Full := by
  show (Path.append p q).Full
  unfold Path.append
  split
  next => exact hq
  next =>
    intro part hpart
    rcases List.mem_append.mp hpart with h | h
    · exact hp part h
    · exact hq part h

/-- A path without empty parts is written with something: the empty one with a dot. -/
theorem Full.toText_ne_nil (hp : p.Full) : p.toText ≠ [] := by
  unfold toText
  split
  next => exact List.cons_ne_nil _ _
  next hnot =>
    intro hnil
    obtain ⟨hslashes, hparts⟩ := List.append_eq_nil_iff.mp hnil
    have hzero : p.slashes = 0 := (List.replicate_eq_nil_iff _).mp hslashes
    cases h : p.parts with
    | nil => exact hnot ⟨hzero, by rw [h]; rfl⟩
    | cons part parts =>
      have hpart : part ≠ [] := hp part (by rw [h]; exact List.mem_cons_self)
      rw [h] at hparts
      cases parts with
      | nil => rw [Text.join, List.intercalate_singleton] at hparts; exact hpart hparts
      | cons part' parts =>
        rw [Text.join, List.intercalate_cons_cons] at hparts
        exact hpart (List.append_eq_nil_iff.mp (List.append_eq_nil_iff.mp hparts).1).1

end Path

/-! ## Searches -/

/-- A path leads to what is at its place. -/
theorem FileSystem.look_of_locate {fs : FileSystem} {p : Path} {names : List Text} {t : FileTree}
    (h : fs.locate p = .ok names) (hat : fs.tree.at? names = some t) : fs.look p = .ok (some t) := by
  rw [look, find?, h]
  dsimp only
  rw [hat]

namespace Discovery

variable {fs : FileSystem} {es : List (Text × FileTree)} {root target : Path} {includes excludes : List Text}
  {name : Text} {found : Option FoundFile} {files : List FoundFile} {file : FoundFile}

/-- A search for one file gives at most this one. -/
theorem path_of_target (h : target? fs root target excludes = .ok found) (hfile : found = some file) :
    file.path = root ++ target := by
  obtain ⟨there, _, h⟩ := Except.bind_eq_ok.mp h
  split at h
  next =>
    split at h
    next => cases h; cases hfile
    next => cases h; cases hfile; rfl
  next => cases h; cases hfile

/-- A search gives the file that is named, if any, or all that fit below the directory. -/
theorem find_eq_ok (h : find fs root includes excludes name = .ok files) :
    (∃ found, target? fs root (Path.ofText name) excludes = .ok found ∧ files = found.toList) ∨
      ∃ tree, files = (search includes excludes tree).map fun way => ⟨root ++ Path.ofText way, way⟩ := by
  obtain ⟨tree, _, h⟩ := Except.bind_eq_ok.mp h
  split at h
  next => cases h; exact Or.inr ⟨tree, rfl⟩
  next =>
    cases htarget : target? fs root (Path.ofText name) excludes with
    | error e => rw [htarget] at h; cases h
    | ok found => rw [htarget] at h; cases h; exact Or.inl ⟨found, rfl, rfl⟩

theorem search_directory (es : List (Text × FileTree)) :
    search includes excludes (.directory es) = Text.sort (filesIn includes excludes [] es) := rfl

theorem root?_of_look (h : fs.look root = .ok (some (.directory es))) :
    root? fs root = .ok (.directory es) := by
  rw [root?, h]
  rfl

/-- Without a name all files that fit are found. -/
theorem find_of_root {tree : FileTree} (h : root? fs root = .ok tree) :
    find fs root includes excludes [] =
      .ok ((search includes excludes tree).map fun way => ⟨root ++ Path.ofText way, way⟩) := by
  rw [find, h]
  rfl

theorem full_of_find (hroot : root.Full) (h : find fs root includes excludes name = .ok files)
    (hfile : file ∈ files) : file.path.Full := by
  rcases find_eq_ok h with ⟨found, htarget, rfl⟩ | ⟨tree, rfl⟩
  · rw [path_of_target htarget (Option.mem_toList.mp hfile)]
    exact hroot.append (Path.full_ofText name)
  · obtain ⟨way, _, rfl⟩ := List.mem_map.mp hfile
    exact hroot.append (Path.full_ofText way)

/-- The files that are found come in ascending order. -/
theorem pairwise_of_find (h : find fs root includes excludes name = .ok files) :
    files.Pairwise fun file file' => Text.le file.relative file'.relative = true := by
  rcases find_eq_ok h with ⟨found, _, rfl⟩ | ⟨tree, rfl⟩
  · cases found with
    | none => exact List.Pairwise.nil
    | some file => exact List.pairwise_singleton _ file
  · rw [List.pairwise_map]
    cases tree with
    | file _ => exact List.Pairwise.nil
    | directory es => rw [search_directory]; exact Text.pairwise_sort _

end Discovery
end ManifestGraph
