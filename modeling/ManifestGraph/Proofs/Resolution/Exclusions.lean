/-
  What the fallback is told to pass over. The value that is handed to it is read as the entries it had and
  then the entries of every name that was put behind them (`entries_append`). A name is one entry only if it
  has no comma, is not blank and has no space around it (`IsEntry`); all names come back as they are just if
  each of them is one entry (`entries_forFallback`).
-/
import ManifestGraph.Pip.Source
import ManifestGraph.Proofs.Text.Splitting
import ManifestGraph.Resolution

namespace ManifestGraph

namespace Exclusion

variable {value x : Text} {xs : List Text}

/-- The text is read as one entry, which is itself. -/
structure IsEntry (x : Text) : Prop where
  filled : x ≠ []
  trimmed : x.trim = x
  unbroken : CodePoint.scalar ',' ∉ x

instance (x : Text) : Decidable (IsEntry x) :=
  decidable_of_iff (x ≠ [] ∧ x.trim = x ∧ CodePoint.scalar ',' ∉ x)
    ⟨fun ⟨h, h', h''⟩ => ⟨h, h', h''⟩, fun ⟨h, h', h''⟩ => ⟨h, h', h''⟩⟩

theorem entries_nil : entries [] = [] := rfl

theorem IsEntry.entries_eq (h : IsEntry x) : entries x = [x] := by
  rw [entries, Text.splitOn_of_not_mem h.unbroken, List.map_singleton, h.trimmed]
  exact List.filter_cons_of_pos (by simpa using h.filled)

/-- Whatever is read from a value is one entry. -/
theorem isEntry_of_mem_entries (h : x ∈ entries value) : IsEntry x := by
  obtain ⟨hmem, hfilled⟩ := List.mem_filter.mp h
  obtain ⟨piece, hpiece, rfl⟩ := List.mem_map.mp hmem
  have hunbroken := Text.not_mem_of_mem_splitOn hpiece
  exact ⟨by simpa using hfilled, Text.trim_trim piece, fun hcomma => hunbroken (Text.mem_of_mem_trim hcomma)⟩

/-- A comma stands between entries. -/
theorem entries_comma (value more : Text) :
    entries (value ++ CodePoint.scalar ',' :: more) = entries value ++ entries more := by
  rw [entries, Text.splitOn_append, List.map_append, List.filter_append]
  rfl

theorem entries_join (xs : List Text) : entries (Text.join "," xs) = xs.flatMap entries := by
  cases xs with
  | nil => rfl
  | cons x xs =>
    show ((Text.splitOn ',' (Text.join [','] (x :: xs))).map Text.trim).filter _ = _
    rw [Text.splitOn_join_eq (List.cons_ne_nil x xs), List.map_flatMap, List.filter_flatMap]
    rfl

/-- The entries of a value stay, and those of the names that are put behind it follow. -/
theorem entries_append (value : Text) (xs : List Text) :
    entries (append value xs) = entries value ++ xs.flatMap entries := by
  unfold append
  split
  next hnone => rw [List.isEmpty_iff.mp hnone, List.flatMap_nil, List.append_nil]
  next =>
    split
    next hempty => rw [List.isEmpty_iff.mp hempty, entries_join, entries_nil, List.nil_append]
    next =>
      rw [List.append_assoc, ← entries_join]
      exact entries_comma value _

/-- Names come back as they are just if each of them is one entry. -/
theorem flatMap_entries_eq_iff : xs.flatMap entries = xs ↔ ∀ x ∈ xs, IsEntry x := by
  constructor
  · intro h x hx
    rw [← h] at hx
    obtain ⟨y, _, hx⟩ := List.mem_flatMap.mp hx
    exact isEntry_of_mem_entries hx
  · intro h
    induction xs with
    | nil => rfl
    | cons x xs ih =>
      obtain ⟨hx, hxs⟩ := List.forall_mem_cons.mp h
      rw [List.flatMap_cons, hx.entries_eq, ih hxs]
      rfl

end Exclusion

namespace Resolution

open Exclusion (entries IsEntry)

/-- The value that is handed to the fallback is read as the entries that were given, and then those of each
file that a finding makes other sources pass over. They are these files just if each of their names is one
entry. -/
theorem entries_forFallback (o : ResolutionOptions) (findings : List Finding) :
    entries (forFallback o findings).exclude =
      entries o.exclude ++ (findings.flatMap Finding.exclusions).flatMap entries ∧
    (entries (forFallback o findings).exclude = entries o.exclude ++ findings.flatMap Finding.exclusions ↔
      ∀ f ∈ findings, ∀ x ∈ f.exclusions, IsEntry x) := by
  have hentries := Exclusion.entries_append o.exclude (findings.flatMap Finding.exclusions)
  refine ⟨hentries, ?_⟩
  show entries (Exclusion.append o.exclude (findings.flatMap Finding.exclusions)) = _ ↔ _
  rw [hentries, List.append_cancel_left_eq, Exclusion.flatMap_entries_eq_iff]
  simp only [List.mem_flatMap]
  constructor
  · exact fun h f hf x hx => h x ⟨f, hf, hx⟩
  · rintro h x ⟨f, hf, hx⟩
    exact h f hf x hx

/-- A requirements file in a directory with a comma in its name, as it was found. -/
def commaFile : FoundFile := ⟨Path.ofText "a,b/requirements.txt", "a,b/requirements.txt"⟩

/-- Its finding, if other sources should pass over it. -/
def commaFinding : Finding := (Pip.requirementsFiles {} true).resolved commaFile "python@3.12.1" default

/-- The name is not blank and has no space around it, and yet a directory beside it is passed over, and the
file itself is not. -/
theorem comma_divides :
    commaFinding.exclusions = ["a,b/requirements.txt"] ∧
      (∀ x ∈ commaFinding.exclusions, x ≠ [] ∧ x.trim = x) ∧
      entries (forFallback { exclude := "x" } [commaFinding]).exclude =
        ["x", "a", "b/requirements.txt"] ∧
      entries (forFallback { exclude := "x" } [commaFinding]).exclude ≠
        entries "x" ++ commaFinding.exclusions := by
  decide

end Resolution
end ManifestGraph
