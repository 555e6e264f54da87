/-
  Reports as plain text. The markers do not overlap (`separate_markers`), so a cut at an end marker parts
  the reports before it from those after it, whatever they are (`ofBlocks_endMarker`), and blocks
  whose parts hold no marker are read as they were written (`ofBlocks_written`).
-/
import ManifestGraph.Proofs.Bytes.Search
import ManifestGraph.Record.Blocks

namespace ManifestGraph.Record

open Bytes (Separate breakOn_append not_infix_append splitOn_append splitOn_of_not_infix)

/-- The markers of a block, in their order. -/
def markers : List Bytes := [graphMarker, targetMarker, endMarker]

/-- All markers start with the one byte that none of them holds at another place. -/
theorem separate_markers : ∀ a ∈ markers, ∀ b ∈ markers, Separate a b := by decide +kernel

theorem separate_self {m : Bytes} (hm : m ∈ markers) : Separate m m := separate_markers m hm m hm

theorem graphMarker_mem : graphMarker ∈ markers := by simp [markers]

theorem targetMarker_mem : targetMarker ∈ markers := by simp [markers]

theorem endMarker_mem : endMarker ∈ markers := by simp [markers]

theorem endMarker_ne_nil : endMarker ≠ [] := by decide

/-- An end marker parts what is before it from what is after it. -/
theorem splitOn_endMarker (x y : Bytes) : Bytes.splitOn endMarker (x ++ (endMarker ++ y)) =
    Bytes.splitOn endMarker x ++ Bytes.splitOn endMarker y :=
  splitOn_append endMarker_ne_nil (separate_self endMarker_mem) x y

/-- The reports on both sides of an end marker are those of either side by itself. -/
theorem ofBlocks_endMarker (x y : Bytes) :
    ofBlocks (x ++ endMarker ++ y) = ofBlocks x ++ ofBlocks y := by
  rw [ofBlocks, List.append_assoc, splitOn_endMarker, List.filterMap_append]
  rfl

/-! ## Written blocks -/

/-- No marker occurs in the bytes. -/
def MarkerFree (bs : Bytes) : Prop := ∀ m ∈ markers, ¬ m <:+: bs

instance (bs : Bytes) : Decidable (MarkerFree bs) :=
  inferInstanceAs (Decidable (∀ m ∈ markers, ¬ m <:+: bs))

/-- What is written about a project: bytes that are passed over, a graph and the name of its file. -/
structure Block where
  noise : Bytes
  graph : Bytes
  target : Bytes

namespace Block

variable {b : Block}

/-- No marker occurs in the parts of the block. -/
structure IsPlain (b : Block) : Prop where
  noise : MarkerFree b.noise
  graph : MarkerFree b.graph
  target : MarkerFree b.target

/-- The block without its end marker. -/
def body (b : Block) : Bytes := b.noise ++ graphMarker ++ b.graph ++ targetMarker ++ b.target

/-- The report about the project. -/
def report (b : Block) : Record where
  graph := some b.graph
  targetFile := (Utf8.decodeLossy b.target).trim

theorem body_eq (b : Block) :
    b.body = b.noise ++ (graphMarker ++ (b.graph ++ (targetMarker ++ b.target))) := by
  simp only [body, List.append_assoc]

/-- Each search finds the marker that was written. -/
theorem IsPlain.ofBlock?_body (h : b.IsPlain) : ofBlock? b.body = some b.report := by
  have hgraph := breakOn_append (separate_self graphMarker_mem) (h.noise graphMarker graphMarker_mem)
    (b.graph ++ (targetMarker ++ b.target))
  have htarget := breakOn_append (separate_self targetMarker_mem) (h.graph targetMarker targetMarker_mem)
    b.target
  rw [ofBlock?, body_eq, hgraph]
  dsimp only [Option.bind_eq_bind, Option.bind_some]
  rw [htarget]
  rfl

/-- No end marker arises where the parts meet. -/
theorem IsPlain.not_infix_body (h : b.IsPlain) : ¬ endMarker <:+: b.body := by
  have hapart : ∀ m ∈ markers, endMarker ≠ m → ∀ {u v : Bytes},
      ¬ endMarker <:+: u → ¬ endMarker <:+: v → ¬ endMarker <:+: u ++ (m ++ v) := fun m hm hne _ _ =>
    not_infix_append hne (separate_markers endMarker endMarker_mem m hm)
      (separate_markers m hm endMarker endMarker_mem)
  rw [body_eq]
  exact hapart graphMarker graphMarker_mem (by decide) (h.noise endMarker endMarker_mem)
    (hapart targetMarker targetMarker_mem (by decide) (h.graph endMarker endMarker_mem)
      (h.target endMarker endMarker_mem))

/-- A block that is not ended is read like one that is. -/
theorem IsPlain.ofBlocks_body (h : b.IsPlain) : ofBlocks b.body = [b.report] := by
  rw [ofBlocks, splitOn_of_not_infix endMarker_ne_nil h.not_infix_body, List.filterMap_cons,
    h.ofBlock?_body]
  rfl

/-- The report of the first block comes first. -/
theorem IsPlain.ofBlocks_cons (h : b.IsPlain) (rest : Bytes) :
    ofBlocks (b.body ++ (endMarker ++ rest)) = b.report :: ofBlocks rest := by
  rw [ofBlocks, splitOn_endMarker, splitOn_of_not_infix endMarker_ne_nil h.not_infix_body,
    List.singleton_append, List.filterMap_cons, h.ofBlock?_body]
  rfl

end Block

/-- Blocks whose parts hold no marker are read as they were written, with or without the last end
marker: one report for each, with its graph unchanged and the name of its file decoded and trimmed. -/
theorem ofBlocks_written (blocks : List Block) (h : ∀ b ∈ blocks, b.IsPlain) :
    ofBlocks (blocks.flatMap fun b => b.body ++ endMarker) = blocks.map Block.report ∧
      ofBlocks (endMarker.intercalate (blocks.map Block.body)) = blocks.map Block.report := by
  induction blocks with
  | nil => exact ⟨rfl, rfl⟩
  | cons b blocks ih =>
    rw [List.forall_mem_cons] at h
    obtain ⟨hended, hopen⟩ := ih h.2
    constructor
    · rw [List.flatMap_cons, List.append_assoc, h.1.ofBlocks_cons, hended, List.map_cons]
    · cases blocks with
      | nil =>
        rw [List.map_singleton, List.intercalate_singleton]
        exact h.1.ofBlocks_body
      | cons b' blocks =>
        rw [List.map_cons, List.map_cons, List.intercalate_cons_cons, List.append_assoc,
          h.1.ofBlocks_cons]
        exact congrArg (b.report :: ·) hopen

/-- Parts that end or begin like markers, and empty ones. -/
def nearMarkers : List Block := [
  ⟨Bytes.ofText "DepGraph DepGraph da", Bytes.ofText "\x7b\x7dDepGraph ", Bytes.ofText " pom.xml DepGraph en"⟩,
  ⟨Bytes.ofText "d", [], []⟩,
  ⟨[], [0xFF], [0x09, 0xFF, 0x0A]⟩]

theorem ofBlocks_written_nearMarkers :
    (∀ b ∈ nearMarkers, b.IsPlain) ∧ nearMarkers.map (fun b => b.report.targetFile) =
        [("pom.xml DepGraph en" : Text), [], [.scalar '\uFFFD']] ∧
      ofBlocks (nearMarkers.flatMap fun b => b.body ++ endMarker) = nearMarkers.map Block.report ∧
      ofBlocks (endMarker.intercalate (nearMarkers.map Block.body)) = nearMarkers.map Block.report := by
  have hplain : ∀ b ∈ nearMarkers, b.IsPlain := by
    have hparts : ∀ b ∈ nearMarkers,
        MarkerFree b.noise ∧ MarkerFree b.graph ∧ MarkerFree b.target := by decide +kernel
    exact fun b hb => ⟨(hparts b hb).1, (hparts b hb).2.1, (hparts b hb).2.2⟩
  exact ⟨hplain, by decide +kernel, ofBlocks_written nearMarkers hplain⟩

end ManifestGraph.Record
