/-
  Lookups that are remembered answer like plain ones. A graph is `Faithful` if all that it remembers is
  what its document says; lookups keep it so (`Faithful.after`), in whatever order they come
  (`answers_of_faithful`). A graph fresh from a builder is faithful (`faithful_ofBuilder`), and so is one
  that was just read; hence both answer alike (`Represented`).
-/
import ManifestGraph.Graph.Lookup
import ManifestGraph.Proofs.Graph.Builder
import ManifestGraph.Proofs.Graph.Document

namespace ManifestGraph

variable {g : LookupGraph} {b : GraphBuilder} {id : Text}

/-- A question to a graph: for its root package, or for the package with an id. -/
inductive Lookup where
  | root
  | package (id : Text)
  deriving DecidableEq

/-- The answer that the document itself gives. -/
def DependencyGraph.answer (g : DependencyGraph) : Lookup → Option Package
  | .root => g.rootPackage?
  | .package id => g.package? id

namespace LookupGraph

/-- The answer to a question, and the graph that remembers it. -/
def ask (g : LookupGraph) : Lookup → Option Package × LookupGraph
  | .root => g.rootPackage?
  | .package id => g.package? id

/-- The answers to some questions, asked one after the other. -/
def answers (g : LookupGraph) : List Lookup → List (Option Package)
  | [] => []
  | question :: questions => (g.ask question).1 :: (g.ask question).2.answers questions

/-- The graph after some questions. -/
def after (g : LookupGraph) (questions : List Lookup) : LookupGraph :=
  questions.foldl (fun g question => (g.ask question).2) g

/-! ## The index -/

theorem lookup_indexOf (packages : List Package) (id : Text) :
    List.lookup id (indexOf packages) = packages.reverse.find? fun p => p.id = id := by
  have hfold : ∀ (index : List (Text × Package)),
      List.lookup id (packages.foldl (fun index p => putMember p.id p index) index) =
        (packages.reverse.find? fun p => p.id = id).or (List.lookup id index) := by
    induction packages with
    | nil => exact fun _ => rfl
    | cons p packages ih =>
      intro index
      rw [List.foldl_cons, ih, lookup_putMember, List.reverse_cons, List.find?_append]
      by_cases hp : p.id = id
      · simp [hp]
      · simp [hp, Ne.symm hp]
  rw [indexOf, hfold]
  exact Option.or_none

/-! ## What is remembered -/

/-- What the graph remembers is what its document says. -/
structure Faithful (g : LookupGraph) : Prop where
  index : ∀ index, g.index = some index → index = indexOf g.graph.packages
  root : ∀ p, g.root = some p → g.graph.rootPackage? = some p

/-- A graph that remembers nothing is faithful. -/
theorem faithful_fresh (g : DependencyGraph) : Faithful { graph := g } where
  index := fun _ h => nomatch h
  root := fun _ h => nomatch h

theorem Faithful.getD_index (h : Faithful g) :
    g.index.getD (indexOf g.graph.packages) = indexOf g.graph.packages := by
  cases hindex : g.index with
  | none => rfl
  | some index => exact h.index index hindex

theorem Faithful.package?_eq (h : Faithful g) (id : Text) :
    g.package? id = (g.graph.package? id, { g with index := some (indexOf g.graph.packages) }) := by
  rw [package?, h.getD_index, lookup_indexOf]
  rfl

theorem Faithful.remember (h : Faithful g) :
    Faithful { g with index := some (indexOf g.graph.packages) } where
  index := fun _ hindex => (Option.some.inj hindex).symm
  root := h.root

theorem Faithful.rootPackage?_eq (h : Faithful g) :
    g.rootPackage?.1 = g.graph.rootPackage? ∧ g.rootPackage?.2.graph = g.graph ∧
      Faithful g.rootPackage?.2 := by
  unfold rootPackage?
  cases hroot : g.root with
  | some p => exact ⟨(h.root p hroot).symm, rfl, h⟩
  | none =>
    cases hnode : g.graph.rootNode? with
    | none => exact ⟨by rw [DependencyGraph.rootPackage?, hnode]; rfl, rfl, h⟩
    | some n =>
      have hplain : g.graph.rootPackage? = g.graph.package? n.package := by
        rw [DependencyGraph.rootPackage?, hnode]
        rfl
      dsimp only
      rw [h.package?_eq]
      exact ⟨hplain.symm, rfl, ⟨h.remember.index, fun p hp => hplain.trans hp⟩⟩

/-- A question gets the answer of the document and leaves the graph faithful. -/
theorem Faithful.ask (h : Faithful g) (question : Lookup) :
    (g.ask question).1 = g.graph.answer question ∧ (g.ask question).2.graph = g.graph ∧
      Faithful (g.ask question).2 := by
  cases question with
  | root => exact h.rootPackage?_eq
  | package id =>
    show (g.package? id).1 = _ ∧ (g.package? id).2.graph = _ ∧ Faithful (g.package? id).2
    rw [h.package?_eq]
    exact ⟨rfl, rfl, h.remember⟩

theorem Faithful.after (h : Faithful g) (questions : List Lookup) :
    (g.after questions).graph = g.graph ∧ Faithful (g.after questions) := by
  induction questions generalizing g with
  | nil => exact ⟨rfl, h⟩
  | cons question questions ih =>
    obtain ⟨_, hgraph, hfaithful⟩ := h.ask question
    exact ⟨(ih hfaithful).1.trans hgraph, (ih hfaithful).2⟩

/-- Every question gets the answer of the document, whatever was asked before. -/
theorem answers_of_faithful (h : Faithful g) (questions : List Lookup) :
    g.answers questions = questions.map g.graph.answer := by
  induction questions generalizing g with
  | nil => rfl
  | cons question questions ih =>
    obtain ⟨hanswer, hgraph, hfaithful⟩ := h.ask question
    rw [answers, List.map_cons, hanswer, ih hfaithful, hgraph]

/-! ## Graphs from a builder -/

/-- The root package is remembered as the document says it. -/
theorem faithful_ofBuilder (h : b.Sound) : Faithful (ofBuilder b) where
  index := fun _ hindex => (Option.some.inj hindex).symm
  root := by
    intro p hp
    have hroot := h.root_first
    rw [ofBuilder, lookup_indexOf] at hp
    cases hnodes : b.nodes with
    | nil => rw [hnodes] at hroot; cases hroot
    | cons n ns =>
      rw [hnodes, List.head?_cons, Option.map_some, Option.some.injEq, Prod.mk.injEq] at hroot
      have hnode : b.build.rootNode? = some n := by
        show b.nodes.find? (fun n => n.id = GraphBuilder.rootId) = some n
        rw [hnodes, List.find?_cons, hroot.1, decide_eq_true rfl]
      show b.build.rootPackage? = some p
      rw [DependencyGraph.rootPackage?, hnode]
      show b.packages.reverse.find? (fun q => q.id = n.package) = some p
      rw [hroot.2]
      exact hp

end LookupGraph

/-! ## Written and read graphs -/

namespace DependencyGraph

/-- Labels do not matter to a lookup. -/
theorem answer_settled (g : DependencyGraph) (question : Lookup) :
    g.settled.answer question = g.answer question := by
  cases question with
  | package id => rfl
  | root =>
    have hnode : g.settled.rootNode? = g.rootNode?.map Node.settled := by
      rw [rootNode?, settled, List.find?_map]
      rfl
    show g.settled.rootPackage? = g.rootPackage?
    rw [rootPackage?, rootPackage?, hnode]
    cases g.rootNode? with
    | none => rfl
    | some n => rfl

end DependencyGraph

namespace GraphBuilder

/-- The document of a builder represents what was built: it passes the check, its root comes first, and
its packages are those of its nodes in order of first use. It can be written and read again if and only if
it holds no lone halves. What the builder remembers in advance for lookups is what the document says, and
what is said by the document that was read again. -/
structure Represented (b : GraphBuilder) : Prop where
  checked : b.build.check = .ok ()
  root_first : b.build.nodes.head?.map Node.id = some rootId
  packages_used : b.build.packages.map Package.id =
    DependencyGraph.firsts (b.build.nodes.map Node.package)
  package_ids : ∀ p ∈ b.build.packages, p.id = p.info.id
  readable : (∃ g, DependencyGraph.decode b.build.encode = .ok g) ↔ b.build.IsScalar
  recomputed : ∀ questions,
    (LookupGraph.ofBuilder b).answers questions = questions.map b.build.answer
  reread : ∀ g, DependencyGraph.decode b.build.encode = .ok g → ∀ questions,
    (LookupGraph.ofBuilder b).answers questions = ({ graph := g } : LookupGraph).answers questions

theorem Sound.represented (h : b.Sound) : b.Represented where
  checked := DependencyGraph.check_of_valid h.valid_build
  root_first := by
    have hroot := congrArg (Option.map Prod.fst) h.root_first
    rw [Option.map_map] at hroot
    exact hroot
  packages_used := h.packages_used
  package_ids := h.package_ids
  readable := by
    constructor
    · rintro ⟨g, hg⟩
      exact DependencyGraph.isScalar_of_decode_encode hg
    · intro hscalar
      exact ⟨_, DependencyGraph.decode_encode hscalar⟩
  recomputed := LookupGraph.answers_of_faithful (LookupGraph.faithful_ofBuilder h)
  reread := by
    intro g hg questions
    have hscalar := DependencyGraph.isScalar_of_decode_encode hg
    rw [DependencyGraph.decode_encode hscalar] at hg
    cases hg
    rw [LookupGraph.answers_of_faithful (LookupGraph.faithful_ofBuilder h),
      LookupGraph.answers_of_faithful (LookupGraph.faithful_fresh _)]
    exact List.map_congr_left fun question _ => (b.build.answer_settled question).symm

/-- Whatever is called on a new builder, its document represents what was built, and is the same without
the calls that were refused. -/
theorem represented_run (manager : PackageManager) (root : Option PackageInfo) (calls : List Call) :
    ∃ b, start? (some manager) root = .ok b ∧ (b.run calls).Represented ∧
      b.accepted (b.accepted calls) = b.accepted calls ∧
      (b.run (b.accepted calls)).build = (b.run calls).build := by
  refine ⟨start manager (root.getD sentinelRoot), rfl, ?_, accepted_accepted calls, ?_⟩
  · exact ((sound_start manager _).run calls).represented
  · rw [run_accepted]

end GraphBuilder
end ManifestGraph
