/-
This file says what the stack of a configuration carries. Every frame has a tree, the labels
of the trees lead to the state of the frame, and the node of the frame holds the tree. The
children of a node come before it in the arena, so reading the leaves of a node that holds a
tree ends, and gives the tokens of the tree. Taking the frames of some last trees off the
stack leaves a stack for the other trees, and adding a node changes nothing below.
-/

import Mathlib.Data.List.Induction
import ShiftReduce.Forest.Outline
import ShiftReduce.Forest.Walk
import ShiftReduce.Proofs.Lists
import ShiftReduce.Proofs.Trees
import ShiftReduce.Run.Reach

namespace ShiftReduce

open DerivationTree

namespace Arena

/-! ### Leaves of the nodes that hold trees -/

/-- The children of every node come before it. -/
def Downward (arena : Arena) : Prop :=
  ∀ (id : Nat) (node : Node), arena.nodes[id]? = some node → ∀ child ∈ node.children, child < id

@[simp] theorem getElem?_empty (id : Nat) : (∅ : Arena).nodes[id]? = none :=
  Array.getElem?_empty

theorem empty_downward : (∅ : Arena).Downward := by
  intro id node found
  simp at found

theorem getElem?_add {arena : Arena} {label : Symbol} {value : Option Symbol}
    {children : List Int} {id : Nat} {node : Node}
    (found : (arena.add label value children).nodes[id]? = some node) :
    arena.nodes[id]? = some node ∨
      id = arena.size ∧ node = ⟨arena.size, label, value, children⟩ := by
  rw [add, Array.getElem?_push] at found
  split at found
  · rename_i last
    exact .inr ⟨last, (Option.some_inj.mp found).symm⟩
  · exact .inl found

theorem Downward.add {arena : Arena} (downward : arena.Downward) (label : Symbol)
    (value : Option Symbol) {children : List Int}
    (earlier : ∀ child ∈ children, child < arena.size) :
    (arena.add label value children).Downward := by
  intro id node found
  rcases getElem?_add found with old | ⟨rfl, rfl⟩
  · exact downward id node old
  · exact earlier

theorem Holds.getElem? {arena : Arena} {id : Nat} {tree : DerivationTree}
    (holds : arena.Holds id tree) : ∃ node, arena.nodes[id]? = some node ∧
      node.id = id ∧ node.label = tree.symbol := by
  cases holds with
  | leaf _ _ found => exact ⟨_, found, rfl, rfl⟩
  | branch _ _ _ _ found _ _ => exact ⟨_, found, rfl, rfl⟩

theorem Holds.lt_size {arena : Arena} {id : Nat} {tree : DerivationTree}
    (holds : arena.Holds id tree) : id < arena.size := by
  obtain ⟨_, found, _⟩ := holds.getElem?
  exact (Array.getElem?_eq_some_iff.mp found).1

theorem mapM_leavesWithin {arena : Arena} {depth : Nat} {ids : List Nat}
    {trees : List DerivationTree} (aligned : ids.length = trees.length)
    (each : ∀ pair ∈ ids.zip trees, arena.leavesWithin depth pair.1 = .ok pair.2.tokens) :
    (ids.map fun id : Nat => (id : Int)).mapM (arena.leavesWithin depth) =
      .ok (trees.map tokens) := by
  rw [List.mapM_map]
  exact mapM_aligned tokens aligned each

@[simp] theorem flatten_map_tokens (trees : List DerivationTree) :
    (trees.map tokens).flatten = tokensOf trees := by
  induction trees with
  | nil => rfl
  | cons tree rest inductionHypothesis =>
    rw [List.map_cons, List.flatten_cons, inductionHypothesis, tokensOf]

/-- The leaves under a node are the tokens of the tree that it stands for. A branch without children
is read as a leaf with the empty word as value. -/
theorem leavesWithin_of_holds {grammar : Grammar} {arena : Arena} (downward : arena.Downward)
    {id : Nat} {tree : DerivationTree} (holds : arena.Holds id tree)
    (belongs : tree.Belongs grammar) {depth : Nat} (deep : id < depth) :
    arena.leavesWithin depth id = .ok tree.tokens := by
  induction holds generalizing depth with
  | leaf id token found =>
    obtain ⟨below, rfl⟩ : ∃ below, depth = below + 1 := ⟨depth - 1, by omega⟩
    have read : arena.node id = .ok ⟨id, token, some token, []⟩ := by
      simp [found]
    rw [leavesWithin_of_leaf read rfl]
    have visible : token ≠ Symbol.epsilon := by
      rintro rfl
      exact Grammar.not_reserved_of_isTerminal (belongs.terminal List.mem_cons_self)
        Symbol.epsilon_reserved
    have other : ¬ some token = some Symbol.epsilon := fun same => visible (Option.some_inj.mp same)
    exact congrArg Except.ok (if_neg other)
  | branch id production ids children found aligned each inductionHypothesis =>
    obtain ⟨below, rfl⟩ : ∃ below, depth = below + 1 := ⟨depth - 1, by omega⟩
    obtain ⟨_, spelled, childrenBelong⟩ := belongs.children
    have read : arena.node id = .ok ⟨id, production.head, branchValue production,
        ids.map fun child : Nat => (child : Int)⟩ := by
      simp [found]
    cases ids with
    | nil =>
      have childless : children = [] := List.eq_nil_of_length_eq_zero aligned.symm
      subst childless
      have empty : production.body = [] := spelled.symm
      rw [leavesWithin_of_leaf read rfl, Node.leafTokens, branchValue, if_pos empty, if_pos rfl]
      rfl
    | cons first others =>
      have inner : ¬ (⟨id, production.head, branchValue production,
          (first :: others).map fun child : Nat => (child : Int)⟩ : Node).isLeaf = true :=
        Bool.false_ne_true
      have leaves : ∀ pair ∈ (first :: others).zip children,
          arena.leavesWithin below pair.1 = .ok pair.2.tokens := fun pair member => by
        have listed : (pair.1 : Int) ∈ (first :: others).map fun child : Nat => (child : Int) :=
          List.mem_map_of_mem (List.of_mem_zip member).1
        have earlier := downward id _ found pair.1 listed
        exact inductionHypothesis pair member (childrenBelong _ (List.of_mem_zip member).2)
          (by omega)
      rw [leavesWithin_of_branch read inner, mapM_leavesWithin aligned leaves]
      exact congrArg Except.ok (flatten_map_tokens children)

/-- The leaves of a node that holds a tree are the tokens of the tree. -/
theorem leaves_of_holds {grammar : Grammar} {arena : Arena} (downward : arena.Downward)
    {id : Nat} {tree : DerivationTree} (holds : arena.Holds id tree)
    (belongs : tree.Belongs grammar) : arena.leaves id = .ok tree.tokens := by
  rw [leaves_eq]
  exact leavesWithin_of_holds downward holds belongs (Nat.lt_succ_of_lt holds.lt_size)

end Arena

/-! ### Stacks of trees -/

/-- Frames carry trees, the last of which lies on top. -/
inductive Stacked (states : List State) (arena : Arena) :
    List Frame → List DerivationTree → Prop
  | bottom : Stacked states arena [] []
  | push {frames : List Frame} {forest : List DerivationTree} (number node : Nat)
      (tree : DerivationTree) (below : Stacked states arena frames forest)
      (walked : State.walk states 0 ((forest ++ [tree]).map symbol) = some number)
      (holds : arena.Holds node tree) :
      Stacked states arena (⟨number, tree.symbol, node⟩ :: frames) (forest ++ [tree])

namespace Stacked

variable {states : List State} {arena : Arena} {frames : List Frame}
  {forest below children : List DerivationTree} {tree : DerivationTree}

/-- The labels of the trees lead to the state on top. -/
theorem walked (stacked : Stacked states arena frames forest) :
    ∃ number : Nat, State.walk states 0 (forest.map symbol) = some number ∧
      Frame.topState frames = number := by
  cases stacked with
  | bottom => exact ⟨0, rfl, rfl⟩
  | push number node tree below walked holds => exact ⟨number, walked, rfl⟩

theorem add (stacked : Stacked states arena frames forest) (label : Symbol)
    (value : Option Symbol) (children : List Int) :
    Stacked states (arena.add label value children) frames forest := by
  induction stacked with
  | bottom => exact .bottom
  | push number node tree _ walked holds inductionHypothesis =>
    exact .push number node tree inductionHypothesis walked (holds.add label value children)

theorem node_lt (stacked : Stacked states arena frames forest) {frame : Frame}
    (member : frame ∈ frames) : frame.node < arena.size := by
  induction stacked with
  | bottom => exact absurd member List.not_mem_nil
  | push number node tree _ _ holds inductionHypothesis =>
    rcases List.mem_cons.mp member with rfl | lower
    · exact holds.lt_size
    · exact inductionHypothesis lower

/-- The nodes that a reduction takes off are in the arena. -/
theorem children_lt (stacked : Stacked states arena frames forest) (count : Nat) :
    ∀ child ∈ (Frame.nodes (frames.take count)).map (fun node : Nat => (node : Int)),
      child < arena.size := by
  intro child member
  obtain ⟨node, listed, rfl⟩ := List.mem_map.mp member
  obtain ⟨frame, inside, rfl⟩ := List.mem_map.mp listed
  exact Int.ofNat_lt.mpr (stacked.node_lt (List.mem_of_mem_take (List.mem_reverse.mp inside)))

theorem frames_eq_nil (stacked : Stacked states arena frames []) : frames = [] := by
  generalize none : ([] : List DerivationTree) = forest at stacked
  cases stacked with
  | bottom => rfl
  | push => exact absurd none.symm (List.append_ne_nil_of_right_ne_nil _ (List.cons_ne_nil _ _))

/-- The last tree lies on a stack for the others. -/
theorem last (stacked : Stacked states arena frames (forest ++ [tree])) :
    ∃ number node rest, frames = ⟨(number : Nat), tree.symbol, node⟩ :: rest ∧
      State.walk states 0 ((forest ++ [tree]).map symbol) = some number ∧
      arena.Holds node tree ∧ Stacked states arena rest forest := by
  generalize same : forest ++ [tree] = all at stacked
  cases stacked with
  | bottom => exact absurd same (List.append_ne_nil_of_right_ne_nil _ (List.cons_ne_nil _ _))
  | @push rest others number node last below walked holds =>
    obtain ⟨rfl, only⟩ := List.append_inj' same rfl
    obtain ⟨rfl, _⟩ := List.cons.inj only
    exact ⟨number, node, rest, rfl, walked, holds, below⟩

/-- The frames of the last trees can be taken off. -/
theorem split (stacked : Stacked states arena frames (below ++ children)) :
    children.length ≤ frames.length ∧
      Stacked states arena (frames.drop children.length) below ∧
      (Frame.nodes (frames.take children.length)).length = children.length ∧
      ∀ pair ∈ (Frame.nodes (frames.take children.length)).zip children,
        arena.Holds pair.1 pair.2 := by
  induction children using List.reverseRecOn generalizing frames with
  | nil =>
    rw [List.append_nil] at stacked
    exact ⟨Nat.zero_le _, stacked, rfl, fun _ member => absurd member List.not_mem_nil⟩
  | append_singleton children tree inductionHypothesis =>
    rw [← List.append_assoc] at stacked
    obtain ⟨number, node, rest, rfl, _, holds, others⟩ := stacked.last
    obtain ⟨enough, left, aligned, each⟩ := inductionHypothesis others
    have nodes : Frame.nodes ((⟨(number : Nat), tree.symbol, node⟩ :: rest : List Frame).take
        (children.length + 1)) = Frame.nodes (rest.take children.length) ++ [node] := by
      rw [List.take_succ_cons, Frame.nodes, List.reverse_cons, List.map_append]
      rfl
    rw [List.length_append, List.length_singleton, List.drop_succ_cons, nodes]
    refine ⟨Nat.succ_le_succ enough, left, ?_, fun pair member => ?_⟩
    · rw [List.length_append, aligned, List.length_singleton]
    · rw [List.zip_append aligned, List.mem_append] at member
      rcases member with old | new
      · exact each pair old
      · rw [List.mem_singleton.mp new]
        exact holds

end Stacked

end ShiftReduce
