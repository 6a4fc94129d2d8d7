/-
This file takes the walks through an arena one round at a time. A round visits the node that comes
next. In a rendering a node with children is put back with a mark behind its children, and when it
is met again, the last parts are the texts of these children and are put together. Nothing bounds
the number of rounds: a walk ends if and when nothing is left to visit.
-/

import Mathlib.Logic.Relation
import ShiftReduce.Forest.Reading

namespace ShiftReduce

/-- Rounds lead from one state of a walk to another. -/
def Leads {State : Type} (round : State → Except Fault State) : State → State → Prop :=
  Relation.ReflTransGen fun state next => round state = .ok next

/-- A text that is being put together: the nodes that are still to be visited, with a mark if their
children were, and the parts that are finished, the last one last. -/
structure Rendering where
  todo : List (Int × Bool)
  parts : List String

/-- Tokens that are being gathered: the nodes that are still to be visited, and what was found. -/
structure Gathering where
  todo : List Int
  found : List Symbol

namespace Arena

/-- One visit of a rendering. -/
def renderRound (arena : Arena) : Rendering → Except Fault Rendering
  | ⟨[], parts⟩ => .ok ⟨[], parts⟩
  | ⟨(id, marked) :: todo, parts⟩ => do
      let node ← arena.node id
      if node.isLeaf then return ⟨todo, parts ++ [node.leafText]⟩
      else if marked then
        let first := parts.length - node.children.length
        return ⟨todo, parts.take first ++ [node.branchText (parts.drop first)]⟩
      else
        let children := node.children.map fun child => (child, false)
        return ⟨children ++ (id, true) :: todo, parts⟩

/-- One visit of a gathering. -/
def gatherRound (arena : Arena) : Gathering → Except Fault Gathering
  | ⟨[], found⟩ => .ok ⟨[], found⟩
  | ⟨id :: todo, found⟩ => do
      let node ← arena.node id
      if node.isLeaf then return ⟨todo, found ++ node.leafTokens⟩
      else return ⟨node.children ++ todo, found⟩

/-! ### One round at a time -/

section Rounds

variable {arena : Arena} {id : Int} {node : Node}

theorem renderRound_of_leaf (found : arena.node id = .ok node) (leaf : node.isLeaf = true)
    (marked : Bool) (todo : List (Int × Bool)) (parts : List String) :
    arena.renderRound ⟨(id, marked) :: todo, parts⟩ = .ok ⟨todo, parts ++ [node.leafText]⟩ := by
  rw [renderRound, found]
  exact if_pos leaf

theorem renderRound_of_branch (found : arena.node id = .ok node) (inner : ¬ node.isLeaf = true)
    (todo : List (Int × Bool)) (parts : List String) :
    arena.renderRound ⟨(id, false) :: todo, parts⟩ =
      .ok ⟨(node.children.map fun child => (child, false)) ++ (id, true) :: todo, parts⟩ := by
  rw [renderRound, found]
  exact if_neg inner

/-- At the mark, the last parts are put together. -/
theorem renderRound_of_mark (found : arena.node id = .ok node) (inner : ¬ node.isLeaf = true)
    (todo : List (Int × Bool)) (parts : List String) {texts : List String}
    (complete : texts.length = node.children.length) :
    arena.renderRound ⟨(id, true) :: todo, parts ++ texts⟩ =
      .ok ⟨todo, parts ++ [node.branchText texts]⟩ := by
  have first : (parts ++ texts).length - node.children.length = parts.length := by
    rw [List.length_append, complete, Nat.add_sub_cancel]
  rw [renderRound, found]
  refine (if_neg inner).trans ?_
  show Except.ok (Rendering.mk todo _) = _
  rw [first, List.take_left, List.drop_left]

theorem gatherRound_of_leaf (found : arena.node id = .ok node) (leaf : node.isLeaf = true)
    (todo : List Int) (tokens : List Symbol) :
    arena.gatherRound ⟨id :: todo, tokens⟩ = .ok ⟨todo, tokens ++ node.leafTokens⟩ := by
  rw [gatherRound, found]
  exact if_pos leaf

theorem gatherRound_of_branch (found : arena.node id = .ok node) (inner : ¬ node.isLeaf = true)
    (todo : List Int) (tokens : List Symbol) :
    arena.gatherRound ⟨id :: todo, tokens⟩ = .ok ⟨node.children ++ todo, tokens⟩ := by
  rw [gatherRound, found]
  exact if_neg inner

end Rounds

end Arena

end ShiftReduce
