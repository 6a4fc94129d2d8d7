/-
This file says by recursion what is read out of an arena: the bracketed text of a tree and
the tokens at its leaves. Both follow the children from left to right. A reading that goes
deeper than the arena has nodes has met a node among its own descendants and would never
end; with a depth of one more than the number of nodes, such readings and no others are cut
off.
-/

import ShiftReduce.Forest.Arena

namespace ShiftReduce

namespace Node

/-- The text of a leaf: its value, behind its label if the two differ, or else its label. -/
def leafText (node : Node) : String :=
  match node.value with
  | none => node.label
  | some value => if value = node.label then value else s!"({node.label} {value})"

/-- The tokens of a leaf: its value or else its label, and none for the empty word. -/
def leafTokens (node : Node) : List Symbol :=
  if node.value = some Symbol.epsilon then [] else [node.value.getD node.label]

/-- What stands in front of the children of a node. -/
def opening (node : Node) : String :=
  s!"({node.label} "

/-- A label and the texts of the children in round brackets. -/
def branchText (node : Node) (parts : List String) : String :=
  node.opening ++ Text.joined " " parts ++ ")"

end Node

namespace Arena

/-- The text of a tree that is at most as deep as the first argument. -/
def renderWithin (arena : Arena) : Nat → Int → Except Fault String
  | 0, _ => .error .endlessWalk
  | depth + 1, id => do
      let node ← arena.node id
      if node.isLeaf then return node.leafText
      else
        let parts ← node.children.mapM (renderWithin arena depth)
        return node.branchText parts

/-- The tokens under a tree that is at most as deep as the first argument. -/
def leavesWithin (arena : Arena) : Nat → Int → Except Fault (List Symbol)
  | 0, _ => .error .endlessWalk
  | depth + 1, id => do
      let node ← arena.node id
      if node.isLeaf then return node.leafTokens
      else
        let parts ← node.children.mapM (leavesWithin arena depth)
        return parts.flatten

/-! ### One level at a time -/

section Levels

variable {arena : Arena} {id : Int} {node : Node} {depth : Nat}

theorem renderWithin_of_error {fault : Fault} (missing : arena.node id = .error fault) :
    arena.renderWithin (depth + 1) id = .error fault := by
  rw [renderWithin, missing]
  rfl

theorem renderWithin_of_leaf (found : arena.node id = .ok node) (leaf : node.isLeaf = true) :
    arena.renderWithin (depth + 1) id = .ok node.leafText := by
  rw [renderWithin, found]
  exact if_pos leaf

theorem renderWithin_of_branch (found : arena.node id = .ok node)
    (inner : ¬ node.isLeaf = true) :
    arena.renderWithin (depth + 1) id =
      node.children.mapM (arena.renderWithin depth) >>= fun parts =>
        .ok (node.branchText parts) := by
  rw [renderWithin, found]
  exact if_neg inner

theorem leavesWithin_of_error {fault : Fault} (missing : arena.node id = .error fault) :
    arena.leavesWithin (depth + 1) id = .error fault := by
  rw [leavesWithin, missing]
  rfl

theorem leavesWithin_of_leaf (found : arena.node id = .ok node) (leaf : node.isLeaf = true) :
    arena.leavesWithin (depth + 1) id = .ok node.leafTokens := by
  rw [leavesWithin, found]
  exact if_pos leaf

theorem leavesWithin_of_branch (found : arena.node id = .ok node)
    (inner : ¬ node.isLeaf = true) :
    arena.leavesWithin (depth + 1) id =
      node.children.mapM (arena.leavesWithin depth) >>= fun parts => .ok parts.flatten := by
  rw [leavesWithin, found]
  exact if_neg inner

end Levels

end Arena

end ShiftReduce
