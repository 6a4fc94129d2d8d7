/-
This file reads trees with a list of what is left to do in place of recursion, so that a
tree may be as deep as an arena is long. The walks visit the nodes in the order in which the
recursive readings do, and give what those give. A walk ends because every visit replaces a
tree by lower ones: a tree of some depth outweighs any number of lower trees that the
children of one node can be.
-/

import ShiftReduce.Forest.Reading

namespace ShiftReduce

namespace Arena

/-! ### What is left to do -/

/-- More than what takes the place of a node when it is visited: its children, a gap in
front of each but the first, and what closes it. -/
def breadth : List Node → Nat
  | [] => 1
  | node :: rest => max (2 * node.children.length + 1) (breadth rest)

/-- The weight of a tree by its depth. -/
def weight (breadth : Nat) : Nat → Nat
  | 0 => 1
  | depth + 1 => breadth * weight breadth depth

/-- The weight of several trees by their depths. -/
def load (breadth : Nat) : List Nat → Nat
  | [] => 0
  | depth :: rest => weight breadth depth + load breadth rest

theorem breadth_of_mem {nodes : List Node} {node : Node} (member : node ∈ nodes) :
    2 * node.children.length + 1 ≤ breadth nodes := by
  induction nodes with
  | nil => cases member
  | cons first rest inductionHypothesis =>
    rw [breadth]
    rcases List.mem_cons.mp member with rfl | inRest
    · exact Nat.le_max_left _ _
    · exact Nat.le_trans (inductionHypothesis inRest) (Nat.le_max_right _ _)

theorem breadth_pos (nodes : List Node) : 0 < breadth nodes := by
  induction nodes with
  | nil => exact Nat.one_pos
  | cons node rest inductionHypothesis =>
    exact Nat.lt_of_lt_of_le inductionHypothesis (Nat.le_max_right _ _)

theorem weight_pos {breadth : Nat} (positive : 0 < breadth) (depth : Nat) :
    0 < weight breadth depth := by
  induction depth with
  | zero => exact Nat.one_pos
  | succ depth inductionHypothesis => exact Nat.mul_pos positive inductionHypothesis

@[simp] theorem load_append (breadth : Nat) (first second : List Nat) :
    load breadth (first ++ second) = load breadth first + load breadth second := by
  induction first with
  | nil => rw [List.nil_append, load, Nat.zero_add]
  | cons depth rest inductionHypothesis =>
    rw [List.cons_append, load, load, inductionHypothesis, Nat.add_assoc]

/-- The nodes that are looked up are nodes of the arena. -/
theorem mem_of_node {arena : Arena} {id : Int} {node : Node} (found : arena.node id = .ok node) :
    node ∈ arena.nodes.toList := by
  obtain ⟨place, _, stored⟩ := Option.bind_eq_some_iff.mp (valueOr_eq_ok_iff.mp found)
  exact Array.mem_toList_iff.mpr (Array.mem_of_getElem? stored)

/-- A tree outweighs the trees of the children of its node, with as many gaps as there are
children. -/
theorem children_lt_weight {arena : Arena} {id : Int} {node : Node}
    (found : arena.node id = .ok node) (depth : Nat) :
    node.children.length * weight (breadth arena.nodes.toList) depth + node.children.length <
      weight (breadth arena.nodes.toList) (depth + 1) := by
  have wide := breadth_of_mem (mem_of_node found)
  have positive := weight_pos (breadth_pos arena.nodes.toList) depth
  rw [weight]
  generalize weight (breadth arena.nodes.toList) depth = lower at positive ⊢
  generalize node.children.length = children at wide ⊢
  have scaled := Nat.mul_le_mul_right lower wide
  have each := Nat.le_mul_of_pos_right children positive
  rw [Nat.add_mul, Nat.mul_assoc, Nat.one_mul] at scaled
  omega

/-! ### Leaves -/

/-- The trees of some nodes, all of which are at most so deep. -/
def children (depth : Nat) (ids : List Int) : List (Nat × Int) :=
  ids.map fun id => (depth, id)

@[simp] theorem load_children (breadth depth : Nat) (ids : List Int) :
    load breadth ((children depth ids).map Prod.fst) = ids.length * weight breadth depth := by
  induction ids with
  | nil => exact (Nat.zero_mul _).symm
  | cons id rest inductionHypothesis =>
    have tail : load breadth ((children depth (id :: rest)).map Prod.fst) =
        weight breadth depth + load breadth ((children depth rest).map Prod.fst) := rfl
    rw [tail, inductionHypothesis, List.length_cons, Nat.succ_mul, Nat.add_comm]

/-- The tokens of the trees that are waiting, behind the tokens gathered so far, the last of
which comes first. -/
def gather (arena : Arena) : List (Nat × Int) → List Symbol → Except Fault (List Symbol)
  | [], tokens => .ok tokens.reverse
  | (0, _) :: _, _ => .error .endlessWalk
  | (depth + 1, id) :: rest, tokens =>
      match _ : arena.node id with
      | .error fault => .error fault
      | .ok node =>
          if node.isLeaf then gather arena rest (node.leafTokens.reverse ++ tokens)
          else gather arena (children depth node.children ++ rest) tokens
termination_by waiting _ => load (breadth arena.nodes.toList) (waiting.map Prod.fst)
decreasing_by
  · rw [List.map_cons, load]
    exact Nat.lt_add_of_pos_left (weight_pos (breadth_pos _) _)
  · have lower := children_lt_weight ‹arena.node id = .ok node› depth
    rw [List.map_append, load_append, load_children, List.map_cons, load]
    exact Nat.add_lt_add_right (Nat.lt_of_le_of_lt (Nat.le_add_right _ _) lower) _

/-- The tokens under a tree, left to right. -/
def leaves (arena : Arena) (id : Int) : Except Fault (List Symbol) :=
  arena.gather [(arena.size + 1, id)] []

/-! ### Text -/

/-- What is still to be written: a tree of at most some depth, or a piece of text. -/
inductive Pending
  | tree (depth : Nat) (id : Int)
  | text (written : String)

namespace Pending

/-- A piece of text weighs as much as a tree without depth. -/
def depth : Pending → Nat
  | tree depth _ => depth
  | text _ => 0

/-- The trees of the later children of a node, with a space in front of each. -/
def spaced (depth : Nat) (ids : List Int) : List Pending :=
  ids.flatMap fun id => [text " ", tree depth id]

/-- The trees of the children of a node, and the bracket behind them. -/
def branch (depth : Nat) (first : Int) (others : List Int) : List Pending :=
  tree depth first :: spaced depth others ++ [text ")"]

end Pending

@[simp] theorem load_spaced (breadth depth : Nat) (ids : List Int) :
    load breadth ((Pending.spaced depth ids).map Pending.depth) =
      ids.length * weight breadth depth + ids.length := by
  induction ids with
  | nil => exact (Nat.zero_mul _).symm
  | cons id rest inductionHypothesis =>
    have tail : load breadth ((Pending.spaced depth (id :: rest)).map Pending.depth) =
        1 + (weight breadth depth +
          load breadth ((Pending.spaced depth rest).map Pending.depth)) := rfl
    rw [tail, inductionHypothesis, List.length_cons, Nat.succ_mul]
    omega

theorem load_branch (breadth depth : Nat) (first : Int) (others : List Int) :
    load breadth ((Pending.branch depth first others).map Pending.depth) =
      (first :: others).length * weight breadth depth + (first :: others).length := by
  have closing : load breadth [Pending.depth (.text ")")] = 1 := rfl
  rw [Pending.branch, List.cons_append, List.map_cons, load, List.map_append, load_append,
    load_spaced, List.map_singleton, closing, List.length_cons, Nat.succ_mul, Pending.depth]
  omega

/-- All that is written, once what is pending is written behind it. -/
def write (arena : Arena) : List Pending → String → Except Fault String
  | [], written => .ok written
  | .text part :: rest, written => write arena rest (written ++ part)
  | .tree 0 _ :: _, _ => .error .endlessWalk
  | .tree (depth + 1) id :: rest, written =>
      match _ : arena.node id with
      | .error fault => .error fault
      | .ok node =>
          match _ : node.children with
          | [] => write arena rest (written ++ node.leafText)
          | first :: others =>
              write arena (Pending.branch depth first others ++ rest) (written ++ node.opening)
termination_by pending _ => load (breadth arena.nodes.toList) (pending.map Pending.depth)
decreasing_by
  · rw [List.map_cons, load]
    exact Nat.lt_add_of_pos_left (weight_pos (breadth_pos _) _)
  · rw [List.map_cons, load]
    exact Nat.lt_add_of_pos_left (weight_pos (breadth_pos _) _)
  · have lower := children_lt_weight ‹arena.node id = .ok node› depth
    have shape : node.children = first :: others := by assumption
    rw [List.map_append, load_append, load_branch, ← shape, List.map_cons, load]
    exact Nat.add_lt_add_right lower _

/-- The text of a tree. -/
def render (arena : Arena) (id : Int) : Except Fault String :=
  arena.write [.tree (arena.size + 1) id] ""

/-! ### The walks and the recursive readings -/

theorem gather_children (arena : Arena) (depth : Nat)
    (each : ∀ id rest tokens, arena.gather ((depth, id) :: rest) tokens =
      arena.leavesWithin depth id >>= fun found => arena.gather rest (found.reverse ++ tokens))
    (ids : List Int) (rest : List (Nat × Int)) (tokens : List Symbol) :
    arena.gather (children depth ids ++ rest) tokens =
      ids.mapM (arena.leavesWithin depth) >>= fun parts =>
        arena.gather rest (parts.flatten.reverse ++ tokens) := by
  induction ids generalizing tokens with
  | nil => rfl
  | cons id others inductionHypothesis =>
    have split : children depth (id :: others) ++ rest =
        (depth, id) :: (children depth others ++ rest) := rfl
    rw [split, each, List.mapM_cons, bind_assoc]
    congr 1
    funext found
    rw [inductionHypothesis, bind_assoc]
    congr 1
    funext parts
    rw [pure_bind, List.flatten_cons, List.reverse_append, List.append_assoc]

/-- A waiting tree adds the tokens that the recursive reading gives for it. -/
@[simp] theorem gather_cons (arena : Arena) (depth : Nat) (id : Int) (rest : List (Nat × Int))
    (tokens : List Symbol) :
    arena.gather ((depth, id) :: rest) tokens =
      arena.leavesWithin depth id >>= fun found =>
        arena.gather rest (found.reverse ++ tokens) := by
  induction depth generalizing id rest tokens with
  | zero => rw [gather]; rfl
  | succ depth inductionHypothesis =>
    rw [gather]
    split
    · rename_i fault missing
      rw [leavesWithin_of_error missing]
      rfl
    · rename_i node found
      by_cases leaf : node.isLeaf = true
      · rw [if_pos leaf, leavesWithin_of_leaf found leaf]
        rfl
      · rw [if_neg leaf, leavesWithin_of_branch found leaf,
          gather_children arena depth inductionHypothesis, bind_assoc]
        rfl

/-- The leaves are those of the recursive reading. -/
theorem leaves_eq (arena : Arena) (id : Int) :
    arena.leaves id = arena.leavesWithin (arena.size + 1) id := by
  rw [leaves, gather_cons]
  cases arena.leavesWithin (arena.size + 1) id with
  | error fault => rfl
  | ok found =>
    show arena.gather [] (found.reverse ++ []) = .ok found
    rw [gather, List.append_nil, List.reverse_reverse]

@[simp] theorem write_text (arena : Arena) (part : String) (rest : List Pending)
    (written : String) :
    arena.write (.text part :: rest) written = arena.write rest (written ++ part) := by
  rw [write]

theorem write_spaced (arena : Arena) (depth : Nat)
    (each : ∀ id rest written, arena.write (.tree depth id :: rest) written =
      arena.renderWithin depth id >>= fun text => arena.write rest (written ++ text))
    (ids : List Int) (rest : List Pending) (written : String) :
    arena.write (Pending.spaced depth ids ++ rest) written =
      ids.mapM (arena.renderWithin depth) >>= fun parts =>
        arena.write rest (written ++ String.join (parts.map (" " ++ ·))) := by
  induction ids generalizing written with
  | nil =>
    show arena.write rest written = arena.write rest (written ++ "")
    rw [String.append_empty]
  | cons id others inductionHypothesis =>
    have split : Pending.spaced depth (id :: others) ++ rest =
        .text " " :: .tree depth id :: (Pending.spaced depth others ++ rest) := rfl
    rw [split, write_text, each, List.mapM_cons, bind_assoc]
    congr 1
    funext text
    rw [inductionHypothesis, bind_assoc]
    congr 1
    funext parts
    rw [pure_bind, List.map_cons, String.join_cons, String.append_assoc, String.append_assoc,
      String.append_assoc]

theorem joined_cons (first : String) (others : List String) :
    Text.joined " " (first :: others) = first ++ String.join (others.map (" " ++ ·)) := by
  induction others generalizing first with
  | nil => exact (String.append_empty).symm
  | cons second rest inductionHypothesis =>
    have split : Text.joined " " (first :: second :: rest) =
        first ++ " " ++ Text.joined " " (second :: rest) := String.intercalate_cons_cons
    rw [split, inductionHypothesis, List.map_cons, String.join_cons, String.append_assoc,
      String.append_assoc]

/-- A pending tree adds the text that the recursive reading gives for it. -/
@[simp] theorem write_tree (arena : Arena) (depth : Nat) (id : Int) (rest : List Pending)
    (written : String) :
    arena.write (.tree depth id :: rest) written =
      arena.renderWithin depth id >>= fun text => arena.write rest (written ++ text) := by
  induction depth generalizing id rest written with
  | zero => rw [write]; rfl
  | succ depth inductionHypothesis =>
    rw [write]
    split
    · rename_i fault missing
      rw [renderWithin_of_error missing]
      rfl
    · rename_i node found
      split
      · rename_i childless
        have leaf : node.isLeaf = true := by rw [Node.isLeaf, childless]; rfl
        rw [renderWithin_of_leaf found leaf]
        rfl
      · rename_i first others shape
        have inner : ¬ node.isLeaf = true := by rw [Node.isLeaf, shape]; exact Bool.false_ne_true
        have split : Pending.branch depth first others ++ rest = .tree depth first ::
            (Pending.spaced depth others ++ (.text ")" :: rest)) := by
          rw [Pending.branch, List.cons_append, List.cons_append, List.append_assoc]
          rfl
        rw [renderWithin_of_branch found inner, shape, split, inductionHypothesis,
          List.mapM_cons, bind_assoc, bind_assoc]
        congr 1
        funext text
        rw [write_spaced arena depth inductionHypothesis, bind_assoc]
        congr 1
        funext parts
        show arena.write (.text ")" :: rest) _ =
          arena.write rest (written ++ node.branchText (text :: parts))
        rw [write_text, Node.branchText, joined_cons]
        simp only [String.append_assoc]

/-- The text is that of the recursive reading. -/
theorem render_eq (arena : Arena) (id : Int) :
    arena.render id = arena.renderWithin (arena.size + 1) id := by
  rw [render, write_tree]
  cases arena.renderWithin (arena.size + 1) id with
  | error fault => rfl
  | ok text =>
    show arena.write [] ("" ++ text) = .ok text
    rw [write, String.empty_append]

end Arena

end ShiftReduce
