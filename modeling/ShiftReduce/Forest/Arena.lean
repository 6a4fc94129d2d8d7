/-
This file introduces the nodes of a parse forest and the arena that stores them. A node
refers to its children by position. Nodes are only ever added, and an added node may refer
to earlier positions only, so what was read from an arena stays as it was.
-/

import ShiftReduce.Fault
import ShiftReduce.Position

namespace ShiftReduce

/-- A node: leaves carry a token as their value, inner nodes have children, and the node of
an empty body has the empty word as its value. -/
structure Node where
  id : Int
  label : Symbol
  value : Option Symbol
  children : List Int
  deriving DecidableEq, Inhabited

namespace Node

/-- Nodes without children. -/
def isLeaf (node : Node) : Bool :=
  node.children.isEmpty

/-- The id, the label, and the children or else the value. -/
def text (node : Node) : String :=
  let label := Text.quoted node.label
  if node.isLeaf then s!"ParseTreeNode({node.id}, {label}, value={Text.quotedOption node.value})"
  else s!"ParseTreeNode({node.id}, {label}, children={Text.bracketed node.children})"

end Node

/-- The nodes of one run, in the order in which they were added. -/
structure Arena where
  nodes : Array Node
  deriving DecidableEq

namespace Arena

/-- The arena without nodes. -/
def empty : Arena := ⟨#[]⟩

instance : EmptyCollection Arena := ⟨empty⟩

instance : Inhabited Arena := ⟨empty⟩

/-- The number of nodes, which is the id of the next one. -/
def size (arena : Arena) : Nat :=
  arena.nodes.size

/-- The node a signed position names. -/
def node (arena : Arena) (id : Int) : Except Fault Node :=
  valueOr .outOfRange
    ((Position.resolve arena.size id).bind fun place => arena.nodes[place]?)

/-- The arena with one more node at its end. -/
def add (arena : Arena) (label : Symbol) (value : Option Symbol) (children : List Int) : Arena :=
  ⟨arena.nodes.push ⟨arena.size, label, value, children⟩⟩

/-- The arena with one more leaf. -/
def leaf (arena : Arena) (label : Symbol) (value : Option Symbol) : Arena :=
  arena.add label value []

/-- The arena with one more inner node, whose children have to come before it. -/
def internal (arena : Arena) (label : Symbol) (children : List Int) (value : Option Symbol) :
    Except Fault Arena :=
  if children.all fun child => decide (child < arena.size) then
    .ok (arena.add label value children)
  else .error .laterChild

@[simp] theorem size_add (arena : Arena) (label : Symbol) (value : Option Symbol)
    (children : List Int) :
    (arena.add label value children).size = arena.size + 1 :=
  Array.size_push _

/-- An inner node is added if its children come before it, and only then. -/
theorem internal_eq_ok_iff {arena next : Arena} {label : Symbol} {children : List Int}
    {value : Option Symbol} : arena.internal label children value = .ok next ↔
      (∀ child ∈ children, child < arena.size) ∧ next = arena.add label value children := by
  have checked : (children.all fun child => decide (child < arena.size)) = true ↔
      ∀ child ∈ children, child < arena.size := by
    simp only [List.all_eq_true, decide_eq_true_eq]
  rw [internal]
  split
  · rename_i earlier
    rw [and_iff_right (checked.mp earlier), Except.ok.injEq, eq_comm]
  · rename_i later
    exact iff_of_false nofun fun added => later (checked.mpr added.1)

/-- Ids that count from the front are ordinary lookup. -/
@[simp] theorem node_natCast (arena : Arena) (id : Nat) :
    arena.node id = valueOr .outOfRange arena.nodes[id]? := by
  unfold node
  rw [Position.resolve_natCast]
  by_cases inside : id < arena.size
  · rw [if_pos inside, Option.bind_some]
  · rw [if_neg inside, Option.bind_none, Array.getElem?_eq_none (Nat.le_of_not_lt inside)]

/-- The added node is found under its id. -/
theorem node_add_self (arena : Arena) (label : Symbol) (value : Option Symbol)
    (children : List Int) :
    (arena.add label value children).node arena.size =
      .ok ⟨arena.size, label, value, children⟩ := by
  simp [add, size]

/-- Adding a node changes no earlier one. -/
theorem node_add_earlier (arena : Arena) (label : Symbol) (value : Option Symbol)
    (children : List Int) {id : Nat} (earlier : id < arena.size) :
    (arena.add label value children).node id = arena.node id := by
  have apart : id ≠ arena.nodes.size := Nat.ne_of_lt earlier
  simp [add, Array.getElem?_push, apart]

/-- Nodes that are found stay where they are. -/
theorem getElem?_of_grown {one other : Arena} (grown : one.nodes.toList <+: other.nodes.toList)
    {id : Nat} {node : Node} (found : one.nodes[id]? = some node) :
    other.nodes[id]? = some node := by
  rw [← Array.getElem?_toList] at found ⊢
  obtain ⟨inside, rfl⟩ := List.getElem?_eq_some_iff.mp found
  exact List.prefix_iff_getElem?.mp grown id inside

end Arena

end ShiftReduce
