/-
This file says what there is to read under a node of an arena, and which derivation tree a node
stands for. The outline of a node has its label and its value, and the outlines of its children in
order; a node that several nodes share stands in the outlines of all of them. Text and tokens are
read off an outline by recursion. In the forest of a derivation, a leaf has its token as label and
as value; a branch has the head of its production as label, its children in order, and the empty
word as value if there are none.
-/

import ShiftReduce.Forest.Arena
import ShiftReduce.Grammar.Tree

namespace ShiftReduce

/-! ### Outlines -/

/-- The labels and values under a node. -/
inductive Outline
  | node (label : Symbol) (value : Option Symbol) (children : List Outline)

namespace Outline

mutual

/-- Without children, the value or else the label, and the value behind the label in brackets if the
two differ; with children, the label and the texts of the children in brackets. -/
def text : Outline → String
  | node label none [] => label
  | node label (some value) [] => if value = label then value else s!"({label} {value})"
  | node label _ (first :: others) => s!"({label}" ++ textOf (first :: others) ++ ")"

/-- The texts of several outlines, each behind a space. -/
def textOf : List Outline → String
  | [] => ""
  | outline :: rest => " " ++ text outline ++ textOf rest

end

mutual

/-- The value or else the label of every node without children whose value is not the empty word,
left to right. -/
def tokens : Outline → List Symbol
  | node label value [] => if value = some Symbol.epsilon then [] else [value.getD label]
  | node _ _ (first :: others) => tokensOf (first :: others)

/-- The tokens of several outlines. -/
def tokensOf : List Outline → List Symbol
  | [] => []
  | outline :: rest => tokens outline ++ tokensOf rest

end

end Outline

/-- An id names a node with an outline. -/
inductive Arena.Shows (arena : Arena) : Int → Outline → Prop
  | node (id : Int) (node : Node) (children : List Outline) (found : arena.node id = .ok node)
      (aligned : node.children.length = children.length)
      (each : ∀ pair ∈ node.children.zip children, Shows arena pair.1 pair.2) :
      Shows arena id (.node node.label node.value children)

/-! ### Derivation trees -/

namespace Arena

/-- The value of the node of a production. -/
def branchValue (production : Production) : Option Symbol :=
  if production.body = [] then some Symbol.epsilon else none

/-- A node stands for a tree. -/
inductive Holds (arena : Arena) : Nat → DerivationTree → Prop
  | leaf (id : Nat) (token : Symbol)
      (found : arena.nodes[id]? = some ⟨id, token, some token, []⟩) :
      Holds arena id (.leaf token)
  | branch (id : Nat) (production : Production) (ids : List Nat)
      (children : List DerivationTree)
      (found : arena.nodes[id]? = some ⟨id, production.head, branchValue production,
        ids.map fun child : Nat => (child : Int)⟩)
      (aligned : ids.length = children.length)
      (each : ∀ pair ∈ ids.zip children, Holds arena pair.1 pair.2) :
      Holds arena id (.branch production children)

/-- A node stands for the same tree after more nodes were added. -/
theorem Holds.add {arena : Arena} {id : Nat} {tree : DerivationTree} (holds : arena.Holds id tree)
    (label : Symbol) (value : Option Symbol) (children : List Int) :
    (arena.add label value children).Holds id tree := by
  have kept {place : Nat} {node : Node} (found : arena.nodes[place]? = some node) :
      (arena.add label value children).nodes[place]? = some node := by
    obtain ⟨inside, _⟩ := Array.getElem?_eq_some_iff.mp found
    have apart : place ≠ arena.nodes.size := Nat.ne_of_lt inside
    rw [Arena.add, Array.getElem?_push, if_neg apart, found]
  induction holds with
  | leaf id token found => exact .leaf id token (kept found)
  | branch id production ids trees found aligned _ inductionHypothesis =>
    exact .branch id production ids trees (kept found) aligned inductionHypothesis

end Arena

end ShiftReduce
