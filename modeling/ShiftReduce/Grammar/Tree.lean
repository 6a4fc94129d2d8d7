/-
This file introduces derivation trees. The inner nodes of a tree are productions, its
leaves are tokens, and the symbols of the children of a production are its body; the tokens
at the leaves are then derived from the symbol of the root.
-/

import ShiftReduce.Grammar.Derivation

namespace ShiftReduce

/-- A tree of productions over tokens. -/
inductive DerivationTree
  | leaf (token : Symbol)
  | branch (production : Production) (children : List DerivationTree)

namespace DerivationTree

/-- The symbol of the root. -/
def symbol : DerivationTree → Symbol
  | leaf token => token
  | branch production _ => production.head

mutual

/-- The tokens at the leaves, left to right. -/
def tokens : DerivationTree → List Symbol
  | leaf token => [token]
  | branch _ children => tokensOf children

/-- The tokens at the leaves of several trees. -/
def tokensOf : List DerivationTree → List Symbol
  | [] => []
  | tree :: rest => tokens tree ++ tokensOf rest

end

mutual

/-- The productions of a tree, each behind the productions under it. -/
def postorder : DerivationTree → List Production
  | leaf _ => []
  | branch production children => postorderOf children ++ [production]

/-- The productions of several trees. -/
def postorderOf : List DerivationTree → List Production
  | [] => []
  | tree :: rest => postorder tree ++ postorderOf rest

end

/-- A tree belongs to a grammar when its productions do, its leaves are terminals, and the
symbols of children spell bodies. -/
inductive Belongs (grammar : Grammar) : DerivationTree → Prop
  | leaf (token : Symbol) (terminal : grammar.isTerminal token = true) :
      Belongs grammar (.leaf token)
  | branch (production : Production) (children : List DerivationTree)
      (member : production ∈ grammar.productions)
      (spelled : children.map symbol = production.body)
      (each : ∀ child ∈ children, Belongs grammar child) :
      Belongs grammar (.branch production children)

/-! ### Trees and derivations -/

theorem derives_tokensOf {grammar : Grammar} (children : List DerivationTree)
    (each : ∀ child ∈ children, grammar.Derives [child.symbol] child.tokens) :
    grammar.Derives (children.map symbol) (tokensOf children) := by
  induction children with
  | nil => exact .refl _
  | cons child rest inductionHypothesis =>
    exact (each child List.mem_cons_self).append
      (inductionHypothesis fun other member => each other (List.mem_cons_of_mem _ member))

/-- The root derives the tokens at the leaves. -/
theorem Belongs.derives {grammar : Grammar} {tree : DerivationTree}
    (belongs : tree.Belongs grammar) : grammar.Derives [tree.symbol] tree.tokens := by
  induction belongs with
  | leaf token _ => exact .refl _
  | branch production children member spelled _ inductionHypothesis =>
    refine (Grammar.Derives.single member).trans ?_
    rw [← spelled]
    exact derives_tokensOf children inductionHypothesis

end DerivationTree

end ShiftReduce
