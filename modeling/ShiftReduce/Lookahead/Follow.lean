/-
This file computes FOLLOW sets: the terminals that can stand behind a non-terminal in what
some non-terminal derives, and the end marker where it can come last. A pass visits every
occurrence of a non-terminal in every body, adds what the rest of the body can start with,
and passes on what follows the head when the rest can vanish. The FIRST sets may be any
map that covers the bodies.
-/

import ShiftReduce.Lookahead.First

namespace ShiftReduce

namespace Grammar

/-! ### Passes -/

/-- The end marker follows the start symbol; nothing else is known yet. -/
def initialFollow (grammar : Grammar) : SetMap :=
  let unknown := SymbolMap.ofList (grammar.nonTerminals.map fun symbol => (symbol, ∅))
  match grammar.startSymbol with
  | none => unknown
  | some start => unknown.insert start (SymbolSet.only Symbol.endMarker)

/-- What a head passes on to a non-terminal with the given FIRST set behind it. -/
def inherited (follow : SetMap) (head : Symbol) (ahead : SymbolSet) : Except Fault SymbolSet :=
  if Symbol.epsilon ∈ ahead then follow.lookup head else .ok ∅

/-- Visits the occurrences of non-terminals in a body, or in the rest of one. -/
def followBody (grammar : Grammar) (first : SetMap) (head : Symbol) :
    List Symbol → SetMap → Except Fault SetMap
  | [], follow => .ok follow
  | symbol :: rest, follow =>
      if grammar.isNonTerminal symbol then do
        let known ← follow.lookup symbol
        let ahead ← firstOf first rest
        let above ← inherited follow head ahead
        followBody grammar first head rest
          (follow.insert symbol (known ∪ ahead.erase Symbol.epsilon ∪ above))
      else followBody grammar first head rest follow

/-- One visit to every production. -/
def followPass (grammar : Grammar) (first follow : SetMap) : Except Fault SetMap :=
  grammar.productions.foldlM
    (fun follow production => grammar.followBody first production.head production.body follow)
    follow

/-- The symbols other than the empty word that some set of a map holds. -/
def heldSymbols (sets : SetMap) : SymbolSet :=
  (SymbolSet.ofList (sets.values.flatMap SymbolSet.members)).erase Symbol.epsilon

/-- More passes than the sets have room to grow in. -/
def followRounds (grammar : Grammar) (first : SetMap) : Nat :=
  grammar.nonTerminals.length * ((heldSymbols first).size + 1) + 1

/-- The FOLLOW sets after every pass, for the given FIRST sets. -/
def followPasses (grammar : Grammar) (first : SetMap) : Except Fault (List SetMap) :=
  SetMap.passes (grammar.followPass first) (grammar.followRounds first) grammar.initialFollow

/-- The FOLLOW sets of all non-terminals, for the given FIRST sets. -/
def follow (grammar : Grammar) (first : SetMap) : Except Fault SetMap :=
  SetMap.settled <$> grammar.followPasses first

end Grammar

/-! ### Both kinds of sets -/

/-- The FIRST and FOLLOW sets of a grammar. -/
structure LookaheadSets where
  first : SetMap
  follow : SetMap

/-- The FIRST and FOLLOW sets of a grammar. -/
def Grammar.lookaheadSets (grammar : Grammar) : Except Fault LookaheadSets := do
  let first ← grammar.first
  let follow ← grammar.follow first
  return ⟨first, follow⟩

namespace LookaheadSets

/-- Whether a symbol can vanish. -/
def nullable (sets : LookaheadSets) (symbol : Symbol) : Except Fault Bool := do
  let members ← sets.first.lookup symbol
  return decide (Symbol.epsilon ∈ members)

/-- Two pairs agree when both maps do. -/
def agrees (one other : LookaheadSets) : Bool :=
  one.first.agrees other.first && one.follow.agrees other.follow

/-- Each set on a line of its own, FIRST before FOLLOW. -/
def text (sets : LookaheadSets) : String :=
  Text.joined "\n" (sets.first.texts "FIRST" ++ sets.follow.texts "FOLLOW")

end LookaheadSets

end ShiftReduce
