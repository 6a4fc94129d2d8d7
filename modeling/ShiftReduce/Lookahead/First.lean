/-
This file computes FIRST sets: the terminals that can start what a symbol derives, and the
empty word for symbols that can vanish. A pass visits the productions in order and adds to
the set of each head what its body can start with, using the sets as they stand at that
moment. Passes are run until one changes nothing, and the result of every pass is kept, the
last one included, so that the sets can be watched while they grow. There is room in the sets
for one growth per non-terminal and per terminal or empty word, which bounds the passes.
-/

import ShiftReduce.Grammar.Basic
import ShiftReduce.Symbol.Map
import ShiftReduce.Symbol.Set

namespace ShiftReduce

/-! ### Passes that change nothing in the end -/

/-- A set of symbols for each of some symbols. -/
abbrev SetMap := SymbolMap SymbolSet

namespace SetMap

/-- The results of the passes from a map on, up to the first pass that changes nothing. -/
def passes (pass : SetMap → Except Fault SetMap) : Nat → SetMap → Except Fault (List SetMap)
  | 0, _ => .ok []
  | rounds + 1, current => do
      let next ← pass current
      if next = current then return [next]
      else return next :: (← passes pass rounds next)

/-- The result of the last pass. -/
def settled (results : List SetMap) : SetMap :=
  results.getLast?.getD ∅

/-- Every symbol with its set, in the order of the map. -/
def texts (name : String) (sets : SetMap) : List String :=
  sets.entries.map fun (symbol, set) => s!"{name}({symbol}) = \x7b{set.text}\x7d"

end SetMap

/-! ### Strings of symbols -/

/-- FIRST of a string of symbols. The sets of its symbols are read up to the first symbol
that cannot vanish; the empty word is a member when there is no such symbol. -/
def firstOf (first : SetMap) : List Symbol → Except Fault SymbolSet
  | [] => .ok (SymbolSet.only Symbol.epsilon)
  | symbol :: rest => do
      let here ← first.lookup symbol
      if Symbol.epsilon ∈ here then
        let later ← firstOf first rest
        return here.erase Symbol.epsilon ∪ later
      else return here

namespace Grammar

/-! ### Passes over the productions -/

/-- A terminal starts with itself; nothing is known of non-terminals yet. -/
def initialFirst (grammar : Grammar) : SetMap :=
  SymbolMap.ofList (grammar.terminals.map (fun symbol => (symbol, SymbolSet.only symbol)) ++
    grammar.nonTerminals.map fun symbol => (symbol, ∅))

/-- Adds what the body of a production can start with to the set of its head. -/
def firstStep (first : SetMap) (production : Production) : Except Fault SetMap := do
  let known ← first.lookup production.head
  let found ← firstOf first production.body
  return first.insert production.head (known ∪ found)

/-- One visit to every production. -/
def firstPass (grammar : Grammar) (first : SetMap) : Except Fault SetMap :=
  grammar.productions.foldlM firstStep first

/-- More passes than the sets have room to grow in. -/
def firstRounds (grammar : Grammar) : Nat :=
  grammar.nonTerminals.length * (grammar.terminals.length + 1) + 1

/-- The FIRST sets after every pass. -/
def firstPasses (grammar : Grammar) : Except Fault (List SetMap) :=
  SetMap.passes grammar.firstPass grammar.firstRounds grammar.initialFirst

/-- The FIRST sets of all symbols. -/
def first (grammar : Grammar) : Except Fault SetMap :=
  SetMap.settled <$> grammar.firstPasses

end Grammar

end ShiftReduce
