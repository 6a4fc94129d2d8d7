/-
This file fills the parsing table of an augmented grammar from its states and a map of
lookahead sets. Every item of a state asks for entries: a terminal behind the dot for a
shift, a complete item for its reduction under every lookahead token of its head, and the
complete start item for acceptance under the end marker. The cells take the first entry
they are asked to hold; each different entry that comes later is logged as a conflict and
changes nothing.
-/

import ShiftReduce.Automaton
import ShiftReduce.Lookahead.Follow
import ShiftReduce.Table.Basic

namespace ShiftReduce

/-- An entry that a cell of a row is asked to hold. -/
abbrev Request := Symbol × Entry

namespace Table

/-! ### What the items ask for -/

/-- The requests of a complete item. -/
def completeRequests (grammar : Grammar) (follow : SetMap) (start : Production) (item : Item) :
    Except Fault (List Request) :=
  if item.production.id = start.id then .ok [(Symbol.endMarker, .accept)]
  else do
    let lookahead ← follow.lookup item.production.head
    return ((columns grammar).filter fun token => decide (token ∈ lookahead)).map fun token =>
      (token, .reduce item.production)

/-- The requests of an item of a state. -/
def itemRequests (grammar : Grammar) (follow : SetMap) (start : Production) (state : State)
    (item : Item) : Except Fault (List Request) :=
  match item.symbol? with
  | none => completeRequests grammar follow start item
  | some symbol =>
      if grammar.isTerminal symbol then do
        let next ← state.transitions.lookup symbol
        return [(symbol, .shift next)]
      else .ok []

/-- The requests of all items of a state, in order. -/
def requests (grammar : Grammar) (follow : SetMap) (start : Production) (state : State) :
    Except Fault (List Request) := do
  let lists ← state.items.items.mapM (itemRequests grammar follow start state)
  return lists.flatten

/-! ### First come, first served -/

/-- Grants the requests of a state one after another. -/
def grant (state : Int) : List Request → SymbolMap Entry → List Conflict →
    SymbolMap Entry × List Conflict
  | [], row, conflicts => (row, conflicts)
  | (token, entry) :: rest, row, conflicts =>
      match row.get? token with
      | none => grant state rest (row.insert token entry) conflicts
      | some existing =>
          if existing = entry then grant state rest row conflicts
          else
            let kind := ConflictKind.between existing entry
            grant state rest row (conflicts ++ [⟨state, token, kind, existing, entry⟩])

/-- The states that a state leads to by non-terminals. -/
def gotoRow (grammar : Grammar) (state : State) : SymbolMap Int :=
  SymbolMap.ofList (grammar.nonTerminals.filterMap fun symbol =>
    (state.transitions.get? symbol).map fun target => (symbol, (target : Int)))

/-- The row of a state and its conflicts. -/
def buildRow (grammar : Grammar) (follow : SetMap) (start : Production) (state : State) :
    Except Fault (Row × List Conflict) := do
  let asked ← requests grammar follow start state
  let (action, conflicts) := grant state.id asked ∅ []
  return (⟨action, gotoRow grammar state⟩, conflicts)

/-- The table of an augmented grammar. -/
def build (grammar : Grammar) (states : List State) (follow : SetMap) : Except Fault Table :=
  if grammar.augmented then do
    let start ← grammar.startProduction
    let rows ← states.mapM (buildRow grammar follow start)
    ofRows grammar (rows.map Prod.fst) (rows.flatMap Prod.snd)
  else .error (.grammar (.plainGrammar .table))

end Table

/-- The table of an augmented grammar, from its own states and FOLLOW sets. -/
def Grammar.table (grammar : Grammar) : Except Fault Table := do
  let sets ← grammar.lookaheadSets
  let states ← grammar.automaton
  Table.build grammar states sets.follow

end ShiftReduce
