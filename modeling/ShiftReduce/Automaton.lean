/-
This file builds the automaton of item sets that an augmented grammar starts: its states
are the item sets found from the start item by moving the dot over one symbol after
another. Closing a list of items adds, for every non-terminal behind a dot, the start items of
its productions, and again for the added items, which are visited in the order in which they
were found; every production adds its start item at most once, so the given items and the
productions bound the visits. Sets are explored in the order in which they are found, each over
the whole alphabet, and a set that is found again, in whatever order its items come, is the
state it was before. A grammar has finitely many items, so the number of sets of items bounds
the exploration.
-/

import ShiftReduce.Grammar.Basic
import ShiftReduce.Item.Set
import ShiftReduce.Symbol.Map

namespace ShiftReduce

namespace Grammar

/-! ### Closing -/

/-- The start items that an item calls for. -/
def predicted (grammar : Grammar) (item : Item) : List Item :=
  match item.symbol? with
  | none => []
  | some symbol => (grammar.productionsFor symbol).map Item.start

/-- Visits the waiting items first-in first-out; the visited ones come before them. -/
def visit (grammar : Grammar) : Nat → List Item → List Item → List Item
  | 0, visited, waiting => visited ++ waiting
  | _ + 1, visited, [] => visited
  | rounds + 1, visited, item :: waiting =>
      let known := (visited ++ item :: waiting).map Item.key
      let found := (grammar.predicted item).filter fun other => !known.contains other.key
      visit grammar rounds (visited ++ [item]) (waiting ++ found)

/-- The closure of a list of items. -/
def closure (grammar : Grammar) (items : List Item) : ItemSet :=
  let given := Item.distinct items
  ItemSet.ofList (visit grammar (given.length + grammar.size) [] given)

/-- The closure of the items of a set that expect a symbol, with their dots moved over it;
nothing if there are none. -/
def goto (grammar : Grammar) (set : ItemSet) (symbol : Symbol) : Option ItemSet :=
  match set.items.filterMap fun item => item.advanceOver? symbol with
  | [] => none
  | kernel => some (grammar.closure kernel)

end Grammar

/-- A state: its number, its items, and the numbers of the states it leads to. -/
structure State where
  id : Nat
  items : ItemSet
  transitions : SymbolMap Nat

namespace Grammar

/-! ### Exploring one set -/

/-- The number of a set among the known ones. -/
def stateNumber (known : List ItemSet) (set : ItemSet) : Option Nat :=
  known.findIdx? fun other => other.sameSet set

/-- The known sets and the transitions of a set, after it has been moved over some symbols;
new sets are numbered in the order in which they are found. -/
def link (grammar : Grammar) (set : ItemSet) :
    List Symbol → List ItemSet → SymbolMap Nat → List ItemSet × SymbolMap Nat
  | [], known, row => (known, row)
  | symbol :: rest, known, row =>
      match grammar.goto set symbol with
      | none => link grammar set rest known row
      | some target =>
          match stateNumber known target with
          | some number => link grammar set rest known (row.insert symbol number)
          | none =>
              link grammar set rest (known ++ [target]) (row.insert symbol known.length)

/-! ### Exploring all sets -/

/-- Explores the known sets that have no transitions yet, in order, until there are none. -/
def explore (grammar : Grammar) :
    Nat → List ItemSet → List (SymbolMap Nat) → List ItemSet × List (SymbolMap Nat)
  | 0, known, rows => (known, rows)
  | rounds + 1, known, rows =>
      match known[rows.length]? with
      | none => (known, rows)
      | some set =>
          let (found, row) := link grammar set grammar.symbols known ∅
          explore grammar rounds found (rows ++ [row])

/-- The number of items of a grammar. -/
def itemCount (grammar : Grammar) : Nat :=
  grammar.productions.foldr (fun production count => production.body.length + 1 + count) 0

/-- The states that are found from an item, numbered in the order of discovery. -/
def statesFrom (grammar : Grammar) (start : Item) : List State :=
  let (sets, rows) := explore grammar (Nat.pow 2 grammar.itemCount) [grammar.closure [start]] []
  (sets.zip rows).zipIdx.map fun ((set, row), number) => ⟨number, set, row⟩

/-- The automaton of an augmented grammar. -/
def automaton (grammar : Grammar) : Except GrammarFault (List State) :=
  if augmented : grammar.augmented = true then
    .ok (grammar.statesFrom (Item.start (grammar.startOf augmented)))
  else .error (.plainGrammar .automaton)

end Grammar

namespace State

/-- Two states agree when their numbers, their sets of items and their transitions do. -/
def agrees (first second : State) : Bool :=
  first.id == second.id && first.items.sameSet second.items &&
    first.transitions.agrees second.transitions

/-- A coarser likeness than agreement: the number and the set of items. -/
def alike (first second : State) : Bool :=
  first.id == second.id && first.items.sameSet second.items

/-- The number, the items and the transitions, on a line each. -/
def text (state : State) : String :=
  Text.joined "\n" (s!"State {state.id}:" ::
    state.items.items.map (fun item => s!"    {item.text}") ++
    state.transitions.entries.map fun (symbol, target) => s!"    {symbol} -> {target}")

theorem alike_of_agrees {first second : State} (agreed : first.agrees second = true) :
    first.alike second = true := by
  rw [agrees, Bool.and_eq_true] at agreed
  exact agreed.1

/-! ### Strings of symbols -/

/-- The number of the state that a symbol leads to from a state. -/
def next (states : List State) (number : Nat) (symbol : Symbol) : Option Nat :=
  states[number]?.bind fun state => state.transitions.get? symbol

/-- The number of the state that a string leads to from a state. -/
def walk (states : List State) (number : Nat) : List Symbol → Option Nat
  | [] => some number
  | symbol :: rest => (next states number symbol).bind fun target => walk states target rest

theorem walk_append (states : List State) (number : Nat) (first second : List Symbol) :
    walk states number (first ++ second) =
      (walk states number first).bind fun middle => walk states middle second := by
  induction first generalizing number with
  | nil => rfl
  | cons symbol rest inductionHypothesis =>
    rw [List.cons_append, walk, walk]
    cases next states number symbol with
    | none => rfl
    | some target => exact inductionHypothesis target

end State

end ShiftReduce
