/-
This file introduces parsing tables. A table has a row per state; a row gives entries to
tokens and states to non-terminals, and a token without an entry is an error. The table
also keeps the conflicts met while it was filled, and the alphabet it was made for: the
terminals with the end marker, and the non-terminals without the fresh start symbol.
-/

import ShiftReduce.Grammar.Basic
import ShiftReduce.Symbol.Map
import ShiftReduce.Table.Entry

namespace ShiftReduce

/-- The row of a state. -/
structure Row where
  action : SymbolMap Entry
  goto : SymbolMap Int
  deriving DecidableEq, Inhabited

/-- A parsing table. -/
structure Table where
  terminals : List Symbol
  nonTerminals : List Symbol
  rows : List Row
  conflicts : List Conflict
  deriving DecidableEq

namespace Table

/-! ### Making a table -/

/-- The columns of tokens in the tables of a grammar. -/
def columns (grammar : Grammar) : List Symbol :=
  grammar.terminals ++ [Symbol.endMarker]

/-- The table of an augmented grammar with the given rows and conflicts. -/
def ofRows (grammar : Grammar) (rows : List Row) (conflicts : List Conflict) :
    Except Fault Table := do
  let start ← grammar.startProduction
  return ⟨columns grammar, grammar.nonTerminals.filter fun symbol => symbol != start.head, rows,
    conflicts⟩

/-- The table whose rows are given in two lists, which have to be equally long. -/
def ofParts (grammar : Grammar) (action : List (SymbolMap Entry)) (goto : List (SymbolMap Int))
    (conflicts : List Conflict) : Except Fault Table :=
  if action.length = goto.length then ofRows grammar (List.zipWith Row.mk action goto) conflicts
  else .error .unevenRows

/-! ### Reading a table -/

/-- The number of states. -/
def size (table : Table) : Nat :=
  table.rows.length

/-- Tables without conflicts can be run. -/
def isDeterministic (table : Table) : Bool :=
  table.conflicts.isEmpty

/-- The row of a state, which is a signed position. -/
def row (table : Table) (state : Int) : Except Fault Row :=
  valueOr .outOfRange (Position.pick? table.rows state)

/-- The entry of a state for a token. -/
def action (table : Table) (state : Int) (token : Symbol) : Except Fault Entry := do
  let row ← table.row state
  return (row.action.get? token).getD .error

/-- The state that a state leads to by a non-terminal. -/
def goto (table : Table) (state : Int) (symbol : Symbol) : Except Fault (Option Int) := do
  let row ← table.row state
  return row.goto.get? symbol

/-! ### Comparing tables -/

/-- Two rows agree when both of their maps do. -/
def rowsAgree (first second : Row) : Bool :=
  first.action.agrees second.action && first.goto.agrees second.goto

/-- Two tables agree when their alphabets, their rows and their conflicts do. -/
def agrees (first second : Table) : Bool :=
  first.terminals == second.terminals && first.nonTerminals == second.nonTerminals &&
    first.size == second.size &&
    (first.rows.zip second.rows).all (fun (one, other) => rowsAgree one other) &&
    first.conflicts == second.conflicts

/-- A coarser likeness than agreement: the alphabets and the number of states. -/
def alike (first second : Table) : Bool :=
  first.terminals == second.terminals && first.nonTerminals == second.nonTerminals &&
    first.size == second.size

theorem alike_of_agrees {first second : Table} (agreed : first.agrees second = true) :
    first.alike second = true := by
  simp only [agrees, Bool.and_eq_true] at agreed
  simp only [alike, Bool.and_eq_true]
  exact agreed.1.1

/-! ### Text -/

/-- The width of the column of symbols. -/
def symbolWidth : Nat := 15

/-- The mark of a cell with a conflict, or as many spaces. -/
def conflictMark (conflicts : List Conflict) (state : Nat) (symbol : Symbol) : String :=
  if conflicts.any fun conflict => conflict.state == state && conflict.symbol == symbol then "XXX"
  else "   "

/-- The lines of one row. -/
def rowText (conflicts : List Conflict) (state : Nat) (row : Row) : List String :=
  let aligned := Text.alignRight symbolWidth
  [s!"  State {state}:", "    Action:"] ++
    row.action.entries.map (fun (symbol, entry) =>
      s!"{conflictMark conflicts state symbol} {aligned symbol} : {entry.text}") ++
    ["    Goto:"] ++
    row.goto.entries.map fun (symbol, target) => s!"    {aligned symbol} : {target}"

/-- Every row with its number; cells with a conflict are marked. -/
def text (table : Table) : String :=
  Text.joined "\n" (table.rows.zipIdx.flatMap fun (row, state) =>
    rowText table.conflicts state row)

end Table

end ShiftReduce
