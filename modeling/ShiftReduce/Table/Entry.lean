/-
This file introduces the entries of the action table and the conflicts between them. Two entries are
equal when they are of one kind and carry the same state or the same production, ids and symbols
included; the likeness of entries looks at no more than the id of a production. A conflict records a
cell that was asked to hold a second entry: the entry it holds, the entry that was turned away, and
whether a shift was among the two.
-/

import ShiftReduce.Fault

namespace ShiftReduce

/-! ### Entries -/

/-- What a table says for a state and a token. -/
inductive Entry
  /-- Read the token and go to a state. -/
  | shift (next : Int)
  /-- Replace a body by its head. -/
  | reduce (production : Production)
  /-- The input is a sentence. -/
  | accept
  /-- The token cannot come here. -/
  | error
  deriving DecidableEq, Inhabited

namespace Entry

/-- The name of what an entry asks for. -/
def kind : Entry → String
  | shift _ => "shift"
  | reduce _ => "reduce"
  | accept => "accept"
  | error => "error"

/-- Reductions and acceptance end a body; the other entries do not. -/
def endsBody : Entry → Bool
  | reduce _ | accept => true
  | shift _ | error => false

/-- A coarser likeness than equality: productions count by their ids alone. -/
def alike : Entry → Entry → Bool
  | shift first, shift second => first == second
  | reduce first, reduce second => first.id == second.id
  | accept, accept | error, error => true
  | _, _ => false

/-- The entry in square brackets. -/
def text : Entry → String
  | shift next => s!"[shift {next}]"
  | reduce production => s!"[reduce {production.text}]"
  | accept => "[accept]"
  | error => "[error]"

@[simp] theorem alike_refl (entry : Entry) : entry.alike entry = true := by
  cases entry <;> simp [alike]

end Entry

/-! ### Conflicts -/

/-- The two kinds of conflicts. -/
inductive ConflictKind
  | shiftReduce
  | reduceReduce
  deriving DecidableEq, Inhabited

namespace ConflictKind

/-- The name of a kind. -/
def name : ConflictKind → String
  | shiftReduce => "shift-reduce"
  | reduceReduce => "reduce-reduce"

/-- The kind of a name. -/
def ofName (wanted : String) : Except Fault ConflictKind :=
  valueOr (.unknownConflictKind wanted)
    ([shiftReduce, reduceReduce].find? fun kind => kind.name == wanted)

/-- Two entries that both end a body conflict by reductions; any other pair involves a
shift. -/
def between (existing attempted : Entry) : ConflictKind :=
  if existing.endsBody && attempted.endsBody then reduceReduce else shiftReduce

@[simp] theorem ofName_name (kind : ConflictKind) : ofName kind.name = .ok kind := by
  cases kind <;> rfl

end ConflictKind

/-- A cell that was asked to hold a second entry. -/
structure Conflict where
  state : Int
  symbol : Symbol
  kind : ConflictKind
  existing : Entry
  attempted : Entry
  deriving DecidableEq, Inhabited

namespace Conflict

/-- A coarser likeness than equality: the cell and the kind. -/
def alike (first second : Conflict) : Bool :=
  first.state == second.state && first.symbol == second.symbol && first.kind == second.kind

/-- The cell, the kind and both entries. -/
def text (conflict : Conflict) : String :=
  let symbol := Text.quoted conflict.symbol
  let entries := s!"existing {conflict.existing.text}, attempted {conflict.attempted.text}"
  s!"Conflict(state {conflict.state}, {symbol}: {conflict.kind.name}, {entries})"

end Conflict

end ShiftReduce
