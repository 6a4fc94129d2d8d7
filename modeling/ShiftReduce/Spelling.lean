/-
This file spells symbols differently. A spelling gives every symbol another one, different ones to
different symbols, and leaves the reserved ones alone. It is carried over to everything that is
made of symbols: grammars, items, sets, tables and runs keep their shape, their numbers and their
order.
-/

import ShiftReduce.Analysis.Basic

namespace ShiftReduce

/-- An injective map of symbols that leaves the reserved ones alone. -/
structure Spelling where
  map : Symbol → Symbol
  injective : Function.Injective map
  fixes : ∀ symbol ∈ Symbol.reserved, map symbol = symbol

namespace Spelling

instance : CoeFun Spelling fun _ => Symbol → Symbol := ⟨map⟩

@[simp] theorem mem_reserved {spelling : Spelling} {symbol : Symbol} :
    spelling symbol ∈ Symbol.reserved ↔ symbol ∈ Symbol.reserved := by
  constructor
  · intro inside
    rw [← spelling.injective (spelling.fixes _ inside)]
    exact inside
  · intro inside
    rw [spelling.fixes symbol inside]
    exact inside

end Spelling

variable (spelling : Spelling)

/-! ### Grammars -/

/-- A production with other symbols. -/
def Production.respell (production : Production) : Production :=
  ⟨production.id, spelling production.head, production.body.map spelling⟩

/-- A grammar with other symbols. -/
def Grammar.respell (grammar : Grammar) : Grammar where
  productions := grammar.productions.map (Production.respell spelling)
  augmented := grammar.augmented
  wellFormed :=
    { dense := fun place production found => by
        rw [List.getElem?_map] at found
        obtain ⟨old, oldFound, rfl⟩ := Option.map_eq_some_iff.mp found
        exact grammar.wellFormed.dense place old oldFound
      heads := fun production member => by
        obtain ⟨old, oldMember, rfl⟩ := List.mem_map.mp member
        exact fun inside => grammar.wellFormed.heads old oldMember (Spelling.mem_reserved.mp inside)
      bodies := fun production member symbol inside => by
        obtain ⟨old, oldMember, rfl⟩ := List.mem_map.mp member
        obtain ⟨oldSymbol, oldInside, rfl⟩ := List.mem_map.mp inside
        exact fun reserved => grammar.wellFormed.bodies old oldMember oldSymbol oldInside
          (Spelling.mem_reserved.mp reserved)
      started := fun augmented empty =>
        grammar.wellFormed.started augmented (List.map_eq_nil_iff.mp empty) }

/-! ### Sets and maps -/

/-- The set of the other symbols. -/
def SymbolSet.respell (set : SymbolSet) : SymbolSet :=
  ofList (set.members.map spelling)

/-- A map with other symbols and changed values. -/
def SymbolMap.respell {Value Result : Type} (change : Value → Result) (map : SymbolMap Value) :
    SymbolMap Result where
  entries := map.entries.map fun pair => (spelling pair.1, change pair.2)
  distinct := by
    have same : (map.entries.map fun pair => (spelling pair.1, change pair.2)).map Prod.fst =
        (map.entries.map Prod.fst).map spelling := by
      rw [List.map_map, List.map_map]
      rfl
    rw [same]
    exact List.Pairwise.map spelling.map
      (fun _ _ other equal => other (spelling.injective equal)) map.distinct

/-- FIRST and FOLLOW sets with other symbols. -/
def LookaheadSets.respell (sets : LookaheadSets) : LookaheadSets :=
  ⟨sets.first.respell spelling (SymbolSet.respell spelling),
    sets.follow.respell spelling (SymbolSet.respell spelling)⟩

/-! ### Items and states -/

/-- An item with other symbols; its key is the same. -/
def Item.respell (item : Item) : Item where
  production := item.production.respell spelling
  dot := item.dot
  inside := by
    show item.dot ≤ (item.production.body.map spelling).length
    rw [List.length_map]
    exact item.inside

/-- A set of items with other symbols, known by the same key. -/
def ItemSet.respell (set : ItemSet) : ItemSet where
  items := set.items.map (Item.respell spelling)
  key := set.key
  distinct := by
    rw [List.map_map]
    exact set.distinct
  sorted := by
    rw [List.map_map]
    exact set.sorted

/-- A state with other symbols, with the same number and the same targets. -/
def State.respell (state : State) : State :=
  ⟨state.id, state.items.respell spelling,
    state.transitions.respell spelling fun target => target⟩

/-! ### Tables -/

/-- An entry with other symbols. -/
def Entry.respell : Entry → Entry
  | shift next => shift next
  | reduce production => reduce (production.respell spelling)
  | accept => accept
  | error => error

/-- A request of another entry for another symbol. -/
def Request.respell (request : Request) : Request :=
  (spelling request.1, request.2.respell spelling)

/-- A conflict in the cell of another symbol. -/
def Conflict.respell (conflict : Conflict) : Conflict :=
  ⟨conflict.state, spelling conflict.symbol, conflict.kind, conflict.existing.respell spelling,
    conflict.attempted.respell spelling⟩

/-- A row with other symbols. -/
def Row.respell (row : Row) : Row :=
  ⟨row.action.respell spelling (Entry.respell spelling),
    row.goto.respell spelling fun target => target⟩

/-- A table with other symbols. -/
def Table.respell (table : Table) : Table :=
  ⟨table.terminals.map spelling, table.nonTerminals.map spelling,
    table.rows.map (Row.respell spelling), table.conflicts.map (Conflict.respell spelling)⟩

/-- The results of all stages with other symbols. -/
def Analysis.respell (analysis : Analysis) : Analysis :=
  ⟨analysis.grammar.respell spelling, analysis.augmented.respell spelling,
    analysis.sets.respell spelling, analysis.states.map (State.respell spelling),
    analysis.table.respell spelling⟩

/-! ### Runs -/

/-- A node with another label and value. -/
def Node.respell (node : Node) : Node :=
  ⟨node.id, spelling node.label, node.value.map spelling, node.children⟩

/-- Nodes with other labels and values. -/
def Arena.respell (arena : Arena) : Arena :=
  ⟨arena.nodes.map (Node.respell spelling)⟩

/-- A frame of another symbol. -/
def Frame.respell (frame : Frame) : Frame :=
  ⟨frame.state, spelling frame.symbol, frame.node⟩

/-- A rejection at another symbol. -/
def Rejection.respell : Rejection → Rejection
  | misplacedEnd state position => misplacedEnd state position
  | noAction state token expected => noAction state (spelling token) (expected.map spelling)
  | noGoto state head => noGoto state (spelling head)

/-- A move with other symbols. -/
def Move.respell : Move → Move
  | shift token next => shift (spelling token) next
  | reduce production exposed target => reduce (production.respell spelling) exposed target
  | accept start => accept (spelling start)
  | reject cause => reject (cause.respell spelling)

/-- A step with other symbols. -/
def Step.respell (step : Step) : Step :=
  ⟨step.index, step.frames.map (Frame.respell spelling), spelling step.token,
    step.rest.map spelling, step.entry.respell spelling, step.move.respell spelling,
    step.left.map (Frame.respell spelling)⟩

/-- A trace with other symbols. -/
def Trace.respell (trace : Trace) : Trace :=
  ⟨trace.steps.map (Step.respell spelling), trace.arena.respell spelling,
    fun empty => trace.nonempty (List.map_eq_nil_iff.mp empty)⟩

/-- A configuration with other symbols. -/
def Configuration.respell (configuration : Configuration) : Configuration :=
  ⟨configuration.index, configuration.frames.map (Frame.respell spelling), configuration.position,
    configuration.remaining.map spelling, configuration.arena.respell spelling⟩

end ShiftReduce
