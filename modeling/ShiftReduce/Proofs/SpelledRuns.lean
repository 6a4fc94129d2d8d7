/-
This file proves that runs go along with a change of spelling, and with them everything the
library does with a grammar. A step reads a cell, a row or a production and writes frames and nodes;
it compares a token with the end marker only, which keeps its name.
-/

import ShiftReduce.Proofs.SpelledAnalyses
import ShiftReduce.Proofs.TwinRuns

namespace ShiftReduce

/-! ### Stacks and nodes -/

section Stacks

variable (spelling : Spelling)

@[simp] theorem Frame.topState_respell (frames : List Frame) :
    topState (frames.map (Frame.respell spelling)) = topState frames := by
  cases frames <;> rfl

@[simp] theorem Frame.states_respell (frames : List Frame) :
    states (frames.map (Frame.respell spelling)) = states frames := by
  rw [states, states, ← List.map_reverse, List.map_map]
  rfl

@[simp] theorem Frame.nodes_respell (frames : List Frame) :
    nodes (frames.map (Frame.respell spelling)) = nodes frames := by
  rw [nodes, nodes, ← List.map_reverse, List.map_map]
  rfl

@[simp] theorem Arena.size_respell (arena : Arena) : (arena.respell spelling).size = arena.size :=
  Array.size_map

theorem Arena.empty_respell : (∅ : Arena).respell spelling = ∅ :=
  congrArg Arena.mk Array.map_empty

theorem Arena.add_respell (arena : Arena) (label : Symbol) (value : Option Symbol)
    (children : List Int) :
    (arena.add label value children).respell spelling =
      (arena.respell spelling).add (spelling label) (value.map spelling) children := by
  rw [add, add, respell, Array.map_push, size_respell]
  rfl

theorem Arena.internal_respell {arena next : Arena} {label : Symbol} {children : List Int}
    {value : Option Symbol} (added : arena.internal label children value = .ok next) :
    (arena.respell spelling).internal (spelling label) children (value.map spelling) =
      .ok (next.respell spelling) := by
  obtain ⟨earlier, rfl⟩ := internal_eq_ok_iff.mp added
  rw [internal_eq_ok_iff, size_respell, add_respell]
  exact ⟨earlier, rfl⟩

end Stacks

namespace Simulator

/-- The other simulator runs the same table with other symbols. -/
structure SpelledBy (spelling : Spelling) (simulator twin : Simulator) : Prop where
  rows : twin.table.rows = simulator.table.rows.map (Row.respell spelling)
  named : ∀ state token named production,
    simulator.table.action state token = .ok (.reduce named) →
    simulator.grammar.production named.id = .ok production →
    twin.grammar.production named.id = .ok (production.respell spelling)
  accepts : ∀ move, simulator.accept = .ok move → twin.accept = .ok (move.respell spelling)

section Steps

variable {spelling : Spelling} {simulator twin : Simulator} {configuration next : Configuration}
  {state : Int} {token symbol : Symbol} {rest : List Symbol} {entry : Entry} {move : Move}

/-! ### Reading the table -/

theorem SpelledBy.row (spelled : SpelledBy spelling simulator twin) {row : Row}
    (read : simulator.table.row state = .ok row) :
    twin.table.row state = .ok (row.respell spelling) := by
  rw [Table.row, valueOr_eq_ok_iff] at read ⊢
  simp [spelled.rows, read]

theorem SpelledBy.action (spelled : SpelledBy spelling simulator twin)
    (read : simulator.table.action state token = .ok entry) :
    twin.table.action state (spelling token) = .ok (entry.respell spelling) := by
  obtain ⟨row, found, same⟩ := bind_eq_ok_iff.mp read
  rw [Table.action, spelled.row found, ← Except.ok.inj same]
  show Except.ok (((row.action.respell spelling _).get? (spelling token)).getD Entry.error) = _
  rw [SymbolMap.get?_respell]
  cases row.action.get? token <;> rfl

theorem SpelledBy.goto (spelled : SpelledBy spelling simulator twin) {found : Option Int}
    (read : simulator.table.goto state symbol = .ok found) :
    twin.table.goto state (spelling symbol) = .ok found := by
  obtain ⟨row, rowFound, same⟩ := bind_eq_ok_iff.mp read
  rw [Table.goto, spelled.row rowFound, ← Except.ok.inj same]
  show Except.ok ((row.goto.respell spelling _).get? (spelling symbol)) = _
  rw [SymbolMap.get?_respell]
  cases row.goto.get? symbol <;> rfl

/-! ### One step -/

@[simp] theorem isMisplaced_respell :
    isMisplaced (spelling token) (rest.map spelling) = isMisplaced token rest := by
  have ending : (spelling token == Symbol.endMarker) = (token == Symbol.endMarker) := by
    conv => lhs; rw [← spelling.fixes _ Symbol.endMarker_reserved]
    exact spelling.injective.beq_eq
  rw [isMisplaced, isMisplaced, ending, List.isEmpty_map]

theorem SpelledBy.entryFor (spelled : SpelledBy spelling simulator twin)
    (found : simulator.entryFor configuration token rest = .ok entry) :
    twin.entryFor (configuration.respell spelling) (spelling token) (rest.map spelling) =
      .ok (entry.respell spelling) := by
  unfold Simulator.entryFor at found ⊢
  rw [isMisplaced_respell]
  split at found
  · rename_i misplaced
    rw [if_pos misplaced, ← Except.ok.inj found]
    rfl
  · rename_i proper
    have top : Frame.topState (configuration.respell spelling).frames =
        Frame.topState configuration.frames := Frame.topState_respell _ _
    rw [if_neg proper, top]
    exact spelled.action found

theorem shift_respell (target : Int) :
    shift (configuration.respell spelling) (spelling token) (rest.map spelling) target =
      ((shift configuration token rest target).1.respell spelling,
        (shift configuration token rest target).2.respell spelling) := by
  simp only [shift, Configuration.respell, Move.respell, Arena.leaf, Arena.add_respell,
    Arena.size_respell, List.map_cons, Frame.respell, Option.map_some]

/-- The value of a node of an empty body keeps its spelling. -/
theorem branchValue_respell (count : Nat) :
    (if count = 0 then some Symbol.epsilon else none).map spelling =
      if count = 0 then some Symbol.epsilon else none := by
  split
  · rw [Option.map_some, spelling.fixes _ Symbol.epsilon_reserved]
  · rfl

/-- Reductions go along, also when the stack is too short and the state that is exposed is counted
from its top. -/
theorem SpelledBy.reduce (spelled : SpelledBy spelling simulator twin) {production : Production}
    (reduced : simulator.reduce configuration production = .ok (move, next)) :
    twin.reduce (configuration.respell spelling) (production.respell spelling) =
      .ok (move.respell spelling, next.respell spelling) := by
  have counted : (production.respell spelling).body.length = production.body.length :=
    List.length_map _
  have height : (configuration.respell spelling).frames.length = configuration.frames.length :=
    List.length_map _
  have below (count : Nat) : (configuration.respell spelling).frames.drop count =
      (configuration.frames.drop count).map (Frame.respell spelling) := List.map_drop.symm
  have above (count : Nat) : (configuration.respell spelling).frames.take count =
      (configuration.frames.take count).map (Frame.respell spelling) := List.map_take.symm
  have stack : Frame.states (configuration.respell spelling).frames =
      Frame.states configuration.frames := Frame.states_respell _ _
  simp only [Simulator.reduce] at reduced
  simp only [Simulator.reduce, counted, height, below, above, stack, Frame.topState_respell,
    Frame.nodes_respell]
  by_cases enough : production.body.length ≤ configuration.frames.length
  · rw [if_pos enough] at reduced ⊢
    obtain ⟨found, leads, more⟩ := bind_eq_ok_iff.mp reduced
    refine bind_eq_ok_iff.mpr ⟨found, spelled.goto leads, ?_⟩
    cases found with
    | none =>
      obtain ⟨rfl, rfl⟩ := Prod.mk.inj (Except.ok.inj more)
      rfl
    | some target =>
      obtain ⟨arena, added, same⟩ := bind_eq_ok_iff.mp more
      obtain ⟨rfl, rfl⟩ := Prod.mk.inj (Except.ok.inj same)
      have built := Arena.internal_respell spelling added
      rw [branchValue_respell] at built
      refine bind_eq_ok_iff.mpr ⟨_, built, ?_⟩
      simp only [Configuration.respell, Arena.size_respell, List.map_cons]
      rfl
  · rw [if_neg enough] at reduced ⊢
    obtain ⟨exposed, picked, more⟩ := bind_eq_ok_iff.mp reduced
    obtain ⟨found, leads, last⟩ := bind_eq_ok_iff.mp more
    refine bind_eq_ok_iff.mpr ⟨exposed, picked, bind_eq_ok_iff.mpr ⟨found, spelled.goto leads, ?_⟩⟩
    cases found with
    | none =>
      obtain ⟨rfl, rfl⟩ := Prod.mk.inj (Except.ok.inj last)
      rfl
    | some target => cases last

theorem SpelledBy.reject (spelled : SpelledBy spelling simulator twin)
    (rejected : simulator.reject configuration token rest = .ok move) :
    twin.reject (configuration.respell spelling) (spelling token) (rest.map spelling) =
      .ok (move.respell spelling) := by
  have top : Frame.topState (configuration.respell spelling).frames =
      Frame.topState configuration.frames := Frame.topState_respell _ _
  simp only [Simulator.reject] at rejected
  simp only [Simulator.reject, isMisplaced_respell, top]
  split at rejected
  · rename_i misplaced
    rw [if_pos misplaced, ← Except.ok.inj rejected]
    rfl
  · rename_i proper
    obtain ⟨row, read, same⟩ := bind_eq_ok_iff.mp rejected
    rw [if_neg proper, ← Except.ok.inj same]
    refine bind_eq_ok_iff.mpr ⟨_, spelled.row read, ?_⟩
    show Except.ok (Move.reject (.noAction _ _ (row.action.respell spelling _).keys)) = _
    rw [SymbolMap.keys_respell]
    rfl

/-- What is done about an entry goes along. A misplaced end marker has no reduction, so a reduction
stands in a cell of the table. -/
theorem SpelledBy.perform (spelled : SpelledBy spelling simulator twin)
    (found : simulator.entryFor configuration token rest = .ok entry)
    (performed : simulator.perform configuration token rest entry = .ok (move, next)) :
    twin.perform (configuration.respell spelling) (spelling token) (rest.map spelling)
        (entry.respell spelling) =
      .ok (move.respell spelling, next.respell spelling) := by
  cases entry with
  | shift target =>
    have moved := congrArg (fun outcome : Move × Configuration =>
      (outcome.1.respell spelling, outcome.2.respell spelling)) (Except.ok.inj performed)
    exact congrArg Except.ok ((shift_respell target).trans moved)
  | reduce named =>
    obtain ⟨production, known, reduced⟩ := bind_eq_ok_iff.mp performed
    have proper : isMisplaced token rest = false := by
      rw [← Bool.not_eq_true]
      intro misplaced
      rw [Simulator.entryFor, if_pos misplaced] at found
      cases found
    rw [entryFor_of_proper proper] at found
    have twinKnown : twin.grammar.production (named.respell spelling).id = _ :=
      spelled.named _ _ named _ found known
    exact perform_reduce _ _ twinKnown (spelled.reduce reduced)
  | accept =>
    obtain ⟨actual, accepted, same⟩ := bind_eq_ok_iff.mp performed
    obtain ⟨rfl, rfl⟩ := Prod.mk.inj (Except.ok.inj same)
    exact bind_eq_ok_iff.mpr ⟨_, spelled.accepts _ accepted, rfl⟩
  | error =>
    obtain ⟨actual, rejected, same⟩ := bind_eq_ok_iff.mp performed
    obtain ⟨rfl, rfl⟩ := Prod.mk.inj (Except.ok.inj same)
    exact bind_eq_ok_iff.mpr ⟨_, spelled.reject rejected, rfl⟩

/-- A step of one simulator is a step of the other one with other symbols. -/
theorem SpelledBy.step (spelled : SpelledBy spelling simulator twin) {step : Step}
    (taken : simulator.step configuration = .ok (step, next)) :
    twin.step (configuration.respell spelling) =
      .ok (step.respell spelling, next.respell spelling) := by
  unfold Simulator.step at taken
  split at taken
  · cases taken
  · rename_i token rest more
    obtain ⟨entry, found, performed⟩ := bind_eq_ok_iff.mp taken
    obtain ⟨⟨move, after⟩, done, recorded⟩ := bind_eq_ok_iff.mp performed
    obtain ⟨rfl, rfl⟩ := Prod.mk.inj (Except.ok.inj recorded)
    have left : (configuration.respell spelling).remaining =
        spelling token :: rest.map spelling := by
      rw [Configuration.respell, more, List.map_cons]
    exact step_of_perform left (spelled.entryFor found) (spelled.perform found done)

/-! ### Runs -/

@[simp] theorem isFinal_respell (move : Move) : (move.respell spelling).isFinal = move.isFinal := by
  cases move <;> rfl

theorem initial_respell (tokens : List Symbol) :
    initial (tokens.map spelling) = (initial tokens).respell spelling := by
  rw [initial, initial, Configuration.respell, List.map_append, List.map_singleton,
    spelling.fixes _ Symbol.endMarker_reserved, Arena.empty_respell]
  rfl

theorem SpelledBy.runFrom (spelled : SpelledBy spelling simulator twin) {limit : Nat}
    {outcome : Option Trace} (ran : simulator.runFrom limit configuration = .ok outcome) :
    twin.runFrom limit (configuration.respell spelling) =
      .ok (outcome.map (Trace.respell spelling)) := by
  induction limit generalizing configuration outcome with
  | zero =>
    rw [← Except.ok.inj ran]
    rfl
  | succ limit inductionHypothesis =>
    obtain ⟨⟨step, after⟩, taken, more⟩ := bind_eq_ok_iff.mp ran
    refine bind_eq_ok_iff.mpr ⟨_, spelled.step taken, ?_⟩
    have finals : (step.respell spelling).move.isFinal = step.move.isFinal := isFinal_respell _
    simp only [finals]
    change (if step.move.isFinal = true then _ else _) = _ at more
    split at more
    · rename_i ended
      rw [if_pos ended, ← Except.ok.inj more]
      rfl
    · rename_i goes
      obtain ⟨later, ranLater, same⟩ := bind_eq_ok_iff.mp more
      rw [if_neg goes, ← Except.ok.inj same]
      refine bind_eq_ok_iff.mpr ⟨_, inductionHypothesis ranLater, ?_⟩
      cases later <;> rfl

theorem SpelledBy.reaches (spelled : SpelledBy spelling simulator twin)
    {first last : Configuration} {steps : List Step}
    (reached : simulator.Reaches first steps last) :
    twin.Reaches (first.respell spelling) (steps.map (Step.respell spelling))
      (last.respell spelling) := by
  induction reached with
  | refl => exact .refl _
  | head taken goes _ inductionHypothesis =>
    exact .head (spelled.step taken) ((isFinal_respell _).trans goes) inductionHypothesis

/-- The other simulator comes to nothing else, because a run never fails: the step that the first
one takes is, with other symbols, the one that was taken. -/
theorem SpelledBy.reaches_iff {grammar : Grammar} {start : Symbol} {states : List State}
    {follow : SetMap} {forest : List DerivationTree} {first twinLast : Configuration}
    {twins : List Step} (spelled : SpelledBy spelling simulator twin)
    (runs : simulator.Runs grammar start states follow)
    (carries : Carries grammar states first forest) :
    twin.Reaches (first.respell spelling) twins twinLast ↔
      ∃ steps last, simulator.Reaches first steps last ∧
        steps.map (Step.respell spelling) = twins ∧ last.respell spelling = twinLast := by
  constructor
  · intro reached
    generalize opened : first.respell spelling = twinFirst at reached
    induction reached generalizing first forest with
    | refl => exact ⟨[], first, .refl _, rfl, opened⟩
    | head taken goes _ inductionHypothesis =>
      subst opened
      obtain ⟨step, next, own, effect⟩ := carries.step_exists runs
      obtain ⟨rfl, rfl⟩ := Prod.mk.inj (Except.ok.inj ((spelled.step own).symm.trans taken))
      have ownGoes : step.move.isFinal = false := (isFinal_respell _).symm.trans goes
      obtain ⟨steps, last, reached, rfl, rfl⟩ :=
        inductionHypothesis (effect.builds ownGoes).carries rfl
      exact ⟨step :: steps, last, .head own ownGoes reached, rfl, rfl⟩
  · rintro ⟨steps, last, reached, rfl, rfl⟩
    exact spelled.reaches reached

end Steps

end Simulator

/-! ### The rows of built tables -/

namespace Table

section Rows

variable {spelling other : Spelling} {grammar augmented : Grammar} {start : Symbol}
  {follow : SetMap} {startItem : Item} {states : List State} {state : State}

theorem Candidate.exists_moved (augments : grammar.Augments augmented start)
    (owned : augmented.Owns state.items.items) {token : Symbol} {named : Production}
    (candidate : Candidate augmented follow (grammar.root start) state token (.reduce named)) :
    ∃ production ∈ grammar.productions, Grammar.moved production = named := by
  cases candidate with
  | @reduce item _ member complete apart =>
    exact (augments.mem_productions.mp (owned item member)).resolve_left fun root =>
      apart (congrArg Production.id root)

/-- What a state calls for is made of symbols of the grammar and the end marker. -/
theorem Candidate.respell_eq (agree : grammar.Agree spelling other)
    (augments : grammar.Augments augmented start) (owned : augmented.Owns state.items.items)
    {token : Symbol} {entry : Entry}
    (candidate : Candidate augmented follow (grammar.root start) state token entry) :
    spelling token = other token ∧ entry.respell spelling = entry.respell other := by
  constructor
  · rcases Table.mem_columns.mp candidate.mem_columns with terminal | rfl
    · exact agree token (Grammar.mem_symbols_iff.mpr
        (.inl ((augments.isTerminal_iff_isTerminal token).mp terminal)))
    · rw [spelling.fixes _ Symbol.endMarker_reserved, other.fixes _ Symbol.endMarker_reserved]
  · cases entry with
    | reduce named =>
      obtain ⟨production, member, rfl⟩ := candidate.exists_moved augments owned
      exact congrArg (fun production => Entry.reduce (Grammar.moved production))
        (agree.production member)
    | _ => rfl

theorem RowFor.respell_eq {row : Row} {conflicts : List Conflict}
    (holds : RowFor augmented follow (grammar.root start) state row conflicts)
    (agree : grammar.Agree spelling other) (augments : grammar.Augments augmented start)
    (canonical : augmented.Canonical startItem states) (member : state ∈ states) :
    row.respell spelling = row.respell other := by
  have owned := canonical.owned state member
  have action : row.action.respell spelling (Entry.respell spelling) =
      row.action.respell other (Entry.respell other) :=
    SymbolMap.respell_congr fun token entry found =>
      (holds.sound token entry found).respell_eq agree augments owned
  have goto : row.goto.respell spelling (fun target => target) =
      row.goto.respell other fun target => target := by
    refine SymbolMap.respell_congr fun symbol target found => ⟨?_, rfl⟩
    obtain ⟨nonTerminal, number, leads, _⟩ := (holds.goto symbol target).mp found
    obtain ⟨set, reached, _⟩ := canonical.leads state member symbol number leads
    obtain ⟨item, inside, behind⟩ := Grammar.goto_isSome_iff.mp ⟨set, reached⟩
    refine agree symbol (Grammar.mem_symbols_iff.mpr (.inr ?_))
    refine ((augments.isNonTerminal_iff_or symbol).mp nonTerminal).resolve_left ?_
    rintro rfl
    exact augments.not_mem_body (owned item inside) (List.mem_of_getElem? behind)
  rw [Row.respell, action, goto]
  rfl

end Rows

end Table

namespace Simulator

open Grammar Table

section Tables

variable {simulator twin : Simulator} {grammar : Grammar} {start : Symbol} {states : List State}
  {follow : SetMap} {spelling own : Spelling}

theorem Runs.rowFor_of_mem (runs : simulator.Runs grammar start states follow) {row : Row}
    (member : row ∈ simulator.table.rows) :
    ∃ state ∈ states, RowFor simulator.grammar follow (grammar.root start) state row
      simulator.table.conflicts := by
  obtain ⟨number, found⟩ := List.getElem?_of_mem member
  obtain ⟨state, stateFound, holds⟩ := runs.fills.exists_state found
  exact ⟨state, List.mem_of_getElem? stateFound, holds⟩

theorem Runs.exists_moved (runs : simulator.Runs grammar start states follow) {state : Int}
    {token : Symbol} {named : Production}
    (read : simulator.table.action state token = .ok (.reduce named)) :
    ∃ production ∈ grammar.productions, moved production = named := by
  obtain ⟨number, row, _, found, held⟩ := Table.exists_cell read Entry.noConfusion
  obtain ⟨owner, member, holds⟩ := runs.rowFor_of_mem (List.mem_of_getElem? found)
  exact (holds.sound token _ held).exists_moved runs.augments (runs.canonical.owned owner member)

/-- The simulator of the same analysis with other symbols. Rows never hold the fresh start symbol,
so that any two spellings that agree on the grammar change them in the same way. -/
theorem Runs.spelledBy (runs : simulator.Runs grammar start states follow)
    (agree : grammar.Agree own spelling)
    (sameGrammar : twin.grammar = simulator.grammar.respell own)
    (sameTable : twin.table = simulator.table.respell own) :
    SpelledBy spelling simulator twin where
  rows := by
    rw [sameTable]
    refine List.map_congr_left fun row member => ?_
    obtain ⟨state, stateMember, holds⟩ := runs.rowFor_of_mem member
    exact holds.respell_eq agree runs.augments runs.canonical stateMember
  named state token named production read known := by
    obtain ⟨old, member, rfl⟩ := runs.exists_moved read
    have owned := runs.augments.moved_mem member
    rw [production_of_mem owned] at known
    have twinOwned : (moved old).respell own ∈ twin.grammar.productions := by
      rw [sameGrammar]
      exact List.mem_map_of_mem owned
    have image : (moved old).respell own = (moved old).respell spelling :=
      congrArg moved (agree.production member)
    rw [← Except.ok.inj known, ← image]
    exact production_of_mem twinOwned
  accepts move accepted := by
    have begins : simulator.grammar.startProduction = .ok (grammar.root start) := by
      rw [startProduction, dif_pos runs.augments.flagged, runs.augments.startOf_eq]
    have twinBegins : twin.grammar.startProduction = .ok ((grammar.root start).respell own) := by
      rw [sameGrammar]
      exact startProduction_respell begins
    have here : simulator.accept = .ok (.accept start) := by
      rw [Simulator.accept, begins]
      rfl
    have there : twin.accept = .ok (.accept (own start)) := by
      rw [Simulator.accept, twinBegins]
      rfl
    have inside : start ∈ grammar.symbols :=
      mem_symbols_iff.mpr (.inr (startSymbol_isNonTerminal runs.augments.started))
    rw [← Except.ok.inj (here.symm.trans accepted), there, agree start inside]
    rfl

end Tables

end Simulator

/-! ### The spelling of symbols -/

namespace Analysis

open Grammar Simulator

/-- Without conflicts the runs on other tokens are the runs with other symbols. -/
theorem Exact.runs_respell {analysis : Analysis} {start : Symbol} {spelling own : Spelling}
    (exact : analysis.Exact start) (quiet : analysis.table.conflicts = [])
    (agree : analysis.grammar.Agree own spelling) :
    ∃ simulator twin, analysis.simulator = .ok simulator ∧
      (analysis.respell own).simulator = .ok twin ∧ ∀ tokens,
        (∀ limit, ∃ outcome, analysis.run limit (.tokens tokens) = .ok outcome ∧
          (analysis.respell own).run limit (.tokens (tokens.map spelling)) =
            .ok (outcome.map (Trace.respell spelling))) ∧
        ∀ twins twinLast, twin.Reaches (initial (tokens.map spelling)) twins twinLast ↔
          ∃ steps last, simulator.Reaches (initial tokens) steps last ∧
            steps.map (Step.respell spelling) = twins ∧ last.respell spelling = twinLast := by
  have twinQuiet : (analysis.table.respell own).conflicts = [] := List.map_eq_nil_iff.mpr quiet
  have twinFlagged : (analysis.augmented.respell own).augmented = true := exact.augments.flagged
  let twin : Simulator := ⟨_, analysis.table.respell own, twinFlagged, twinQuiet⟩
  obtain ⟨simulator, made, sameGrammar, runs⟩ := exact.simulator_exists quiet
  have twinMade : (analysis.respell own).simulator = .ok twin :=
    ofTable_exists twinFlagged twinQuiet
  have sameTable : simulator.table = analysis.table := by
    rw [← Except.ok.inj ((ofTable_exists exact.augments.flagged quiet).symm.trans made)]
  have spelled : SpelledBy spelling simulator twin :=
    runs.spelledBy agree (by rw [sameGrammar]) (by rw [sameTable])
  refine ⟨simulator, twin, made, twinMade, fun tokens =>
    ⟨fun limit => ?_, fun twins twinLast => ?_⟩⟩
  · have carries := initial_carries analysis.grammar analysis.states tokens
    obtain ⟨outcome, ran⟩ := carries.runFrom_exists runs limit
    refine ⟨outcome, (run_of_simulator made limit _).trans ran, ?_⟩
    rw [run_of_simulator twinMade]
    show twin.runFrom limit (initial (tokens.map spelling)) = _
    rw [initial_respell]
    exact spelled.runFrom ran
  · rw [initial_respell]
    exact spelled.reaches_iff runs (initial_carries analysis.grammar analysis.states tokens)

/-- How symbols are spelled does not matter: the analysis of a grammar with other symbols is the
analysis with other symbols, where the fresh start symbol becomes the fresh start symbol, and a run
on other tokens is the run with other symbols, step by step and to the end, if it ends. -/
theorem spelling_irrelevant {grammar : Grammar} (plain : grammar.augmented = false)
    (nonempty : grammar.productions ≠ []) (spelling : Spelling) :
    ofProductions (grammar.productions.map (Production.respell spelling)) false =
      .ok (grammar.respell spelling) ∧
    ∃ analysis twin start own, grammar.startSymbol = some start ∧
      ofGrammar grammar = .ok analysis ∧ ofGrammar (grammar.respell spelling) = .ok twin ∧
      (∀ symbol ∈ grammar.symbols, own symbol = spelling symbol) ∧
      own (grammar.freshStart start) =
        (grammar.respell spelling).freshStart (spelling start) ∧
      twin = analysis.respell own ∧
      (analysis.table.conflicts = [] → ∃ simulator other, analysis.simulator = .ok simulator ∧
        twin.simulator = .ok other ∧ ∀ tokens,
          (∀ limit, ∃ outcome, analysis.run limit (.tokens tokens) = .ok outcome ∧
            twin.run limit (.tokens (tokens.map spelling)) =
              .ok (outcome.map (Trace.respell spelling))) ∧
          ∀ twins twinLast, other.Reaches (initial (tokens.map spelling)) twins twinLast ↔
            ∃ steps last, simulator.Reaches (initial tokens) steps last ∧
              steps.map (Step.respell spelling) = twins ∧ last.respell spelling = twinLast) := by
  obtain ⟨analysis, start, analysed, rfl, exact⟩ := exists_exact plain nonempty
  obtain ⟨again, completes⟩ := completes_exists plain nonempty
  have same : again = analysis := Except.ok.inj (completes.analysed.symm.trans analysed)
  subst same
  have made := ofProductions_respell again.grammar spelling
  rw [plain] at made
  refine ⟨made, again, _, start, again.grammar.ownSpelling spelling start,
    exact.augments.started, analysed,
    completes.ofGrammar_respell plain nonempty exact.augments spelling, ownSpelling_agrees,
    ownSpelling_freshStart, rfl, fun quiet => exact.runs_respell quiet ownSpelling_agrees⟩

end Analysis

namespace Grammar

/-- A grammar that uses its start symbol with an apostrophe, so that the fresh one has two. -/
def dashed : Grammar :=
  ⟨[⟨0, "S", ["S'"]⟩, ⟨1, "S", ["a"]⟩, ⟨2, "S'", ["b"]⟩], false,
    (faultOf_eq_none_iff _ _).mp (by decide)⟩

/-- The spelling that takes the apostrophe away. -/
def undashed : Spelling :=
  .exchange "S'" "T" (by decide) (by decide)

end Grammar

namespace Analysis

open Grammar

/-- The fresh symbol of one grammar is a symbol of the other. -/
theorem spelling_irrelevant_dashed :
    ∃ analysis twin own trace, ofGrammar dashed = .ok analysis ∧
      ofGrammar (dashed.respell undashed) = .ok twin ∧ own "S''" = "S'" ∧ own "S'" = "T" ∧
      twin = analysis.respell own ∧ analysis.run 4 (.tokens ["b"]) = .ok (some trace) ∧
      twin.run 4 (.tokens (["b"].map undashed)) = .ok (some (trace.respell undashed)) ∧
      trace.steps.map Step.symbols =
        [[none], [none, some "b"], [none, some "S'"], [none, some "S"]] := by
  obtain ⟨_, analysis, twin, start, own, started, analysed, twinAnalysed, agree, fresh, same,
    runs⟩ := spelling_irrelevant (show dashed.augmented = false from rfl) (List.cons_ne_nil _ _)
      undashed
  have evaluated : (ofGrammar dashed).toOption.map (fun analysis => (analysis.table.conflicts,
      (analysis.run 4 (.tokens ["b"])).toOption.join.map fun trace =>
        trace.steps.map Step.symbols)) =
      some ([], some [[none], [none, some "b"], [none, some "S'"], [none, some "S"]]) := by
    decide +kernel
  rw [analysed] at evaluated
  obtain ⟨quiet, read⟩ := Prod.mk.inj (Option.some_inj.mp evaluated)
  obtain ⟨trace, run, shown⟩ := Simulator.exists_trace read
  obtain ⟨_, _, _, _, general⟩ := runs quiet
  obtain ⟨outcome, found, twinFound⟩ := (general ["b"]).1 4
  rw [run, Except.ok.injEq] at found
  subst found
  rw [← Option.some_inj.mp (show some "S" = some start from started)] at fresh
  refine ⟨analysis, twin, own, trace, analysed, twinAnalysed, ?_, ?_, same, run, twinFound, shown⟩
  · rw [show "S''" = dashed.freshStart "S" by decide +kernel, fresh]
    decide +kernel
  · rw [agree "S'" (by decide +kernel)]
    decide +kernel

end Analysis

end ShiftReduce
