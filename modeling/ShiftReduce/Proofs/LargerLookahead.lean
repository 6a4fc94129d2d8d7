/-
This file compares the tables of one automaton for smaller and for larger lookahead sets. Larger
sets call for more reductions and for nothing else, so a table without conflicts for the larger
sets has none for the smaller, and it keeps all entries of the smaller table. A parser with more
entries takes every step of the other but its rejections, and so accepts what the other accepts,
by the same steps. That it accepts nothing more holds when the smaller sets are large enough: an
accepted input has a tree, and the FOLLOW sets of the grammar already suffice to read it.
-/

import ShiftReduce.Proofs.Completeness
import ShiftReduce.Proofs.Conflicts
import ShiftReduce.Proofs.FollowExact

namespace ShiftReduce

namespace Grammar

/-! ### Larger sets -/

/-- The non-terminals of a grammar have all the members in one map that they have in another. -/
def Enlarges (grammar : Grammar) (small large : SetMap) : Prop :=
  ∀ symbol, grammar.isNonTerminal symbol = true → ∀ set larger, small.get? symbol = some set →
    large.get? symbol = some larger → ∀ member ∈ set, member ∈ larger

/-- The map that lets every non-terminal be followed by every terminal and by the end. -/
def everyToken (grammar : Grammar) : SetMap :=
  SymbolMap.ofList (grammar.nonTerminals.map fun symbol =>
    (symbol, SymbolSet.ofList (Table.columns grammar)))

section Maps

variable {grammar : Grammar}

theorem Enlarges.refl (grammar : Grammar) (sets : SetMap) : grammar.Enlarges sets sets := by
  intro symbol _ set larger found largerFound member inside
  rw [found, Option.some_inj] at largerFound
  exact largerFound ▸ inside

theorem get?_everyToken {symbol : Symbol} {set : SymbolSet} :
    grammar.everyToken.get? symbol = some set ↔
      grammar.isNonTerminal symbol = true ∧ set = SymbolSet.ofList (Table.columns grammar) := by
  have different : ((grammar.nonTerminals.map fun symbol =>
      (symbol, SymbolSet.ofList (Table.columns grammar))).map Prod.fst).Nodup := by
    rw [List.map_map]
    exact (List.map_id grammar.nonTerminals).symm ▸ nodup_eraseDups _
  rw [everyToken, SymbolMap.get?_ofList_eq_some_iff different, List.mem_map, isNonTerminal_iff]
  constructor
  · rintro ⟨_, listed, same⟩
    obtain ⟨rfl, rfl⟩ := Prod.mk.inj same
    exact ⟨listed, rfl⟩
  · rintro ⟨listed, rfl⟩
    exact ⟨symbol, listed, rfl⟩

theorem everyToken_covers (grammar : Grammar) : grammar.CoversHeads grammar.everyToken :=
  fun _ nonTerminal => ⟨_, get?_everyToken.mpr ⟨nonTerminal, rfl⟩⟩

/-- FOLLOW sets hold nothing but terminals and the end marker. -/
theorem ExactSets.enlarges {sets : LookaheadSets} (exact : grammar.ExactSets sets) :
    grammar.Enlarges sets.follow grammar.everyToken := by
  intro symbol _ set larger found largerFound member inside
  obtain ⟨_, rfl⟩ := get?_everyToken.mp largerFound
  refine SymbolSet.mem_ofList.mpr (Table.mem_columns.mpr ?_)
  exact (isFollow_of_trails (exact.follow symbol set found)).only member inside

end Maps

end Grammar

/-! ### Tables with more entries -/

namespace Table

open Grammar

/-- One table has all entries of another and leads to the same states by non-terminals. -/
structure Extends (table larger : Table) : Prop where
  action : ∀ state token entry, table.action state token = .ok entry → entry ≠ .error →
    larger.action state token = .ok entry
  goto : table.rows.map Row.goto = larger.rows.map Row.goto

theorem Extends.goto_eq {table larger : Table} (extension : table.Extends larger) (state : Int)
    (symbol : Symbol) : larger.goto state symbol = table.goto state symbol := by
  have read (other : Table) : other.goto state symbol =
      (valueOr .outOfRange (Position.pick? (other.rows.map Row.goto) state)).map
        fun row => row.get? symbol := by
    rw [Table.goto, Table.row, Position.pick?_map]
    cases Position.pick? other.rows state <;> rfl
  rw [read, read, extension.goto]

section Building

variable {grammar : Grammar} {small large : SetMap} {start : Production} {startItem : Item}
  {states : List State} {state : State} {table larger : Table}

/-- Larger lookahead sets call for all that smaller ones call for. -/
theorem Candidate.enlarge (enlarges : grammar.Enlarges small large)
    (covers : grammar.CoversHeads large) (owned : grammar.Owns state.items.items)
    {token : Symbol} {entry : Entry}
    (candidate : Candidate grammar small start state token entry) :
    Candidate grammar large start state token entry := by
  cases candidate with
  | shift member behind terminal leads => exact .shift member behind terminal leads
  | @reduce item lookahead member complete other known column ahead =>
    have headed := head_mem_nonTerminals (owned item member)
    obtain ⟨set, found⟩ := covers item.production.head headed
    exact .reduce member complete other found column
      (enlarges _ headed lookahead set known found token ahead)
  | accept member complete own ending => exact .accept member complete own ending

/-- A table without conflicts for larger lookahead sets has none for smaller ones. -/
theorem quiet_of_enlarges (enlarges : grammar.Enlarges small large)
    (covers : grammar.CoversHeads large) (canonical : grammar.Canonical startItem states)
    (exact : Exact grammar small start states table)
    (largerExact : Exact grammar large start states larger) (quiet : larger.conflicts = []) :
    table.conflicts = [] := by
  have single := largerExact.isDeterministic_iff.mp (List.isEmpty_iff.mpr quiet)
  refine List.isEmpty_iff.mp (exact.isDeterministic_iff.mpr ?_)
  intro number state found token one other candidate rival
  have owned := canonical.owned state (List.mem_of_getElem? found)
  exact single number state found token one other (candidate.enlarge enlarges covers owned)
    (rival.enlarge enlarges covers owned)

/-- The states that the rows lead to by non-terminals do not depend on the lookahead sets. -/
theorem build_goto (augmented : grammar.augmented = true)
    (canonical : grammar.Canonical startItem states) (covers : grammar.CoversHeads small)
    (built : build grammar states small = .ok table) :
    table.rows.map Row.goto = states.map (gotoRow grammar) := by
  obtain ⟨rows, again, builtAgain, same, rowsEqual, _⟩ := build_rows augmented canonical covers
  rw [built, Except.ok.injEq] at builtAgain
  subst builtAgain
  have each {state : State} {row : Row} {conflicts : List Conflict}
      (made : buildRow grammar small (grammar.startOf augmented) state = .ok (row, conflicts)) :
      row.goto = gotoRow grammar state := by
    obtain ⟨asked, _, recorded⟩ := bind_eq_ok_iff.mp made
    rw [← (Prod.mk.inj (Except.ok.inj recorded)).1]
  have written := congrArg (List.map fun outcome : Except Fault (Row × List Conflict) =>
    outcome.toOption.map fun made => made.1.goto) same
  rw [List.map_map, List.map_map] at written
  refine List.map_injective_iff.mpr (Option.some_injective _) ?_
  rw [rowsEqual, List.map_map, List.map_map, List.map_map]
  refine written.symm.trans (List.map_congr_left fun state member => ?_)
  obtain ⟨row, conflicts, made, _⟩ := buildRow_exists canonical covers member
  show (buildRow grammar small (grammar.startOf augmented) state).toOption.map _ = _
  rw [made]
  exact congrArg some (each made)

/-- Without conflicts, the table for larger lookahead sets has all entries of the other. -/
theorem extends_of_enlarges (augmented : grammar.augmented = true)
    (canonical : grammar.Canonical startItem states) (covers : grammar.CoversHeads small)
    (largerCovers : grammar.CoversHeads large) (enlarges : grammar.Enlarges small large)
    (built : build grammar states small = .ok table)
    (largerBuilt : build grammar states large = .ok larger) (quiet : larger.conflicts = []) :
    table.Extends larger := by
  obtain ⟨one, oneBuilt, fills⟩ := build_exists augmented canonical covers
  obtain ⟨other, otherBuilt, largerFills⟩ := build_exists augmented canonical largerCovers
  rw [built, Except.ok.injEq] at oneBuilt
  rw [largerBuilt, Except.ok.injEq] at otherBuilt
  subst oneBuilt otherBuilt
  refine ⟨fun state token entry read proper => ?_, ?_⟩
  · obtain ⟨number, row, named, found, cell⟩ := exists_cell read proper
    obtain ⟨owner, stateFound, holds⟩ := fills.exists_state found
    obtain ⟨largerRow, largerFound, largerHolds⟩ := largerFills.rows number _ stateFound
    have candidate := (holds.sound token entry cell).enlarge enlarges largerCovers
      (canonical.owned _ (List.mem_of_getElem? stateFound))
    have largerKnown : larger.row state = .ok largerRow :=
      row_eq_ok_iff.mpr ⟨number, by rw [largerFills.length, ← fills.length, named], largerFound⟩
    rw [action, largerKnown]
    show Except.ok ((largerRow.action.get? token).getD .error) = _
    rw [largerHolds.complete quiet token entry candidate]
    rfl
  · rw [build_goto augmented canonical covers built,
      build_goto augmented canonical largerCovers largerBuilt]

end Building

end Table

/-! ### Parsers with more entries -/

namespace Simulator

open Grammar

/-- One simulator works on the same grammar as another, and its table has all entries of the
other. -/
structure Extends (simulator wider : Simulator) : Prop where
  grammar : wider.grammar = simulator.grammar
  table : simulator.table.Extends wider.table

section Extension

variable {simulator wider : Simulator} {before after : Configuration} {token : Symbol}
  {rest : List Symbol} {entry : Entry} {move : Move}

theorem Extends.reduce_eq (extension : simulator.Extends wider) (configuration : Configuration)
    (production : Production) :
    wider.reduce configuration production = simulator.reduce configuration production := by
  simp only [reduce, extension.table.goto_eq]

/-- What is done about an entry does not depend on the other entries, unless it is a
rejection. -/
theorem Extends.perform_eq (extension : simulator.Extends wider) (proper : entry ≠ .error) :
    wider.perform before token rest entry = simulator.perform before token rest entry := by
  cases entry with
  | shift next => rfl
  | reduce named => simp only [perform, extension.grammar, extension.reduce_eq]
  | accept => simp only [perform, Simulator.accept, extension.grammar]
  | error => exact absurd rfl proper

theorem reject_of_perform (performed : simulator.perform before token rest .error =
    .ok (move, after)) : ∃ cause, move = .reject cause := by
  obtain ⟨actual, rejected, same⟩ := bind_eq_ok_iff.mp performed
  rw [← (Prod.mk.inj (Except.ok.inj same)).1]
  unfold reject at rejected
  split at rejected
  · exact ⟨_, (Except.ok.inj rejected).symm⟩
  · obtain ⟨row, _, written⟩ := bind_eq_ok_iff.mp rejected
    exact ⟨_, (Except.ok.inj written).symm⟩

/-- Every step but a rejection is also a step of a simulator with more entries. -/
theorem Extends.step {step : Step} (extension : simulator.Extends wider)
    (taken : simulator.step before = .ok (step, after))
    (proceeds : step.move.rejection? = none) : wider.step before = .ok (step, after) := by
  unfold Simulator.step at taken
  split at taken
  · cases taken
  · rename_i token rest more
    obtain ⟨entry, found, performed⟩ := bind_eq_ok_iff.mp taken
    obtain ⟨⟨move, next⟩, done, recorded⟩ := bind_eq_ok_iff.mp performed
    obtain ⟨rfl, rfl⟩ := Prod.mk.inj (Except.ok.inj recorded)
    have proper : entry ≠ .error := by
      rintro rfl
      obtain ⟨cause, rfl⟩ := reject_of_perform done
      cases proceeds
    have read : wider.entryFor before token rest = .ok entry := by
      rw [entryFor] at found ⊢
      split at found
      · exact absurd (Except.ok.inj found).symm proper
      · rename_i placed
        rw [if_neg placed]
        exact extension.table.action _ token entry found proper
    exact step_of_perform more read ((extension.perform_eq proper).trans done)

theorem rejection?_of_goes (goes : move.isFinal = false) : move.rejection? = none := by
  cases move with
  | shift | reduce => rfl
  | accept | reject => cases goes

theorem rejection?_of_accept (accepted : move.isAccept = true) : move.rejection? = none := by
  cases move with
  | accept => rfl
  | shift | reduce | reject => cases accepted

/-- A run that accepts is also a run of a simulator with more entries. -/
theorem Extends.runFrom (extension : simulator.Extends wider) {limit : Nat}
    {first : Configuration} {trace : Trace}
    (finished : simulator.runFrom limit first = .ok (some trace))
    (accepted : trace.accepted = true) : wider.runFrom limit first = .ok (some trace) := by
  induction limit generalizing first trace with
  | zero => cases finished
  | succ limit inductionHypothesis =>
    obtain ⟨⟨step, next⟩, taken, rest⟩ := bind_eq_ok_iff.mp finished
    change (if step.move.isFinal = true then _ else _) = _ at rest
    cases final : step.move.isFinal with
    | true =>
      rw [if_pos final] at rest
      have single := Option.some_inj.mp (Except.ok.inj rest)
      rw [← single] at accepted
      rw [Simulator.runFrom, extension.step taken (rejection?_of_accept accepted), ← single]
      exact if_pos final
    | false =>
      rw [if_neg (ne_true_of_eq_false final)] at rest
      obtain ⟨later, remaining, same⟩ := bind_eq_ok_iff.mp rest
      obtain ⟨others, rfl, rfl⟩ := Option.map_eq_some_iff.mp (Except.ok.inj same)
      rw [Trace.accepted, Trace.last_after] at accepted
      rw [Simulator.runFrom, extension.step taken (rejection?_of_goes final)]
      show (if step.move.isFinal = true then _ else wider.runFrom limit next >>= _) = _
      rw [if_neg (ne_true_of_eq_false final), inductionHypothesis remaining accepted]
      rfl

theorem size_le_limit {limit : Nat} {first : Configuration} {trace : Trace}
    (finished : simulator.runFrom limit first = .ok (some trace)) : trace.size ≤ limit := by
  induction limit generalizing first trace with
  | zero => cases finished
  | succ limit inductionHypothesis =>
    obtain ⟨⟨step, next⟩, _, rest⟩ := bind_eq_ok_iff.mp finished
    change (if step.move.isFinal = true then _ else _) = _ at rest
    split at rest
    · rw [← Option.some_inj.mp (Except.ok.inj rest)]
      exact Nat.succ_le_succ (Nat.zero_le limit)
    · obtain ⟨later, remaining, same⟩ := bind_eq_ok_iff.mp rest
      obtain ⟨others, rfl, rfl⟩ := Option.map_eq_some_iff.mp (Except.ok.inj same)
      exact Nat.succ_le_succ (inductionHypothesis remaining)

end Extension

/-! ### Lookahead sets between -/

/-- Two simulators accept the same inputs, by the same steps and with the same nodes. -/
def AcceptsAlike (one other : Simulator) : Prop :=
  ∀ limit input trace, trace.accepted = true →
    (one.run limit input = .ok (some trace) ↔ other.run limit input = .ok (some trace))

/-- A simulator with more entries accepts nothing more if the FOLLOW sets already give all but
those entries: what it accepts has a tree, and the FOLLOW sets suffice to read the tree. -/
theorem Extends.acceptsAlike {narrow simulator wider : Simulator} {grammar : Grammar}
    {start : Symbol} {states : List State} {sets : LookaheadSets} {large : SetMap}
    (runs : narrow.Runs grammar start states sets.follow)
    (closed : narrow.grammar.ClosedSets sets)
    (widerRuns : wider.Runs grammar start states large) (inner : narrow.Extends simulator)
    (outer : simulator.Extends wider) : simulator.AcceptsAlike wider := by
  intro limit input trace accepted
  refine ⟨fun finished => outer.runFrom finished accepted, fun finished => ?_⟩
  obtain ⟨_, _, finishes⟩ := widerRuns.finishes finished
  obtain ⟨_, tree, derives, _⟩ := finishes.derives accepted
  obtain ⟨short, _, _, _, shortAccepted, _, done⟩ :=
    runs.accepts closed derives.belongs derives.labelled input derives.read
  have carried (limit : Nat) (enough : short.size ≤ limit) :
      simulator.run limit input = .ok (some short) :=
    inner.runFrom (done limit enough) shortAccepted
  have same : trace = short :=
    run_unique finished (outer.runFrom (carried _ (Nat.le_refl _)) shortAccepted)
  rw [same]
  exact carried limit (same ▸ size_le_limit finished)

end Simulator

/-! ### Tables of one automaton -/

namespace Table

open Grammar

/-- The table for some lookahead sets, with all that is known of it. -/
structure Tabulates (grammar augmented : Grammar) (start : Symbol) (states : List State)
    (follow : SetMap) (table : Table) : Prop where
  built : build augmented states follow = .ok table
  fills : Fills augmented follow (grammar.root start) states table
  exact : Exact augmented follow (grammar.root start) states table

section Tabulated

variable {grammar augmented : Grammar} {start : Symbol} {states : List State}
  {sets : LookaheadSets} {follow small large : SetMap} {table larger : Table}

theorem tabulates_exists (augments : grammar.Augments augmented start)
    (canonical : augmented.Canonical (Item.start (grammar.root start)) states)
    (covers : augmented.CoversHeads follow) :
    ∃ table, Tabulates grammar augmented start states follow table := by
  obtain ⟨table, built, fills⟩ := build_exists augments.flagged canonical covers
  obtain ⟨again, builtAgain, recorded⟩ := build_recorded augments.flagged canonical covers
  rw [built, Except.ok.injEq] at builtAgain
  subst builtAgain
  rw [augments.startOf_eq] at fills recorded
  exact ⟨table, built, fills, recorded.exact canonical⟩

theorem Tabulates.simulator_exists (tabulates : Tabulates grammar augmented start states follow
      table) (augments : grammar.Augments augmented start)
    (canonical : augmented.Canonical (Item.start (grammar.root start)) states)
    (quiet : table.conflicts = []) :
    ∃ simulator, Simulator.ofTable augmented table = .ok simulator ∧
      simulator.grammar = augmented ∧ simulator.table = table ∧
      simulator.Runs grammar start states follow :=
  ⟨_, Simulator.ofTable_exists augments.flagged quiet, rfl, rfl, augments, canonical,
    tabulates.fills⟩

/-- If the table for the larger sets is without conflicts, so is the other; it has no other
entries than the larger table. If it has those for the FOLLOW sets, both accept the same. -/
theorem Tabulates.compare (augments : grammar.Augments augmented start)
    (canonical : augmented.Canonical (Item.start (grammar.root start)) states)
    (closed : augmented.ClosedSets sets) (covers : augmented.CoversHeads small)
    (largerCovers : augmented.CoversHeads large) (enlarges : augmented.Enlarges small large)
    (tabulates : Tabulates grammar augmented start states small table)
    (largerTabulates : Tabulates grammar augmented start states large larger)
    (quiet : larger.conflicts = []) :
    table.conflicts = [] ∧ table.Extends larger ∧
      (augmented.Enlarges sets.follow small → ∃ simulator wider,
        Simulator.ofTable augmented table = .ok simulator ∧
        Simulator.ofTable augmented larger = .ok wider ∧ simulator.AcceptsAlike wider) := by
  have silent := quiet_of_enlarges enlarges largerCovers canonical tabulates.exact
    largerTabulates.exact quiet
  have outer := extends_of_enlarges augments.flagged canonical covers largerCovers enlarges
    tabulates.built largerTabulates.built quiet
  refine ⟨silent, outer, fun contains => ?_⟩
  obtain ⟨least, leastTabulates⟩ := tabulates_exists augments canonical closed.covers
  have leastSilent := quiet_of_enlarges contains covers canonical leastTabulates.exact
    tabulates.exact silent
  have inner := extends_of_enlarges augments.flagged canonical closed.covers covers contains
    leastTabulates.built tabulates.built silent
  obtain ⟨narrow, _, narrowSame, narrowTable, runs⟩ :=
    leastTabulates.simulator_exists augments canonical leastSilent
  obtain ⟨simulator, made, same, simulatorTable, _⟩ :=
    tabulates.simulator_exists augments canonical silent
  obtain ⟨wider, widerMade, widerSame, widerTable, widerRuns⟩ :=
    largerTabulates.simulator_exists augments canonical quiet
  refine ⟨simulator, wider, made, widerMade, ?_⟩
  refine Simulator.Extends.acceptsAlike runs (narrowSame ▸ closed) widerRuns
    ⟨same.trans narrowSame.symm, ?_⟩ ⟨widerSame.trans same.symm, ?_⟩
  · rw [narrowTable, simulatorTable]
    exact inner
  · rw [simulatorTable, widerTable]
    exact outer

end Tabulated

end Table

namespace Analysis

open Grammar

/-- Larger lookahead sets only add entries to the table of an automaton. If there are no
conflicts for the larger sets, there are none for the smaller, all entries are kept, and a
parser accepts the same inputs with either, provided that the smaller sets contain the FOLLOW
sets. So it does if any terminal and the end may follow everywhere. -/
theorem larger_lookahead (grammar : Grammar) (plain : grammar.augmented = false)
    (nonempty : grammar.productions ≠ []) :
    ∃ analysis, ofGrammar grammar = .ok analysis ∧
      grammar.augment = .ok analysis.augmented ∧
      analysis.augmented.lookaheadSets = .ok analysis.sets ∧
      analysis.augmented.automaton = .ok analysis.states ∧
      (∀ small large, analysis.augmented.CoversHeads small →
        analysis.augmented.CoversHeads large → analysis.augmented.Enlarges small large →
        ∃ table larger, Table.build analysis.augmented analysis.states small = .ok table ∧
          Table.build analysis.augmented analysis.states large = .ok larger ∧
          (larger.conflicts = [] → table.conflicts = [] ∧ table.Extends larger ∧
            (analysis.augmented.Enlarges analysis.sets.follow small → ∃ simulator wider,
              Simulator.ofTable analysis.augmented table = .ok simulator ∧
              Simulator.ofTable analysis.augmented larger = .ok wider ∧
              simulator.AcceptsAlike wider))) ∧
      ∃ larger, Table.build analysis.augmented analysis.states analysis.augmented.everyToken =
          .ok larger ∧
        (larger.conflicts = [] → analysis.table.conflicts = [] ∧ ∃ simulator wider,
          analysis.simulator = .ok simulator ∧
          Simulator.ofTable analysis.augmented larger = .ok wider ∧
          simulator.AcceptsAlike wider) := by
  obtain ⟨augmented, start, augmentedFound, augments⟩ := augment_exists plain nonempty
  obtain ⟨states, statesFound, canonical⟩ := automaton_exists augments.flagged
  rw [augments.startOf_eq] at canonical
  obtain ⟨sets, setsFound, closed⟩ := augmented.lookaheadSets_exists
  obtain ⟨exactSets, _, _, exactFound, exact⟩ := augmented.exactSets_exists
  rw [setsFound, Except.ok.injEq] at exactFound
  subst exactFound
  obtain ⟨table, tabulates⟩ := Table.tabulates_exists augments canonical closed.covers
  obtain ⟨larger, largerTabulates⟩ :=
    Table.tabulates_exists augments canonical augmented.everyToken_covers
  refine ⟨⟨grammar, augmented, sets, states, table⟩,
    ofGrammar_of_stages nonempty augmentedFound setsFound statesFound tabulates.built,
    augmentedFound, setsFound, statesFound, fun small large covers largerCovers enlarges => ?_,
    larger, largerTabulates.built, fun quiet => ?_⟩
  · obtain ⟨one, oneTabulates⟩ := Table.tabulates_exists augments canonical covers
    obtain ⟨other, otherTabulates⟩ := Table.tabulates_exists augments canonical largerCovers
    exact ⟨one, other, oneTabulates.built, otherTabulates.built,
      oneTabulates.compare augments canonical closed covers largerCovers enlarges otherTabulates⟩
  · obtain ⟨silent, _, alike⟩ := tabulates.compare augments canonical closed closed.covers
      augmented.everyToken_covers exact.enlarges largerTabulates quiet
    exact ⟨silent, alike (.refl augmented sets.follow)⟩

end Analysis

namespace Grammar

/-- A letter in any number of brackets. No state needs a lookahead to decide. -/
def wrapped : Grammar :=
  ⟨[⟨0, "S", ["(", "S", ")"]⟩, ⟨1, "S", ["x"]⟩], false,
    (faultOf_eq_none_iff _ _).mp (by decide)⟩

end Grammar

namespace Analysis

open Grammar

/-- Behind a letter any token calls for the reduction, so that a second letter is found out a
step later than with FOLLOW sets; what is accepted is the same. -/
theorem larger_lookahead_wrapped :
    ∃ analysis larger simulator wider trace rejection later,
      ofGrammar wrapped = .ok analysis ∧ analysis.simulator = .ok simulator ∧
      Table.build analysis.augmented analysis.states analysis.augmented.everyToken = .ok larger ∧
      Simulator.ofTable analysis.augmented larger = .ok wider ∧
      simulator.run 9 (.tokens ["(", "x", ")"]) = .ok (some trace) ∧
      wider.run 9 (.tokens ["(", "x", ")"]) = .ok (some trace) ∧
      simulator.run 9 (.tokens ["x", "x"]) = .ok (some rejection) ∧ rejection.size = 2 ∧
      wider.run 9 (.tokens ["x", "x"]) = .ok (some later) ∧ later.size = 3 := by
  obtain ⟨analysis, analysed, _, _, _, _, larger, built, alike⟩ :=
    larger_lookahead wrapped rfl (List.cons_ne_nil _ _)
  have evaluated : (ofGrammar wrapped).toOption.bind (fun analysis =>
      (Table.build analysis.augmented analysis.states analysis.augmented.everyToken).toOption.map
        fun larger => (larger.conflicts,
          (analysis.run 9 (.tokens ["(", "x", ")"])).toOption.join.map Trace.accepted,
          (analysis.run 9 (.tokens ["x", "x"])).toOption.join.map Trace.size,
          (Simulator.ofTable analysis.augmented larger).toOption.bind fun wider =>
            (wider.run 9 (.tokens ["x", "x"])).toOption.join.map Trace.size)) =
      some ([], some true, some 2, some 3) := by
    decide +kernel
  rw [analysed] at evaluated
  change (Table.build _ _ _).toOption.map _ = _ at evaluated
  rw [built] at evaluated
  obtain ⟨quiet, others⟩ := Prod.mk.inj (Option.some_inj.mp evaluated)
  obtain ⟨accepts, more⟩ := Prod.mk.inj others
  obtain ⟨shorter, longer⟩ := Prod.mk.inj more
  obtain ⟨_, simulator, wider, made, widerMade, same⟩ := alike quiet
  rw [show Simulator.ofTable analysis.augmented larger = _ from widerMade] at longer
  rw [run_of_simulator made] at accepts shorter
  obtain ⟨trace, done, accepted⟩ := Simulator.exists_trace accepts
  obtain ⟨rejection, rejected, two⟩ := Simulator.exists_trace shorter
  obtain ⟨later, laterRejected, three⟩ := Simulator.exists_trace longer
  exact ⟨analysis, larger, simulator, wider, trace, rejection, later, analysed, made, built,
    widerMade, done, (same 9 _ trace accepted).mp done, rejected, two, laterRejected, three⟩

end Analysis

end ShiftReduce
