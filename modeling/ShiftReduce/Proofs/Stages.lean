/-
This file proves that no stage behind the reader fails. Every lookup of one stage reads what an
earlier stage has written: FIRST covers all symbols of the bodies, FOLLOW all heads, and a state
has a transition for every symbol behind a dot. The loops of the stages end by themselves, so
that more rounds than they are given would change nothing. An analysis of a text therefore fails
exactly where reading the text fails, or where the text holds no rules.
-/

import ShiftReduce.Proofs.Collection
import ShiftReduce.Proofs.Completeness

namespace ShiftReduce

/-! ### Loops that end by themselves -/

namespace Grammar

/-- The loops of the stages that work on an augmented grammar end by themselves: more rounds
than they are given change nothing. -/
structure LoopsEnd (grammar : Grammar) : Prop where
  closure : ∀ items more, grammar.visit ((Item.distinct items).length + grammar.size + more) []
      (Item.distinct items) =
    grammar.visit ((Item.distinct items).length + grammar.size) [] (Item.distinct items)
  first : ∃ passes, ∀ more, SetMap.passes grammar.firstPass (grammar.firstRounds + more)
    grammar.initialFirst = .ok passes
  follow : ∃ first passes, grammar.first = .ok first ∧ ∀ more,
    SetMap.passes (grammar.followPass first) (grammar.followRounds first + more)
      grammar.initialFollow = .ok passes
  automaton : ∀ start more, grammar.startProduction = .ok start →
    grammar.explore (2 ^ grammar.itemCount + more) [grammar.closure [Item.start start]] [] =
      grammar.explore (2 ^ grammar.itemCount) [grammar.closure [Item.start start]] []

theorem first_ends (grammar : Grammar) :
    ∃ passes, ∀ more, SetMap.passes grammar.firstPass (grammar.firstRounds + more)
      grammar.initialFirst = .ok passes := by
  obtain ⟨results, climbs, short, _⟩ :=
    grammar.first_climbs (fun _ => True) trivial fun _ _ _ _ _ _ _ _ => trivial
  exact ⟨results, fun more => climbs.passes_eq (Nat.le_add_right_of_le short)⟩

theorem follow_ends (grammar : Grammar) :
    ∃ first passes, grammar.first = .ok first ∧ ∀ more,
      SetMap.passes (grammar.followPass first) (grammar.followRounds first + more)
        grammar.initialFollow = .ok passes := by
  obtain ⟨first, firstFound, firstKeeps, _⟩ := grammar.first_exists
  obtain ⟨results, climbs, short, _⟩ := follow_climbs firstKeeps.coversBodies (fun _ => True)
    trivial fun _ _ _ _ _ _ _ _ _ _ _ => trivial
  exact ⟨first, results, firstFound, fun more => climbs.passes_eq (Nat.le_add_right_of_le short)⟩

theorem explore_ends {grammar : Grammar} {start : Production}
    (owned : start ∈ grammar.productions) (more : Nat) :
    grammar.explore (2 ^ grammar.itemCount + more) [grammar.closure [Item.start start]] [] =
      grammar.explore (2 ^ grammar.itemCount) [grammar.closure [Item.start start]] [] :=
  explore_more more ((explored_start owned).finish (Nat.le_refl _)).2

theorem startProduction_mem {grammar : Grammar} {start : Production}
    (begins : grammar.startProduction = .ok start) : start ∈ grammar.productions := by
  unfold startProduction at begins
  split at begins
  · rw [← Except.ok.inj begins]
    exact List.head_mem _
  · cases begins

theorem loopsEnd (grammar : Grammar) : grammar.LoopsEnd where
  closure := grammar.closure_ends
  first := grammar.first_ends
  follow := grammar.follow_ends
  automaton _ more begins := explore_ends (startProduction_mem begins) more

end Grammar

/-! ### Tables by their parts -/

namespace Table

open Grammar

/-- A built table has as many rows of entries as it has rows of states to go to. -/
theorem ofParts_build {grammar : Grammar} {states : List State} {follow : SetMap} {table : Table}
    (built : build grammar states follow = .ok table) :
    ofParts grammar (table.rows.map Row.action) (table.rows.map Row.goto) table.conflicts =
      .ok table := by
  unfold build at built
  split at built
  · obtain ⟨start, begins, filled⟩ := bind_eq_ok_iff.mp built
    obtain ⟨rows, _, made⟩ := bind_eq_ok_iff.mp filled
    have same : List.zipWith Row.mk (table.rows.map Row.action) (table.rows.map Row.goto) =
        table.rows := by
      rw [List.zipWith_map, List.zipWith_self]
      exact List.map_id _
    rw [ofParts, if_pos (by rw [List.length_map, List.length_map]), same]
    rw [ofRows, begins] at made ⊢
    rw [← Except.ok.inj made]
    rfl
  · cases built

end Table

/-! ### All stages -/

namespace Analysis

open Grammar

/-- An analysis that every stage has come to without a fault. -/
structure Completes (analysis : Analysis) (grammar : Grammar) : Prop where
  analysed : ofGrammar grammar = .ok analysis
  augmented : grammar.augment = .ok analysis.augmented
  sets : analysis.augmented.lookaheadSets = .ok analysis.sets
  states : analysis.augmented.automaton = .ok analysis.states
  table : Table.build analysis.augmented analysis.states analysis.sets.follow = .ok analysis.table
  parts : Table.ofParts analysis.augmented (analysis.table.rows.map Row.action)
    (analysis.table.rows.map Row.goto) analysis.table.conflicts = .ok analysis.table
  advances : ∀ state ∈ analysis.states, ∀ item ∈ state.items.items, ∀ symbol,
    item.symbol? = some symbol → ∃ next target, item.advance = .ok next ∧
      state.transitions.lookup symbol = .ok target
  fresh : ∀ start more, grammar.startSymbol = some start →
    primed grammar.symbols (grammar.symbols.length + more) start = grammar.freshStart start
  loops : analysis.augmented.LoopsEnd

theorem completes_exists {grammar : Grammar} (plain : grammar.augmented = false)
    (nonempty : grammar.productions ≠ []) : ∃ analysis, Completes analysis grammar := by
  obtain ⟨augmented, start, augmentedFound, augments⟩ := augment_exists plain nonempty
  obtain ⟨states, statesFound, canonical⟩ := automaton_exists augments.flagged
  obtain ⟨sets, setsFound, closed⟩ := augmented.lookaheadSets_exists
  obtain ⟨table, built, _⟩ := Table.build_exists augments.flagged canonical closed.covers
  refine ⟨⟨grammar, augmented, sets, states, table⟩,
    ofGrammar_of_stages nonempty augmentedFound setsFound statesFound built, augmentedFound,
    setsFound, statesFound, built, Table.ofParts_build built,
    fun state member item inside symbol behind => ?_,
    fun start more _ => primed_more (grammar.freshStart_not_mem start) more, augmented.loopsEnd⟩
  obtain ⟨number, found⟩ := List.mem_iff_getElem?.mp member
  obtain ⟨target, _, leads, _⟩ := canonical.next_exists found inside behind
  rw [State.next, found, Option.bind_some] at leads
  obtain ⟨within, _⟩ := List.getElem?_eq_some_iff.mp behind
  have moved : item.advanceOver? symbol = some ⟨item.production, item.dot + 1, within⟩ :=
    Item.advanceOver?_eq_some_iff.mpr ⟨behind, rfl, rfl⟩
  exact ⟨_, target, Item.advance_of_advanceOver? moved, SymbolMap.lookup_eq_ok_iff.mpr leads⟩

/-- What is read is never augmented. -/
theorem plain_of_read {text : String} {grammar : Grammar}
    (read : Grammar.read text = .ok grammar) : grammar.augmented = false := by
  obtain ⟨rules, _, made⟩ := bind_eq_ok_iff.mp read
  exact (ofProductions_eq_ok_iff.mp made).2

theorem ofSource_text (text : String) : ofSource (.text text) =
    match Grammar.read text with
    | .error fault => .error (.grammar fault)
    | .ok grammar => ofGrammar grammar := by
  show ((Grammar.read text).mapError Fault.grammar >>= ofGrammar) = _
  cases Grammar.read text <;> rfl

theorem ofGrammar_of_empty {grammar : Grammar} (empty : grammar.productions = []) :
    ofGrammar grammar = .error (.grammar .nothingToAnalyse) := by
  have none : grammar.size = 0 := by
    rw [Grammar.size, empty]
    rfl
  simp only [ofGrammar, if_pos none]
  rfl

/-- Behind the reader no stage fails, whatever the symbols of the grammar are and whether or not
there are conflicts. A text cannot be analysed exactly if it cannot be read, or if it holds no
rules, and the fault is then the one of its grammar. -/
theorem fails_in_reading :
    (∀ grammar : Grammar, grammar.augmented = false → grammar.productions ≠ [] →
      ∃ analysis, Completes analysis grammar) ∧
    ∀ text fault, ofSource (.text text) = .error fault ↔
      (∃ own, Grammar.read text = .error own ∧ fault = .grammar own) ∨
      ∃ grammar, Grammar.read text = .ok grammar ∧ grammar.productions = [] ∧
        fault = .grammar .nothingToAnalyse := by
  refine ⟨fun _ => completes_exists, fun text fault => ?_⟩
  rw [ofSource_text]
  cases read : Grammar.read text with
  | error own => simp [eq_comm]
  | ok grammar =>
    by_cases empty : grammar.productions = []
    · simp [ofGrammar_of_empty empty, empty, eq_comm]
    · obtain ⟨analysis, completes⟩ := completes_exists (plain_of_read read) empty
      simp [completes.analysed, empty]

end Analysis

namespace Grammar

/-- Rules that derive themselves, rules that are never used, the empty text as start symbol, and
apostrophes that are taken. -/
def odd : Grammar :=
  ⟨[⟨0, "", ["", "'"]⟩, ⟨1, "", []⟩, ⟨2, "'", ["'"]⟩, ⟨3, "''", ["a b"]⟩], false,
    (faultOf_eq_none_iff _ _).mp (by decide)⟩

end Grammar

namespace Analysis

open Grammar

/-- A grammar with conflicts is analysed like any other; one text cannot be read, and another
holds no rules. -/
theorem fails_in_reading_odd :
    ∃ analysis, Completes analysis odd ∧ analysis.table.isDeterministic = false ∧
      analysis.augmented.startSymbol = some "'''" ∧
      ofSource (.text "S -> a\n| $") = .error (.grammar (.endMarkerUsed 2)) ∧
      ofSource (.text "| a\nno rule") = .error (.grammar .nothingToAnalyse) := by
  obtain ⟨total, text⟩ := fails_in_reading
  obtain ⟨analysis, completes⟩ := total odd rfl (List.cons_ne_nil _ _)
  have evaluated : ((ofGrammar odd).toOption.map fun analysis =>
      (analysis.table.isDeterministic, analysis.augmented.startSymbol)) =
      some (false, some "'''") := by
    decide +kernel
  rw [completes.analysed] at evaluated
  obtain ⟨conflicting, primed⟩ := Prod.mk.inj (Option.some_inj.mp evaluated)
  have unreadable : Grammar.read "S -> a\n| $" = .error (.endMarkerUsed 2) := by
    decide +kernel
  have empty : ((Grammar.read "| a\nno rule").toOption.map Grammar.productions) = some [] := by
    decide +kernel
  cases read : Grammar.read "| a\nno rule" with
  | error fault =>
    rw [read] at empty
    cases empty
  | ok grammar =>
    rw [read] at empty
    exact ⟨analysis, completes, conflicting, primed,
      (text _ _).mpr (.inl ⟨_, unreadable, rfl⟩),
      (text _ _).mpr (.inr ⟨grammar, read, Option.some_inj.mp empty, rfl⟩)⟩

end Analysis

end ShiftReduce
