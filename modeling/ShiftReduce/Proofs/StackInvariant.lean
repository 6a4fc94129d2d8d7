/-
This file proves what holds at every step of a run, whether the run accepts, rejects or never
ends. The stack is a path of the automaton, its nodes stand for trees of the grammar with the
symbols of the stack as labels, and their leaves with the tokens that are not read yet make up
the input. The reductions from the last one back to the first derive what was read from the
stack, with nothing but terminals behind the replaced symbol. No step fails, and a step rejects
only at a cell without an entry or at a misplaced end marker.
-/

import ShiftReduce.Proofs.Completeness

namespace ShiftReduce

open DerivationTree

/-! ### Stacks as paths -/

/-- A stack starts from the first state, and every symbol on it leads from the state below it to
the state that came with it. -/
structure StackPath (states : List State) (stack : List Int) (symbols : List (Option Symbol)) :
    Prop where
  bottom : stack.head? = some 0
  unlabelled : symbols.head? = some none
  aligned : symbols.length = stack.length
  linked : ∀ place, place + 1 < stack.length → ∃ (below above : Nat) (symbol : Symbol),
    stack[place]? = some (below : Int) ∧ stack[place + 1]? = some (above : Int) ∧
      symbols[place + 1]? = some (some symbol) ∧ State.next states below symbol = some above

namespace Stacked

variable {states : List State} {arena : Arena} {frames : List Frame}
  {forest : List DerivationTree}

theorem length_eq (stacked : Stacked states arena frames forest) :
    frames.length = forest.length := by
  induction stacked with
  | bottom => rfl
  | push _ _ _ _ _ _ inductionHypothesis =>
    rw [List.length_cons, List.length_append, List.length_singleton, inductionHypothesis]

theorem symbols_eq (stacked : Stacked states arena frames forest) :
    Frame.symbols frames = none :: (forest.map symbol).map some := by
  induction stacked with
  | bottom => rfl
  | push _ _ _ _ _ _ inductionHypothesis =>
    simp [inductionHypothesis]

/-- The labels of the trees below a place lead to the state of the place. -/
theorem state_at (stacked : Stacked states arena frames forest) {place : Nat}
    (inside : place ≤ forest.length) :
    ∃ number : Nat, State.walk states 0 ((forest.take place).map symbol) = some number ∧
      (Frame.states frames)[place]? = some (number : Int) := by
  induction stacked with
  | bottom =>
    rw [Nat.le_zero.mp inside]
    exact ⟨0, rfl, rfl⟩
  | @push frames forest number node tree below walked _ inductionHypothesis =>
    have sized : (Frame.states frames).length = forest.length + 1 := by
      simp [below.length_eq]
    rw [List.length_append, List.length_singleton] at inside
    rw [Frame.states_cons]
    rcases Nat.lt_or_eq_of_le inside with old | rfl
    · obtain ⟨lower, reached, found⟩ := inductionHypothesis (Nat.le_of_lt_succ old)
      refine ⟨lower, ?_, ?_⟩
      · rw [List.take_append_of_le_length (Nat.le_of_lt_succ old)]
        exact reached
      · rw [List.getElem?_append_left (by rw [sized]; exact old)]
        exact found
    · refine ⟨number, ?_, ?_⟩
      · rw [List.take_of_length_le (by rw [List.length_append, List.length_singleton])]
        exact walked
      · rw [← sized]
        exact List.getElem?_concat_length

theorem path (stacked : Stacked states arena frames forest) :
    StackPath states (Frame.states frames) (Frame.symbols frames) where
  bottom := rfl
  unlabelled := rfl
  aligned := Frame.length_symbols frames
  linked place inside := by
    simp only [Frame.length_states, stacked.length_eq, Nat.add_lt_add_iff_right] at inside
    obtain ⟨below, reached, found⟩ := stacked.state_at (Nat.le_of_lt inside)
    obtain ⟨above, walked, next⟩ := stacked.state_at (Nat.succ_le_of_lt inside)
    refine ⟨below, above, forest[place].symbol, found, next, ?_, ?_⟩
    · rw [stacked.symbols_eq, List.getElem?_cons_succ, List.getElem?_map, List.getElem?_map,
        List.getElem?_eq_getElem inside]
      rfl
    · rw [List.take_add_one, List.getElem?_eq_getElem inside, List.map_append] at walked
      change State.walk states 0 ((forest.take place).map symbol ++ [forest[place].symbol]) = _
        at walked
      rw [State.walk_concat, reached] at walked
      exact walked

theorem holds_nodes (stacked : Stacked states arena frames forest) :
    (Frame.nodes frames).length = forest.length ∧
      ∀ pair ∈ (Frame.nodes frames).zip forest, arena.Holds pair.1 pair.2 := by
  have whole : Stacked states arena frames ([] ++ forest) := stacked
  obtain ⟨_, _, aligned, each⟩ := whole.split
  rw [List.take_of_length_le (Nat.le_of_eq stacked.length_eq)] at aligned each
  exact ⟨aligned, each⟩

end Stacked

namespace Simulator

open Grammar

/-! ### Arenas only grow -/

section Growth

variable {simulator : Simulator} {before after : Configuration} {id : Nat}
  {tree : DerivationTree}

/-- A node stands for the same tree after a step. -/
theorem step_holds {step : Step} (taken : simulator.step before = .ok (step, after))
    (holds : before.arena.Holds id tree) : after.arena.Holds id tree := by
  cases taken_of_step taken with
  | shift | reduce => exact holds.add _ _ _
  | final => exact holds

theorem Reaches.holds {steps : List Step} (reached : simulator.Reaches before steps after)
    (holds : before.arena.Holds id tree) : after.arena.Holds id tree := by
  induction reached with
  | refl => exact holds
  | head taken _ _ inductionHypothesis => exact inductionHypothesis (step_holds taken holds)

end Growth

/-! ### The last reductions first -/

section Account

variable {simulator : Simulator} {grammar : Grammar} {start : Symbol} {states : List State}
  {follow : SetMap} {before after : Configuration} {forest : List DerivationTree} {step : Step}
  {steps : List Step} {productions : List Production} {string : List Symbol}

/-- A shift puts a terminal behind what the forest derives, and a reduction is undone first. -/
theorem Effect.derivesLast (effect : Effect grammar start states before forest step after)
    (goes : step.move.isFinal = false)
    (derived : grammar.DerivesLast productions (forest.map symbol) string) :
    ∃ more, more.map moved = (reduced [step]).reverse ∧
      grammar.DerivesLast (more ++ productions) ((grown [step] forest).map symbol)
        (string ++ shifted [step]) := by
  cases effect with
  | shift token target terminal _ move _ =>
    rw [grown_singleton, shifted_singleton, reduced_singleton, move]
    refine ⟨[], rfl, ?_⟩
    show grammar.DerivesLast productions ((forest ++ [DerivationTree.leaf token]).map symbol)
      (string ++ [token])
    rw [List.map_append]
    exact derived.append fun symbol single => (List.mem_singleton.mp single) ▸ terminal
  | reduce below children production exposed target member split spelled _ move _ =>
    subst split
    rw [grown_singleton, shifted_singleton, reduced_singleton, move, Move.grow_reduce spelled]
    refine ⟨[production], rfl, ?_⟩
    show grammar.DerivesLast (production :: productions) _ (string ++ [])
    rw [List.map_append, spelled] at derived
    rw [List.append_nil, List.map_append]
    refine .head _ [] production member (fun _ none => absurd none List.not_mem_nil) ?_
    rw [List.append_nil]
    exact derived
  | accept _ _ move _ =>
    rw [move] at goes
    cases goes
  | reject _ move _ =>
    rw [move] at goes
    cases goes

/-- The forest of a run derives what was read by the reduced productions, the last one first. -/
theorem Reaches.derivesLast (reached : simulator.Reaches before steps after)
    (runs : simulator.Runs grammar start states follow)
    (carries : Carries grammar states before forest)
    (derived : grammar.DerivesLast productions (forest.map symbol) string) :
    ∃ more, more.map moved = (reduced steps).reverse ∧
      grammar.DerivesLast (more ++ productions) ((grown steps forest).map symbol)
        (string ++ shifted steps) := by
  induction reached generalizing forest productions string with
  | refl =>
    rw [show shifted [] = [] from rfl, List.append_nil]
    exact ⟨[], rfl, derived⟩
  | @head _ _ _ step rest taken goes _ inductionHypothesis =>
    have effect := carries.effect runs taken
    obtain ⟨first, firstNamed, one⟩ := effect.derivesLast goes derived
    obtain ⟨later, laterNamed, all⟩ := inductionHypothesis (effect.builds goes).carries one
    have parted : step :: rest = [step] ++ rest := rfl
    rw [List.append_assoc, ← shifted_append, ← grown_append, ← List.append_assoc, ← parted] at all
    refine ⟨later ++ first, ?_, all⟩
    rw [List.map_append, laterNamed, firstNamed, ← List.reverse_append, ← reduced_append, parted]

end Account

/-! ### What holds of a step -/

/-- The nodes on the stack of a step stand for a forest, whose labels are the symbols of the
stack. -/
structure StandsFor (grammar : Grammar) (arena : Arena) (step : Step)
    (forest : List DerivationTree) : Prop where
  labels : step.symbols = none :: (forest.map symbol).map some
  belong : AllBelong grammar forest
  aligned : step.nodes.length = forest.length
  holds : ∀ pair ∈ step.nodes.zip forest, arena.Holds pair.1 pair.2
  leaves : (step.nodes.map fun node : Nat => (node : Int)).mapM arena.leaves =
    .ok (forest.map tokens)

/-- What holds of a step that a run takes behind some earlier steps. -/
structure Invariant (simulator : Simulator) (grammar : Grammar) (start : Symbol)
    (states : List State) (tokens : List Symbol) (earlier : List Step) (before : Configuration)
    (step : Step) (next : Configuration) : Prop where
  path : StackPath states step.stack step.symbols
  /-- The nodes keep their trees, and the leaves with what is left make up the input. -/
  forest : ∃ forest, (∀ steps later, simulator.Reaches before steps later →
      StandsFor grammar later.arena step forest) ∧
    (forest.map DerivationTree.tokens).flatten ++ step.remaining = tokens ++ [Symbol.endMarker]
  /-- The reductions, read backwards, derive what was read from the stack. -/
  derives : ∃ productions, productions.map moved = (reduced earlier).reverse ∧
    grammar.DerivesLast productions step.labels (shifted earlier)
  read : shifted earlier ++ step.remaining = tokens ++ [Symbol.endMarker]
  shifts : ∀ token target, step.move = .shift token target →
    ∃ following after, simulator.step next = .ok (following, after) ∧
      following.string = step.string
  /-- The string of a reducing step is that of the next step, with the body in the place of the
  head on top of the stack. -/
  reduces : ∀ named exposed target, step.move = .reduce named exposed target →
    ∃ following after production below, simulator.step next = .ok (following, after) ∧
      production ∈ grammar.productions ∧ moved production = named ∧
      following.symbols = none :: (below ++ [production.head]).map some ∧
      following.string = below ++ production.head :: step.remaining ∧
      step.string = below ++ production.body ++ step.remaining
  accepts : ∀ symbol, step.move = .accept symbol →
    symbol = start ∧ step.symbols = [none, some start] ∧ step.remaining = [Symbol.endMarker]
  rejects : ∀ cause, step.move = .reject cause → simulator.Justifies step cause

section Steps

variable {simulator : Simulator} {grammar : Grammar} {start : Symbol} {states : List State}
  {follow : SetMap} {tokens : List Symbol} {before next : Configuration}
  {forest : List DerivationTree} {earlier : List Step} {step : Step}

theorem Carries.symbols_eq (carries : Carries grammar states before forest)
    (taken : simulator.step before = .ok (step, next)) :
    step.symbols = none :: (forest.map symbol).map some := by
  rw [Step.symbols, (step_records taken).1]
  exact carries.stacked.symbols_eq

theorem Carries.labels_eq (carries : Carries grammar states before forest)
    (taken : simulator.step before = .ok (step, next)) : step.labels = forest.map symbol := by
  rw [Step.labels, carries.symbols_eq taken, List.tail_cons, List.filterMap_map]
  exact List.filterMap_some

theorem Carries.string_eq (carries : Carries grammar states before forest)
    (taken : simulator.step before = .ok (step, next)) :
    step.string = forest.map symbol ++ before.remaining := by
  rw [Step.string, carries.labels_eq taken, (step_records taken).2.1]

/-- The nodes of a step stand for the forest that its configuration carries, in the arena of
every later configuration. -/
theorem Carries.standsFor (carries : Carries grammar states before forest)
    (runs : simulator.Runs grammar start states follow)
    (taken : simulator.step before = .ok (step, next)) {steps : List Step} {later : Configuration}
    (reached : simulator.Reaches before steps later) :
    StandsFor grammar later.arena step forest := by
  obtain ⟨aligned, each⟩ := carries.stacked.holds_nodes
  rw [← (step_records taken).1] at aligned each
  have downward := (reached.builds runs carries).carries.downward
  have holds : ∀ pair ∈ step.nodes.zip forest, later.arena.Holds pair.1 pair.2 :=
    fun pair member => reached.holds (each pair member)
  refine ⟨carries.symbols_eq taken, carries.belong, aligned, holds, ?_⟩
  rw [show later.arena.leaves = _ from funext later.arena.leaves_eq]
  refine Arena.mapM_leavesWithin aligned fun pair member => ?_
  rw [← Arena.leaves_eq]
  exact Arena.leaves_of_holds downward (holds pair member)
    (carries.belong pair.2 (List.of_mem_zip member).2)

/-- A shift takes its token over from the input to the stack. -/
theorem Carries.string_of_shift (carries : Carries grammar states before forest)
    (runs : simulator.Runs grammar start states follow)
    (taken : simulator.step before = .ok (step, next)) {token : Symbol} {target : Int}
    (move : step.move = .shift token target) :
    ∃ following after, simulator.step next = .ok (following, after) ∧
      following.string = step.string := by
  cases carries.effect runs taken with
  | shift read _ _ more _ nextCarries =>
    obtain ⟨following, after, followed, _⟩ := nextCarries.step_exists runs
    refine ⟨following, after, followed, ?_⟩
    rw [nextCarries.string_eq followed, carries.string_eq taken, more, List.map_append,
      List.append_assoc]
    rfl
  | reduce _ _ _ _ _ _ _ _ _ other => exact Move.noConfusion (other.symm.trans move)
  | accept _ _ other => exact Move.noConfusion (other.symm.trans move)
  | reject _ other => exact Move.noConfusion (other.symm.trans move)

/-- Putting the body of a reduction in the place of the symbol on top undoes the reduction. -/
theorem Carries.string_of_reduce (carries : Carries grammar states before forest)
    (runs : simulator.Runs grammar start states follow)
    (taken : simulator.step before = .ok (step, next)) {named : Production}
    {exposed target : Int} (move : step.move = .reduce named exposed target) :
    ∃ following after production below, simulator.step next = .ok (following, after) ∧
      production ∈ grammar.productions ∧ moved production = named ∧
      following.symbols = none :: (below ++ [production.head]).map some ∧
      following.string = below ++ production.head :: step.remaining ∧
      step.string = below ++ production.body ++ step.remaining := by
  cases carries.effect runs taken with
  | reduce below children production _ _ member split spelled more other nextCarries =>
    obtain ⟨following, after, followed, _⟩ := nextCarries.step_exists runs
    have remaining := (step_records taken).2.1
    refine ⟨following, after, production, below.map symbol, followed, member, ?_, ?_, ?_, ?_⟩
    · rw [move] at other
      exact (Move.reduce.inj other).1.symm
    · rw [nextCarries.symbols_eq followed, List.map_append]
      rfl
    · rw [nextCarries.string_eq followed, List.map_append, remaining, more, List.append_assoc]
      rfl
    · rw [carries.string_eq taken, split, List.map_append, spelled, remaining]
  | shift _ _ _ _ other => exact Move.noConfusion (other.symm.trans move)
  | accept _ _ other => exact Move.noConfusion (other.symm.trans move)
  | reject _ other => exact Move.noConfusion (other.symm.trans move)

theorem Carries.symbols_of_accept (carries : Carries grammar states before forest)
    (runs : simulator.Runs grammar start states follow)
    (taken : simulator.step before = .ok (step, next)) {named : Symbol}
    (move : step.move = .accept named) :
    named = start ∧ step.symbols = [none, some start] ∧
      step.remaining = [Symbol.endMarker] := by
  cases carries.effect runs taken with
  | accept ended whole other =>
    rw [move] at other
    refine ⟨Move.accept.inj other, ?_, (step_records taken).2.1.trans ended⟩
    rw [carries.symbols_eq taken, whole]
    rfl
  | shift _ _ _ _ other => exact Move.noConfusion (other.symm.trans move)
  | reduce _ _ _ _ _ _ _ _ _ other => exact Move.noConfusion (other.symm.trans move)
  | reject _ other => exact Move.noConfusion (other.symm.trans move)

theorem Reaches.invariant (reached : simulator.Reaches (initial tokens) earlier before)
    (runs : simulator.Runs grammar start states follow)
    (taken : simulator.step before = .ok (step, next)) :
    simulator.Invariant grammar start states tokens earlier before step next := by
  have initially := initial_carries grammar states tokens
  have builds := reached.builds runs initially
  have carries := builds.carries
  obtain ⟨frames, remaining, _⟩ := step_records taken
  have read : shifted earlier ++ step.remaining = tokens ++ [Symbol.endMarker] := by
    rw [remaining]
    exact builds.read.symm
  refine ⟨?_, ⟨grown earlier [], fun steps later more => carries.standsFor runs taken more, ?_⟩,
    ?_, read, fun _ _ => carries.string_of_shift runs taken,
    fun _ _ _ => carries.string_of_reduce runs taken,
    fun _ => carries.symbols_of_accept runs taken, fun _ => carries.justified runs taken⟩
  · rw [Step.stack, Step.symbols, frames]
    exact carries.stacked.path
  · simpa [builds.tokensOf_grown] using read
  · obtain ⟨productions, named, derived⟩ := reached.derivesLast runs initially (.refl [])
    rw [List.append_nil, List.nil_append, ← carries.labels_eq taken] at derived
    exact ⟨productions, named, derived⟩

/-- A run never fails, however many steps it is given. -/
theorem Carries.runFrom_exists (carries : Carries grammar states before forest)
    (runs : simulator.Runs grammar start states follow) (limit : Nat) :
    ∃ outcome, simulator.runFrom limit before = .ok outcome := by
  induction limit generalizing before forest with
  | zero => exact ⟨none, rfl⟩
  | succ limit inductionHypothesis =>
    obtain ⟨step, next, taken, effect⟩ := carries.step_exists runs
    cases final : step.move.isFinal with
    | true =>
      refine ⟨some (Trace.single step next.arena), ?_⟩
      rw [runFrom, taken]
      exact if_pos final
    | false =>
      obtain ⟨outcome, later⟩ := inductionHypothesis (effect.builds final).carries
      refine ⟨outcome.map (Trace.after step), ?_⟩
      rw [runFrom, taken]
      show (if step.move.isFinal = true then _ else _) = _
      rw [final, if_neg Bool.false_ne_true, later]
      rfl

/-- The steps of a trace are those that the run takes, and its arena is the last one. -/
theorem Runs.step_of_trace (runs : simulator.Runs grammar start states follow) {limit : Nat}
    {input : Input} {trace : Trace} (finished : simulator.run limit input = .ok (some trace))
    {number : Nat} (found : trace.steps[number]? = some step) :
    ∃ before next others last,
      simulator.Reaches (initial input.toTokens) (trace.steps.take number) before ∧
      simulator.step before = .ok (step, next) ∧ simulator.Reaches before others last ∧
      trace.arena = last.arena := by
  obtain ⟨earlier, last, finishes⟩ := runs.finishes finished
  obtain ⟨after, ended⟩ := finishes.taken
  rw [finishes.steps] at found ⊢
  obtain ⟨before, next, front, taken, ⟨_, goes, later⟩ | ⟨_, _, rfl, _⟩⟩ :=
    finishes.reached.step_at ended found
  · exact ⟨before, next, _, last, front, taken, .head taken goes later, finishes.arena⟩
  · exact ⟨before, next, [], before, front, taken, .refl _, finishes.arena⟩

end Steps

end Simulator

namespace Analysis

open Grammar Simulator

/-- Without conflicts no run of an analysis fails, every step that a run comes to can be taken
and keeps the invariant, and the steps of finished runs are such steps. -/
theorem stack_invariant (grammar : Grammar) (plain : grammar.augmented = false)
    (nonempty : grammar.productions ≠ []) :
    ∃ analysis start, Analysis.ofGrammar grammar = .ok analysis ∧
      grammar.startSymbol = some start ∧ (analysis.table.conflicts = [] →
        ∃ simulator, analysis.simulator = .ok simulator ∧ ∀ input : Input,
          (∀ limit, ∃ outcome, analysis.run limit input = .ok outcome) ∧
          (∀ earlier before, simulator.Reaches (initial input.toTokens) earlier before →
            (∃ outcome, simulator.step before = .ok outcome) ∧
            ∀ step next, simulator.step before = .ok (step, next) →
              simulator.Invariant grammar start analysis.states input.toTokens earlier before
                step next) ∧
          ∀ limit trace number step, analysis.run limit input = .ok (some trace) →
            trace.steps[number]? = some step → ∃ before next others last,
              simulator.Reaches (initial input.toTokens) (trace.steps.take number) before ∧
              simulator.step before = .ok (step, next) ∧
              simulator.Reaches before others last ∧ trace.arena = last.arena) := by
  obtain ⟨analysis, start, analysed, started, quietly⟩ := exists_simulator plain nonempty
  refine ⟨analysis, start, analysed, started, fun quiet => ?_⟩
  obtain ⟨simulator, made, runs, _⟩ := quietly quiet
  refine ⟨simulator, made, fun input => ⟨fun limit => ?_, fun earlier before reached => ?_,
    fun limit trace number step finished found => ?_⟩⟩
  · rw [run_of_simulator made]
    exact (initial_carries grammar analysis.states input.toTokens).runFrom_exists runs limit
  · have builds := reached.builds runs (initial_carries grammar _ input.toTokens)
    obtain ⟨step, next, taken, _⟩ := builds.carries.step_exists runs
    exact ⟨⟨_, taken⟩, fun _ _ => reached.invariant runs⟩
  · rw [run_of_simulator made] at finished
    exact runs.step_of_trace finished found

/-- The step that reduces the outer pair of two tokens keeps the invariant. -/
theorem stack_invariant_nested :
    ∃ analysis simulator trace step before next, Analysis.ofGrammar nested = .ok analysis ∧
      analysis.simulator = .ok simulator ∧
      analysis.run 5 (.tokens ["a", "b"]) = .ok (some trace) ∧ trace.steps[3]? = some step ∧
      step.symbols = [none, some "a", some "S", some "b"] ∧ step.remaining = ["$"] ∧
      simulator.Invariant nested "S" analysis.states ["a", "b"] (trace.steps.take 3) before step
        next := by
  obtain ⟨analysis, start, analysed, started, quietly⟩ :=
    stack_invariant nested rfl (List.cons_ne_nil _ _)
  obtain ⟨simulator, made, general⟩ := quietly (nested_quiet analysed)
  obtain ⟨_, kept, taken⟩ := general (.tokens ["a", "b"])
  have evaluated : ((Analysis.ofGrammar nested).toOption.bind fun analysis =>
      (analysis.run 5 (.tokens ["a", "b"])).toOption.join.map fun trace =>
        trace.steps[3]?.map fun step => (step.symbols, step.remaining)) =
      some (some ([none, some "a", some "S", some "b"], ["$"])) := by
    decide +kernel
  rw [analysed] at evaluated
  obtain ⟨trace, finished, read⟩ := Simulator.exists_trace evaluated
  obtain ⟨step, found, shown⟩ := Option.map_eq_some_iff.mp read
  obtain ⟨symbols, remaining⟩ := Prod.mk.inj shown
  obtain ⟨before, next, _, _, reached, here, _⟩ := taken 5 trace 3 step finished found
  have invariant := (kept _ before reached).2 step next here
  rw [← Option.some_inj.mp started] at invariant
  exact ⟨analysis, simulator, trace, step, before, next, analysed, made, finished, found, symbols,
    remaining, invariant⟩

end Analysis

end ShiftReduce
