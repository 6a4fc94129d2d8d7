/-
This file proves that a run accepts nothing but sentences. The steps of a run keep account of
its forest: the trees have the tokens that were read, in order, and their productions in
postorder are the reduced ones. Every step that does not end the run keeps the account, and
so does every run, by induction on its steps. A run that accepts has come to a single tree of
the start symbol with the whole input behind it.
-/

import ShiftReduce.Analysis.Basic
import ShiftReduce.Proofs.Carrying

namespace ShiftReduce

open DerivationTree

namespace Simulator

open Grammar

/-! ### The account of a run -/

/-- What some steps make of a configuration that carries a forest. -/
structure Builds (grammar : Grammar) (states : List State) (before : Configuration)
    (forest : List DerivationTree) (steps : List Step) (after : Configuration) : Prop where
  carries : Carries grammar states after (grown steps forest)
  tokens : tokensOf (grown steps forest) = tokensOf forest ++ shifted steps
  read : before.remaining = shifted steps ++ after.remaining
  productions : (postorderOf (grown steps forest)).map moved =
    (postorderOf forest).map moved ++ reduced steps
  count : steps.length = (shifted steps).length + (reduced steps).length

section Account

variable {simulator : Simulator} {grammar : Grammar} {start : Symbol} {states : List State}
  {follow : SetMap} {before middle after : Configuration} {forest : List DerivationTree}
  {step : Step} {steps first second : List Step}

theorem Builds.refl (carries : Carries grammar states before forest) :
    Builds grammar states before forest [] before where
  carries := carries
  tokens := (List.append_nil _).symm
  read := rfl
  productions := (List.append_nil _).symm
  count := rfl

theorem Builds.trans (one : Builds grammar states before forest first middle)
    (other : Builds grammar states middle (grown first forest) second after) :
    Builds grammar states before forest (first ++ second) after where
  carries := by
    simpa using other.carries
  tokens := by
    simp [other.tokens, one.tokens]
  read := by
    simp [one.read, other.read]
  productions := by
    simp [other.productions, one.productions]
  count := by
    simp only [shifted_append, reduced_append, List.length_append, one.count, other.count]
    omega

/-- A step that does not end the run keeps the account. -/
theorem Effect.builds (effect : Effect grammar start states before forest step after)
    (goes : step.move.isFinal = false) : Builds grammar states before forest [step] after := by
  cases effect with
  | shift token target terminal more move carries =>
    have single : grown [step] forest = forest ++ [.leaf token] := by
      simp [move, Move.grow]
    have read : shifted [step] = [token] := by
      simp [move, Move.shifted?]
    have none : reduced [step] = [] := by
      simp [move, Move.reduced?]
    constructor
    · rw [single]
      exact carries
    · simp [single, read, tokens]
    · rw [read, more, List.singleton_append]
    · simp [single, none, postorder]
    · rw [read, none]
      rfl
  | reduce below children production exposed target member split spelled more move carries =>
    subst split
    have single : grown [step] (below ++ children) = below ++ [.branch production children] := by
      simp [move, Move.grow_reduce spelled]
    have none : shifted [step] = [] := by
      simp [move, Move.shifted?]
    have ended : reduced [step] = [moved production] := by
      simp [move, Move.reduced?]
    constructor
    · rw [single]
      exact carries
    · simp [single, none, tokens]
    · rw [none, more, List.nil_append]
    · simp [single, ended, postorder]
    · rw [none, ended]
      rfl
  | accept _ _ move _ =>
    rw [move] at goes
    cases goes
  | reject _ move _ =>
    rw [move] at goes
    cases goes

/-- All steps that do not end the run keep the account. -/
theorem Reaches.builds (reached : simulator.Reaches before steps after)
    (runs : simulator.Runs grammar start states follow)
    (carries : Carries grammar states before forest) :
    Builds grammar states before forest steps after := by
  induction reached generalizing forest with
  | refl => exact .refl carries
  | head taken goes _ inductionHypothesis =>
    have one := (carries.effect runs taken).builds goes
    exact one.trans (inductionHypothesis one.carries)

/-- From the initial configuration on, the forest has the tokens that were read. -/
theorem Builds.tokensOf_grown {tokens : List Symbol}
    (builds : Builds grammar states (initial tokens) [] steps after) :
    tokensOf (grown steps []) = shifted steps :=
  builds.tokens

/-- From the initial configuration on, the productions of the forest are the reduced ones. -/
theorem Builds.postorderOf_grown {tokens : List Symbol}
    (builds : Builds grammar states (initial tokens) [] steps after) :
    (postorderOf (grown steps [])).map moved = reduced steps :=
  builds.productions

/-- The steps of a run are one for each token and each branch of its forest. -/
theorem Builds.length_eq {tokens : List Symbol}
    (builds : Builds grammar states (initial tokens) [] steps after) :
    steps.length =
      (tokensOf (grown steps [])).length + (postorderOf (grown steps [])).length := by
  rw [builds.count, builds.tokensOf_grown, ← builds.postorderOf_grown, List.length_map]

/-- What was read and what is left make up the input. -/
theorem Builds.input {tokens : List Symbol}
    (builds : Builds grammar states (initial tokens) [] steps after) :
    ∃ more, after.remaining = more ++ [Symbol.endMarker] ∧ tokens = shifted steps ++ more := by
  obtain ⟨more, ended⟩ := builds.carries.ended
  have read := builds.read
  rw [ended, ← List.append_assoc] at read
  exact ⟨more, ended, List.append_cancel_right read⟩

/-- The labels of a carried forest are a viable string. -/
theorem Carries.viable (carries : Carries grammar states before forest)
    (runs : simulator.Runs grammar start states follow) :
    simulator.grammar.IsViable (forest.map symbol) := by
  obtain ⟨number, walked, _⟩ := carries.stacked.walked
  exact (walk_exists_iff runs.augments runs.canonical).mp ⟨number, walked⟩

/-! ### Finished runs -/

/-- A finished run: the steps before the last one, where they lead, and what the last step
does there. -/
structure Finishes (simulator : Simulator) (grammar : Grammar) (start : Symbol)
    (states : List State) (tokens : List Symbol) (trace : Trace) (earlier : List Step)
    (before : Configuration) : Prop where
  steps : trace.steps = earlier ++ [trace.last]
  reached : simulator.Reaches (initial tokens) earlier before
  taken : ∃ after, simulator.step before = .ok (trace.last, after)
  final : trace.last.move.isFinal = true
  builds : Builds grammar states (initial tokens) [] earlier before
  arena : trace.arena = before.arena
  frames : trace.last.frames = before.frames
  left : trace.last.left = before.frames
  remaining : trace.last.remaining = before.remaining
  ending : trace.last.move = .accept start ∧ before.remaining = [Symbol.endMarker] ∧
      (grown earlier []).map symbol = [start] ∨
    ∃ cause, trace.last.move = .reject cause

theorem Runs.finishes (runs : simulator.Runs grammar start states follow) {limit : Nat}
    {input : Input} {trace : Trace} (finished : simulator.run limit input = .ok (some trace)) :
    ∃ earlier before,
      simulator.Finishes grammar start states input.toTokens trace earlier before := by
  obtain ⟨earlier, before, after, steps, reached, taken, final, arena⟩ :=
    reaches_of_runFrom finished
  have builds := reached.builds runs (initial_carries grammar states input.toTokens)
  obtain ⟨frames, remaining, left⟩ := step_records taken
  refine ⟨earlier, before, ?_⟩
  cases builds.carries.effect runs taken with
  | shift _ _ _ _ move _ =>
    rw [move] at final
    cases final
  | reduce _ _ _ _ _ _ _ _ _ move _ =>
    rw [move] at final
    cases final
  | accept ended whole move same =>
    rw [same] at arena left
    exact ⟨steps, reached, ⟨_, taken⟩, final, builds, arena, frames, left, remaining,
      .inl ⟨move, ended, whole⟩⟩
  | reject cause move same =>
    rw [same] at arena left
    exact ⟨steps, reached, ⟨_, taken⟩, final, builds, arena, frames, left, remaining,
      .inr ⟨cause, move⟩⟩

section Finished

variable {tokens : List Symbol} {trace : Trace} {earlier : List Step}

/-- A finished run takes one step more than it needs to come to its end. -/
theorem Finishes.size
    (finishes : simulator.Finishes grammar start states tokens trace earlier before) :
    trace.size = earlier.length + 1 := by
  rw [Trace.size, finishes.steps, List.length_append, List.length_singleton]

/-- The last step of a run reads nothing. -/
theorem Finishes.shifted_steps
    (finishes : simulator.Finishes grammar start states tokens trace earlier before) :
    shifted trace.steps = shifted earlier := by
  simp [finishes.steps, (Move.quiet_of_final finishes.final).1]

/-- The last step of a run reduces nothing. -/
theorem Finishes.reduced_steps
    (finishes : simulator.Finishes grammar start states tokens trace earlier before) :
    reduced trace.steps = reduced earlier := by
  simp [finishes.steps, (Move.quiet_of_final finishes.final).2]

end Finished

end Account

end Simulator

/-! ### Accepted inputs -/

/-- An accepting trace and the only tree on its stack: the tree derives the tokens from the
start symbol, and every node of the arena holds a tree of the grammar. -/
structure Trace.Derives (trace : Trace) (grammar : Grammar) (states : List State)
    (start : Symbol) (tokens : List Symbol) (root : Nat) (tree : DerivationTree) : Prop where
  stack : ∃ next : Nat, State.next states 0 start = some next ∧ trace.last.stack = [0, (next : Int)]
  forest : trace.last.forest = [root]
  only : trace.tree = .ok (some root)
  holds : trace.arena.Holds root tree
  belongs : tree.Belongs grammar
  labelled : tree.symbol = start
  read : tree.tokens = tokens
  leaves : trace.arena.leaves root = .ok tokens
  nodes : ∀ id < trace.arena.size,
    ∃ other, DerivationTree.Belongs grammar other ∧ trace.arena.Holds id other

namespace Analysis

/-- An analysis consists of the results of its stages. -/
theorem ofGrammar_of_stages {grammar augmented : Grammar} {sets : LookaheadSets}
    {states : List State} {table : Table} (nonempty : grammar.productions ≠ [])
    (augmentedFound : grammar.augment = .ok augmented)
    (setsFound : augmented.lookaheadSets = .ok sets)
    (statesFound : augmented.automaton = .ok states)
    (built : Table.build augmented states sets.follow = .ok table) :
    Analysis.ofGrammar grammar = .ok ⟨grammar, augmented, sets, states, table⟩ := by
  have sized : grammar.size ≠ 0 := fun none => nonempty (List.eq_nil_of_length_eq_zero none)
  rw [ofGrammar, if_neg sized, augmentedFound]
  show (augmented.lookaheadSets >>= _) = _
  rw [setsFound]
  show ((liftM augmented.automaton : Except Fault (List State)) >>= _) = _
  rw [statesFound]
  show (Table.build augmented states sets.follow >>= _) = _
  rw [built]
  rfl

end Analysis

/-! ### A grammar of nested pairs -/

namespace Grammar

/-- Some "a"s in front of as many "b"s. -/
def nested : Grammar :=
  ⟨[⟨0, "S", ["a", "S", "b"]⟩, ⟨1, "S", []⟩], false, (faultOf_eq_none_iff _ _).mp (by decide)⟩

theorem nested_quiet {analysis : Analysis} (analysed : Analysis.ofGrammar nested = .ok analysis) :
    analysis.table.conflicts = [] := by
  have evaluated : ((Analysis.ofGrammar nested).toOption.map fun analysis =>
      analysis.table.conflicts) = some [] := by
    decide +kernel
  rw [analysed] at evaluated
  exact Option.some_inj.mp evaluated

end Grammar

namespace Simulator

open Grammar

variable {simulator : Simulator} {grammar : Grammar} {start : Symbol} {states : List State}
  {follow : SetMap}

theorem Finishes.derives {tokens : List Symbol} {trace : Trace} {earlier : List Step}
    {before : Configuration}
    (finishes : simulator.Finishes grammar start states tokens trace earlier before)
    (accepted : trace.accepted = true) :
    ∃ root tree, trace.Derives grammar states start tokens root tree ∧
      grown earlier [] = [tree] := by
  have builds := finishes.builds
  have carries := builds.carries
  rcases finishes.ending with ⟨move, ended, whole⟩ | ⟨cause, move⟩
  · obtain ⟨tree, single, labelled⟩ := List.map_eq_singleton_iff.mp whole
    have read : tokens = shifted earlier := by
      have all := builds.read
      rw [ended] at all
      exact List.append_cancel_right all
    have same : tree.tokens = tokens := by
      simp [read, ← builds.tokensOf_grown, single]
    have belongs : tree.Belongs grammar := by
      refine carries.belong tree ?_
      rw [single]
      exact List.mem_cons_self
    have stacked : Stacked states before.arena before.frames ([] ++ [tree]) := by
      rw [List.nil_append, ← single]
      exact carries.stacked
    obtain ⟨number, node, rest, frames, walked, holds, empty⟩ := stacked.last
    rw [empty.frames_eq_nil] at frames
    have forest : trace.last.forest = [node] := by
      rw [Step.forest, finishes.left, frames]
      rfl
    rw [← finishes.arena] at holds
    refine ⟨node, tree, ⟨⟨number, ?_, ?_⟩, forest, ?_, holds, belongs, labelled, same, ?_, ?_⟩,
      single⟩
    · rw [List.nil_append, List.map_singleton, labelled, ← List.nil_append [start],
        State.walk_concat] at walked
      exact walked
    · rw [Step.stack, finishes.frames, frames]
      rfl
    · rw [Trace.tree, if_pos accepted, forest]
    · rw [← same]
      refine Arena.leaves_of_holds ?_ holds belongs
      rw [finishes.arena]
      exact carries.downward
    · rw [finishes.arena]
      exact carries.nodes
  · rw [Trace.accepted, move] at accepted
    cases accepted

theorem ofTable_exists {augmented : Grammar} {table : Table}
    (flagged : augmented.augmented = true) (quiet : table.conflicts = []) :
    Simulator.ofTable augmented table = .ok ⟨augmented, table, flagged, quiet⟩ := by
  rw [ofTable, dif_pos flagged, dif_pos quiet]

/-- With any lookahead sets for all heads, the table of the augmentation of a grammar exists.
Without conflicts its simulator accepts an input only with a tree that derives the input. -/
theorem accepted_derives (grammar : Grammar) (plain : grammar.augmented = false)
    (nonempty : grammar.productions ≠ []) :
    ∃ augmented start states sets, grammar.augment = .ok augmented ∧
      grammar.startSymbol = some start ∧ augmented.automaton = .ok states ∧
      augmented.lookaheadSets = .ok sets ∧ augmented.CoversHeads sets.follow ∧
      ∀ follow, augmented.CoversHeads follow →
        ∃ table, Table.build augmented states follow = .ok table ∧
          (table.conflicts = [] →
            ∃ simulator, Simulator.ofTable augmented table = .ok simulator ∧
              ∀ limit input trace, simulator.run limit input = .ok (some trace) →
                trace.accepted = true →
                (∃ root tree, trace.Derives grammar states start input.toTokens root tree) ∧
                  grammar.IsSentence input.toTokens) := by
  obtain ⟨augmented, start, augmentedFound, augments⟩ := augment_exists plain nonempty
  obtain ⟨states, statesFound, canonical⟩ := automaton_exists augments.flagged
  obtain ⟨sets, setsFound, closed⟩ := augmented.lookaheadSets_exists
  refine ⟨augmented, start, states, sets, augmentedFound, augments.started, statesFound, setsFound,
    closed.covers, fun follow covers => ?_⟩
  obtain ⟨table, built, fills⟩ := Table.build_exists augments.flagged canonical covers
  rw [augments.startOf_eq] at canonical fills
  refine ⟨table, built, fun quiet => ⟨_, ofTable_exists augments.flagged quiet,
    fun limit input trace finished accepted => ?_⟩⟩
  have runs : Runs ⟨augmented, table, augments.flagged, quiet⟩ grammar start states follow :=
    ⟨augments, canonical, fills⟩
  obtain ⟨earlier, before, finishes⟩ := runs.finishes finished
  obtain ⟨root, tree, derives, _⟩ := finishes.derives accepted
  exact ⟨⟨root, tree, derives⟩, (isSentence_iff augments.started).mpr
    ⟨tree, derives.belongs, derives.labelled, derives.read⟩⟩

/-- The theorem at work on two tokens, with the FOLLOW sets of the grammar. -/
theorem accepted_derives_nested :
    ∃ augmented states sets table simulator trace root tree,
      nested.augment = .ok augmented ∧ augmented.automaton = .ok states ∧
      augmented.lookaheadSets = .ok sets ∧ Table.build augmented states sets.follow = .ok table ∧
      Simulator.ofTable augmented table = .ok simulator ∧
      simulator.run 5 (.tokens ["a", "b"]) = .ok (some trace) ∧
      trace.Derives nested states "S" ["a", "b"] root tree := by
  obtain ⟨augmented, start, states, sets, augmentedFound, started, statesFound, setsFound, covers,
    general⟩ := accepted_derives nested rfl (List.cons_ne_nil _ _)
  obtain ⟨table, built, quietly⟩ := general sets.follow covers
  have analysed := Analysis.ofGrammar_of_stages (List.cons_ne_nil _ _) augmentedFound setsFound
    statesFound built
  have quiet := nested_quiet analysed
  obtain ⟨simulator, made, accepts⟩ := quietly quiet
  have evaluated : ((Analysis.ofGrammar nested).toOption.bind fun analysis =>
      (analysis.run 5 (.tokens ["a", "b"])).toOption.join.map Trace.accepted) = some true := by
    decide +kernel
  rw [analysed] at evaluated
  obtain ⟨trace, finished, accepted⟩ := Simulator.exists_trace evaluated
  have run : simulator.run 5 (.tokens ["a", "b"]) = .ok (some trace) := by
    rw [Analysis.run, Analysis.simulator, made] at finished
    exact finished
  obtain ⟨⟨root, tree, derives⟩, _⟩ := accepts 5 (.tokens ["a", "b"]) trace run accepted
  rw [← Option.some_inj.mp started] at derives
  exact ⟨augmented, states, sets, table, simulator, trace, root, tree, augmentedFound, statesFound,
    setsFound, built, made, run, derives⟩

end Simulator

end ShiftReduce
