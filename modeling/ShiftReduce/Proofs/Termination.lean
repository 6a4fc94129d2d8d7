/-
This file proves that runs end, if every reachable non-terminal derives a string of
terminals. A reduction may add to the stack without reading anything, so no measure falls.
Instead, the trees that can lie on a stack over given tokens are bounded: every stack can be
completed to a sentence, and on the way to two stacks over the same tokens, in front of the
same next token, the runs on both sentences make the same moves. Whichever sentence is taken,
its run ends, and so there are no more moves to any of these stacks.
-/

import Mathlib.Algebra.Order.BigOperators.Group.List
import ShiftReduce.Proofs.Completion

namespace ShiftReduce

open DerivationTree

namespace Simulator

open Grammar

/-! ### Runs with the same next token -/

section Bounds

variable {simulator : Simulator} {grammar : Grammar} {start : Symbol} {states : List State}
  {sets : LookaheadSets}

theorem Passes.ends {forest : List DerivationTree} {rest : List Symbol}
    (passes : simulator.Passes grammar start forest rest) :
    Ends grammar (rest ++ [Symbol.endMarker]) := by
  obtain ⟨_, _, _, belongs, _, read, _⟩ := passes
  exact (ends_endMarker grammar).append fun _ member =>
    belongs.terminal (read ▸ List.mem_append_right _ member)

/-- The run that comes to a forest has one step for each token and each branch of it, and makes
the same moves on any other sentence with the same tokens and the same next token. -/
theorem Passes.moves {forest : List DerivationTree} {rest : List Symbol}
    (passes : simulator.Passes grammar start forest rest)
    (runs : simulator.Runs grammar start states sets.follow) {rest' : List Symbol}
    (ends : Ends grammar (rest' ++ [Symbol.endMarker]))
    (same : opener (rest ++ [Symbol.endMarker]) = opener (rest' ++ [Symbol.endMarker])) :
    ∃ steps last, simulator.Reaches (initial (tokensOf forest ++ rest')) steps last ∧
      steps.length = (tokensOf forest).length + (postorderOf forest).length := by
  obtain ⟨token, tail, split, empty, _⟩ := passes.ends.next
  obtain ⟨whole, steps, next, _, _, read, reached, left, built⟩ := passes
  have builds := reached.builds runs (initial_carries grammar states whole.tokens)
  have count := builds.length_eq
  rw [built] at count
  obtain ⟨token', tail', split', empty', _⟩ := ends.next
  obtain rfl : token = token' := by
    rw [split, split'] at same
    exact same
  have ahead : ∀ step ∈ steps, tail.length < step.remaining.length := by
    intro step member
    have kept := (reached.remaining_suffix.2 step member).length_le
    rw [left, split, List.length_cons] at kept
    exact kept
  have front : (initial whole.tokens).remaining = (tokensOf forest ++ [token]) ++ tail := by
    show whole.tokens ++ [Symbol.endMarker] = _
    rw [read, List.append_assoc, split, List.append_assoc, List.singleton_append]
  obtain ⟨twins, twinLeft, _, twinsReached, moves⟩ :=
    reached.behind front (empty.trans empty'.symm) ahead
  rw [List.append_assoc, List.singleton_append, ← split', ← List.append_assoc] at twinsReached
  refine ⟨twins, _, twinsReached, ?_⟩
  have lengths := congrArg List.length moves
  rw [List.length_map, List.length_map] at lengths
  rw [lengths, count]

/-- The trees over some tokens are bounded, as far as they can be completed in front of one
next token: the run on a sentence that completes one such forest bounds all of them. -/
theorem Runs.bounded_before (runs : simulator.Runs grammar start states sets.follow)
    (closed : simulator.grammar.ClosedSets sets) (string : List Symbol) (token : Symbol) :
    ∃ bound, ∀ forest rest, simulator.Passes grammar start forest rest →
      tokensOf forest = string → opener (rest ++ [Symbol.endMarker]) = token →
      (postorderOf forest).length ≤ bound := by
  by_cases some : ∃ forest rest, simulator.Passes grammar start forest rest ∧
      tokensOf forest = string ∧ opener (rest ++ [Symbol.endMarker]) = token
  · obtain ⟨_, rest', known, same, next⟩ := some
    have ends := known.ends
    obtain ⟨whole, _, _, belongs, labelled, read, _⟩ := known
    obtain ⟨_, earlier, _, finishes, _⟩ :=
      runs.accepts closed belongs labelled (.tokens whole.tokens) rfl
    obtain ⟨_, taken⟩ := finishes.taken
    refine ⟨earlier.length, fun forest rest passes tokens opens => ?_⟩
    obtain ⟨steps, last, reached, count⟩ := passes.moves runs ends (opens.trans next.symm)
    rw [tokens, ← same, ← read] at reached
    have bound := finishes.reached.length_le taken finishes.final reached
    omega
  · exact ⟨0, fun forest rest passes tokens opens =>
      absurd ⟨forest, rest, passes, tokens, opens⟩ some⟩

/-- The trees that can lie on a stack over some tokens are bounded. -/
theorem Runs.bounded (runs : simulator.Runs grammar start states sets.follow)
    (closed : simulator.grammar.ClosedSets sets) (productive : grammar.ReachableProductive)
    (string : List Symbol) :
    ∃ bound, ∀ forest, AllBelong grammar forest →
      simulator.grammar.IsViable (forest.map symbol) → tokensOf forest = string →
      (postorderOf forest).length ≤ bound := by
  obtain ⟨bound, holds⟩ := Classical.skolem.mp (runs.bounded_before closed string)
  refine ⟨((Table.columns grammar).map bound).sum, fun forest belong viable tokens => ?_⟩
  obtain ⟨rest, passes⟩ := runs.passes_viable closed productive viable belong
  have next : opener (rest ++ [Symbol.endMarker]) ∈ Table.columns grammar := by
    obtain ⟨token, others, split, _, column⟩ := passes.ends.next
    rw [split]
    exact Table.mem_columns.mpr column
  exact (holds _ forest rest passes tokens rfl).trans
    (List.le_sum_of_mem (List.mem_map_of_mem next))

/-- The steps of all runs on an input are bounded. -/
theorem Runs.steps_bounded (runs : simulator.Runs grammar start states sets.follow)
    (closed : simulator.grammar.ClosedSets sets) (productive : grammar.ReachableProductive)
    (tokens : List Symbol) :
    ∃ bound, ∀ steps last, simulator.Reaches (initial tokens) steps last →
      steps.length ≤ bound := by
  obtain ⟨bound, holds⟩ := Classical.skolem.mp (runs.bounded closed productive)
  refine ⟨tokens.length + ((List.range (tokens.length + 1)).map fun count =>
    bound (tokens.take count)).sum, fun steps last reached => ?_⟩
  have builds := reached.builds runs (initial_carries grammar states tokens)
  have carries := builds.carries
  obtain ⟨more, _, split⟩ := builds.input
  have inside : (shifted steps).length ≤ tokens.length := by
    rw [split, List.length_append]
    exact Nat.le_add_right _ _
  have start : tokens.take (shifted steps).length = shifted steps := by
    rw [split, List.take_left]
  have few := holds (shifted steps) _ carries.belong (carries.viable runs) builds.tokensOf_grown
  have listed : bound (shifted steps) ∈ (List.range (tokens.length + 1)).map fun count =>
      bound (tokens.take count) :=
    List.mem_map.mpr ⟨(shifted steps).length, List.mem_range.mpr (Nat.lt_succ_of_le inside),
      congrArg bound start⟩
  rw [builds.length_eq, builds.tokensOf_grown]
  exact Nat.add_le_add inside (few.trans (List.le_sum_of_mem listed))

/-! ### The end of a run -/

/-- A run takes any number of steps or ends before. -/
theorem Carries.runs_on {follow : SetMap} {configuration : Configuration}
    {forest : List DerivationTree} (carries : Carries grammar states configuration forest)
    (runs : simulator.Runs grammar start states follow) (count : Nat) :
    (∃ steps last, simulator.Reaches configuration steps last ∧ steps.length = count) ∨
      ∃ steps last step next, simulator.Reaches configuration steps last ∧
        simulator.step last = .ok (step, next) ∧ step.move.isFinal = true := by
  induction count with
  | zero => exact .inl ⟨[], configuration, .refl _, rfl⟩
  | succ count inductionHypothesis =>
    rcases inductionHypothesis with ⟨steps, last, reached, length⟩ | ended
    · obtain ⟨step, next, taken, _⟩ := (reached.builds runs carries).carries.step_exists runs
      cases final : step.move.isFinal with
      | true => exact .inr ⟨steps, last, step, next, reached, taken, final⟩
      | false =>
        refine .inl ⟨steps ++ [step], next, reached.append (.single taken final), ?_⟩
        rw [List.length_append, length, List.length_singleton]
    · exact .inr ended

/-- Every run ends. -/
theorem Runs.ends (runs : simulator.Runs grammar start states sets.follow)
    (closed : simulator.grammar.ClosedSets sets) (productive : grammar.ReachableProductive)
    (input : Input) :
    ∃ trace : Trace, trace.last.move.isFinal = true ∧
      ∀ limit ≥ trace.size, simulator.run limit input = .ok (some trace) := by
  obtain ⟨bound, bounded⟩ := runs.steps_bounded closed productive input.toTokens
  have carries := initial_carries grammar states input.toTokens
  rcases carries.runs_on runs (bound + 1) with ⟨steps, last, reached, length⟩ | ended
  · have small := bounded steps last reached
    omega
  · obtain ⟨steps, last, step, next, reached, taken, final⟩ := ended
    obtain ⟨trace, _, ending, done⟩ := reached.runFrom taken final
    exact ⟨trace, by rw [ending, final], done⟩

end Bounds

end Simulator

namespace Analysis

open Grammar

/-- If every reachable non-terminal derives a string of terminals and the table is without
conflicts, the run on every input ends in acceptance or in a rejection. -/
theorem run_ends (grammar : Grammar) (plain : grammar.augmented = false)
    (nonempty : grammar.productions ≠ [])
    (productive : ∀ symbol, grammar.isNonTerminal symbol = true → grammar.IsReachable symbol →
      grammar.IsProductive symbol) :
    ∃ analysis, Analysis.ofGrammar grammar = .ok analysis ∧ (analysis.table.conflicts = [] →
      ∀ input : Input, ∃ trace : Trace,
        ((∃ start, trace.last.move = .accept start) ∨ ∃ cause, trace.last.move = .reject cause) ∧
          ∀ limit ≥ trace.size, analysis.run limit input = .ok (some trace)) := by
  obtain ⟨analysis, start, analysed, _, quietly⟩ := exists_runs plain nonempty
  refine ⟨analysis, analysed, fun quiet input => ?_⟩
  obtain ⟨simulator, run, runs, closed⟩ := quietly quiet
  obtain ⟨trace, final, done⟩ := runs.ends closed productive input
  refine ⟨trace, ?_, fun limit enough => (run limit input).trans (done limit enough)⟩
  cases move : trace.last.move with
  | accept start => exact .inl ⟨start, rfl⟩
  | reject cause => exact .inr ⟨cause, rfl⟩
  | shift token next =>
    rw [move] at final
    cases final
  | reduce production exposed target =>
    rw [move] at final
    cases final

theorem nested_productive (symbol : Symbol) (nonTerminal : nested.isNonTerminal symbol = true)
    (_ : nested.IsReachable symbol) : nested.IsProductive symbol := by
  obtain ⟨production, headed⟩ := isNonTerminal_iff_exists.mp nonTerminal
  obtain ⟨member, rfl⟩ := mem_productionsFor.mp headed
  have same : production.head = "S" := by
    rcases List.mem_cons.mp member with rfl | second
    · rfl
    · rw [List.mem_singleton.mp second]
  have last : (⟨1, "S", []⟩ : Production) ∈ nested.productions :=
    List.mem_cons_of_mem _ List.mem_cons_self
  rw [same]
  exact ⟨[], fun _ none => absurd none List.not_mem_nil, Derives.single last⟩

/-- The run on a misplaced end marker ends. -/
theorem run_ends_nested :
    ∃ analysis trace, Analysis.ofGrammar nested = .ok analysis ∧
      ((∃ start, trace.last.move = .accept start) ∨ ∃ cause, trace.last.move = .reject cause) ∧
      ∀ limit ≥ trace.size, analysis.run limit (.tokens ["a", "$", "b"]) = .ok (some trace) := by
  obtain ⟨analysis, analysed, quietly⟩ :=
    run_ends nested rfl (List.cons_ne_nil _ _) nested_productive
  obtain ⟨trace, ending, done⟩ :=
    quietly (nested_quiet analysed) (.tokens ["a", "$", "b"])
  exact ⟨analysis, trace, analysed, ending, done⟩

end Analysis

end ShiftReduce
