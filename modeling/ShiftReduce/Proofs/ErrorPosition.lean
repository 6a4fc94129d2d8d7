/-
This file proves that rejections come at the leftmost possible token. What was read before a
rejection starts a sentence, since its stack can be completed. If some sentence also went on
with the next token, its run would read that token, and the run on the rejected input would
make the same moves until then: what lies behind a token is not looked at before the token
has been read.
-/

import ShiftReduce.Proofs.Termination

namespace ShiftReduce

open DerivationTree

namespace Simulator

open Grammar

section Rejected

variable {simulator : Simulator} {grammar : Grammar} {start : Symbol} {states : List State}
  {sets : LookaheadSets} {tokens : List Symbol} {trace : Trace} {earlier : List Step}
  {before : Configuration}

/-- What was read before a run ended starts a sentence. -/
theorem Finishes.read_completes
    (finishes : simulator.Finishes grammar start states tokens trace earlier before)
    (runs : simulator.Runs grammar start states sets.follow)
    (closed : simulator.grammar.ClosedSets sets) (productive : grammar.ReachableProductive) :
    ∃ rest, grammar.IsSentence (shifted earlier ++ rest) := by
  have carries := finishes.builds.carries
  obtain ⟨rest, whole, _, _, belongs, labelled, read, _⟩ :=
    runs.passes_viable closed productive (carries.viable runs) carries.belong
  rw [finishes.builds.tokensOf_grown] at read
  exact ⟨rest, (isSentence_iff runs.augments.started).mpr ⟨whole, belongs, labelled, read⟩⟩

/-- The run on a sentence reads every part of it that stands in front of other tokens, and so
does the run on any input that starts with the part. -/
theorem Runs.reads_front (runs : simulator.Runs grammar start states sets.follow)
    (closed : simulator.grammar.ClosedSets sets) {front rest : List Symbol}
    (sentence : grammar.IsSentence (front ++ rest)) (others : List Symbol) :
    ∃ steps last, simulator.Reaches (initial (front ++ others)) steps last ∧
      shifted steps = front := by
  obtain ⟨tree, belongs, labelled, read⟩ := (isSentence_iff runs.augments.started).mp sentence
  obtain ⟨steps, last, reached, left, _⟩ := runs.reads_root closed belongs labelled
  have split : (initial tree.tokens).remaining = front ++ (rest ++ [Symbol.endMarker]) := by
    show tree.tokens ++ [Symbol.endMarker] = _
    rw [read, List.append_assoc]
  have past : last.remaining.length ≤ (rest ++ [Symbol.endMarker]).length := by
    rw [left, List.length_append]
    exact Nat.le_add_left _ _
  obtain ⟨early, middle, earlyReached, same, ahead⟩ := reached.cut split past
  have nonempty (list : List Symbol) : list ++ [Symbol.endMarker] ≠ [] :=
    List.append_ne_nil_of_right_ne_nil _ (List.cons_ne_nil _ _)
  obtain ⟨twins, _, _, twinsReached, moves⟩ := earlyReached.behind split
    (iff_of_false (nonempty rest) (nonempty others)) ahead
  have builds := earlyReached.builds runs (initial_carries grammar states tree.tokens)
  have readEarly := builds.read
  rw [split, same] at readEarly
  rw [← List.append_assoc] at twinsReached
  refine ⟨twins, _, twinsReached, ?_⟩
  rw [shifted_congr moves, List.append_cancel_right readEarly]

/-- No sentence goes on with the token at which a run ended. -/
theorem Finishes.not_longer
    (finishes : simulator.Finishes grammar start states tokens trace earlier before)
    (runs : simulator.Runs grammar start states sets.follow)
    (closed : simulator.grammar.ClosedSets sets) {front others rest : List Symbol}
    (split : tokens = front ++ others) (longer : (shifted earlier).length < front.length) :
    ¬ grammar.IsSentence (front ++ rest) := by
  intro sentence
  obtain ⟨steps, last, reached, read⟩ := runs.reads_front closed sentence others
  rw [← split] at reached
  obtain ⟨_, taken⟩ := finishes.taken
  have bound := finishes.reached.length_le taken finishes.final reached
  obtain ⟨more, same, _⟩ := reached.continues finishes.reached bound
  simp only [same, shifted_append, read, List.length_append] at longer
  omega

end Rejected

end Simulator

namespace Analysis

open Grammar Simulator

/-- Without conflicts, and if every reachable non-terminal derives a string of terminals, an
input is rejected at the leftmost possible token. The tokens that were read start a sentence,
with the next token behind them they start none, and if there is no next token they are not a
sentence. -/
theorem rejected_leftmost (grammar : Grammar) (plain : grammar.augmented = false)
    (nonempty : grammar.productions ≠ [])
    (productive : ∀ symbol, grammar.isNonTerminal symbol = true → grammar.IsReachable symbol →
      grammar.IsProductive symbol) :
    ∃ analysis, Analysis.ofGrammar grammar = .ok analysis ∧ (analysis.table.conflicts = [] →
      ∀ (limit : Nat) (input : Input) (trace : Trace),
        analysis.run limit input = .ok (some trace) → trace.accepted = false →
        ∀ count, (shifted trace.steps).length = count →
          count ≤ input.toTokens.length ∧ shifted trace.steps = input.toTokens.take count ∧
          trace.last.remaining = input.toTokens.drop count ++ [Symbol.endMarker] ∧
          (∃ rest, grammar.IsSentence (input.toTokens.take count ++ rest)) ∧
          (count < input.toTokens.length →
            ∀ rest, ¬ grammar.IsSentence (input.toTokens.take (count + 1) ++ rest)) ∧
          (count = input.toTokens.length → ¬ grammar.IsSentence input.toTokens)) := by
  obtain ⟨analysis, start, analysed, started, quietly⟩ := exists_runs plain nonempty
  refine ⟨analysis, analysed, fun quiet limit input trace finished rejected count counted => ?_⟩
  obtain ⟨simulator, run, runs, closed⟩ := quietly quiet
  rw [run] at finished
  obtain ⟨earlier, before, finishes⟩ := runs.finishes finished
  rw [finishes.shifted_steps] at counted ⊢
  obtain ⟨more, left, split⟩ := finishes.builds.input
  have front : input.toTokens.take count = shifted earlier := by
    rw [split, ← counted, List.take_left]
  refine ⟨?_, front.symm, ?_, ?_, fun inside rest => ?_, fun whole sentence => ?_⟩
  · rw [split, ← counted, List.length_append]
    exact Nat.le_add_right _ _
  · rw [finishes.remaining, left, split, ← counted, List.drop_left]
  · rw [front]
    exact finishes.read_completes runs closed productive
  · refine finishes.not_longer runs closed (List.take_append_drop (count + 1) _).symm ?_
    rw [counted, List.length_take]
    omega
  · obtain ⟨tree, belongs, labelled, read⟩ := (isSentence_iff started).mp sentence
    obtain ⟨other, _, _, _, accepted, _, done⟩ := runs.accepts closed belongs labelled input read
    rw [run_unique finished (done _ (Nat.le_refl _)), accepted] at rejected
    cases rejected

/-- One pair starts a sentence, but nothing goes on with another "b" behind it. -/
theorem rejected_leftmost_nested :
    ∃ analysis trace, Analysis.ofGrammar nested = .ok analysis ∧
      analysis.run 6 (.tokens ["a", "b", "b"]) = .ok (some trace) ∧ trace.accepted = false ∧
      (shifted trace.steps).length = 2 ∧ trace.last.remaining = ["b", "$"] ∧
      (∃ rest, nested.IsSentence (["a", "b"] ++ rest)) ∧
      ∀ rest, ¬ nested.IsSentence (["a", "b", "b"] ++ rest) := by
  obtain ⟨analysis, analysed, quietly⟩ :=
    rejected_leftmost nested rfl (List.cons_ne_nil _ _) nested_productive
  have evaluated : ((Analysis.ofGrammar nested).toOption.bind fun analysis =>
      (analysis.run 6 (.tokens ["a", "b", "b"])).toOption.join.map fun trace =>
        (trace.accepted, (shifted trace.steps).length)) = some (false, 2) := by
    decide +kernel
  rw [analysed] at evaluated
  obtain ⟨trace, finished, same⟩ := Simulator.exists_trace evaluated
  obtain ⟨rejected, count⟩ := Prod.mk.inj same
  obtain ⟨_, _, left, starts, longer, _⟩ := quietly (nested_quiet analysed) 6
    (.tokens ["a", "b", "b"]) trace finished rejected 2 count
  exact ⟨analysis, trace, analysed, finished, rejected, count, left, starts,
    longer (Nat.lt_succ_self 2)⟩

end Analysis

end ShiftReduce
