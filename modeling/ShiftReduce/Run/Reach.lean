/-
This file says which configurations a run comes to and by which steps, also for runs that
never end. The steps of a finished run are those that lead to its last configuration.
-/

import ShiftReduce.Run.Simulator

namespace ShiftReduce

namespace Simulator

/-- Steps that do not end the run lead from one configuration to another. -/
inductive Reaches (simulator : Simulator) : Configuration → List Step → Configuration → Prop
  | refl (configuration : Configuration) : Reaches simulator configuration [] configuration
  | head {first second last : Configuration} {step : Step} {rest : List Step}
      (taken : simulator.step first = .ok (step, second)) (goes : step.move.isFinal = false)
      (later : Reaches simulator second rest last) : Reaches simulator first (step :: rest) last

/-- A trace consists of steps that go on and a step that ends the run. -/
theorem reaches_of_runFrom {simulator : Simulator} {limit : Nat} {first : Configuration}
    {trace : Trace} (finished : simulator.runFrom limit first = .ok (some trace)) :
    ∃ earlier before after, trace.steps = earlier ++ [trace.last] ∧
      simulator.Reaches first earlier before ∧
      simulator.step before = .ok (trace.last, after) ∧ trace.last.move.isFinal = true ∧
      trace.arena = after.arena := by
  induction limit generalizing first trace with
  | zero => cases finished
  | succ limit inductionHypothesis =>
    unfold runFrom at finished
    cases taken : simulator.step first with
    | error fault => rw [taken] at finished; cases finished
    | ok outcome =>
      obtain ⟨step, next⟩ := outcome
      rw [taken] at finished
      simp only [bind, Except.bind] at finished
      split at finished
      · rename_i final
        rw [← Option.some_inj.mp (Except.ok.inj finished)]
        exact ⟨[], first, next, rfl, .refl _, taken, final, rfl⟩
      · rename_i goes
        cases remaining : simulator.runFrom limit next with
        | error fault => rw [remaining] at finished; cases finished
        | ok later =>
          rw [remaining] at finished
          obtain ⟨rest, rfl, rfl⟩ := Option.map_eq_some_iff.mp (Except.ok.inj finished)
          obtain ⟨earlier, before, after, steps, reached, last, final, arena⟩ :=
            inductionHypothesis remaining
          refine ⟨step :: earlier, before, after, ?_, .head taken (by simpa using goes) reached,
            ?_, ?_, arena⟩
          · rw [Trace.last_after, List.cons_append, ← steps]
            rfl
          · simpa using last
          · simpa using final

/-- What was read out of the trace of a run belongs to a finished run. -/
theorem exists_trace {Result : Type} {read : Trace → Result} {result : Result}
    {outcome : Except Fault (Option Trace)}
    (evaluated : outcome.toOption.join.map read = some result) :
    ∃ trace, outcome = .ok (some trace) ∧ read trace = result := by
  obtain ⟨trace, found, same⟩ := Option.map_eq_some_iff.mp evaluated
  cases outcome with
  | error fault => cases found
  | ok finished => exact ⟨trace, congrArg Except.ok found, same⟩

end Simulator

end ShiftReduce
