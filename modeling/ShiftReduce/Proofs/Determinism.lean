/-
This file compares runs. Two runs from one configuration take the same steps as long as both
go on, so a step that ends a run bounds all others. A step that goes on reads the stack and
the next token, but nothing behind it: with other tokens there it does the same and leaves
them alone. Two inputs therefore make the same moves until the first token in which they may
differ is looked at.
-/

import ShiftReduce.Proofs.Soundness

namespace ShiftReduce

namespace Simulator

section Sequences

variable {simulator : Simulator} {first middle last other : Configuration} {step : Step}
  {steps others : List Step}

/-! ### Sequences of steps -/

theorem Reaches.append (one : simulator.Reaches first steps middle)
    (later : simulator.Reaches middle others last) :
    simulator.Reaches first (steps ++ others) last := by
  induction one with
  | refl => exact later
  | head taken goes _ inductionHypothesis => exact .head taken goes (inductionHypothesis later)

theorem Reaches.single (taken : simulator.step first = .ok (step, last))
    (goes : step.move.isFinal = false) : simulator.Reaches first [step] last :=
  .head taken goes (.refl _)

/-- The step at a place of a run is taken where the steps before it lead. It goes on to the
steps behind it, or it is the last one. -/
theorem Reaches.step_at {ending : Step} (reached : simulator.Reaches first steps last)
    (ended : simulator.step last = .ok (ending, other)) {place : Nat}
    (found : (steps ++ [ending])[place]? = some step) :
    ∃ before next, simulator.Reaches first ((steps ++ [ending]).take place) before ∧
      simulator.step before = .ok (step, next) ∧
      ((place < steps.length ∧ step.move.isFinal = false ∧
          simulator.Reaches next (steps.drop (place + 1)) last) ∨
        (place = steps.length ∧ step = ending ∧ before = last ∧ next = other)) := by
  induction reached generalizing place with
  | refl configuration =>
    cases place with
    | zero =>
      obtain rfl : ending = step := Option.some_inj.mp found
      exact ⟨configuration, other, .refl _, ended, .inr ⟨rfl, rfl, rfl, rfl⟩⟩
    | succ place => cases found
  | @head before next last earlier rest taken goes later inductionHypothesis =>
    cases place with
    | zero =>
      obtain rfl : earlier = step := Option.some_inj.mp found
      exact ⟨before, next, .refl _, taken, .inl ⟨Nat.succ_pos _, goes, later⟩⟩
    | succ place =>
      obtain ⟨here, behind, front, hereTaken, last | last⟩ := inductionHypothesis ended found
      · obtain ⟨inside, hereGoes, left⟩ := last
        exact ⟨here, behind, .head taken goes front, hereTaken,
          .inl ⟨Nat.succ_lt_succ inside, hereGoes, left⟩⟩
      · obtain ⟨rfl, same⟩ := last
        exact ⟨here, behind, .head taken goes front, hereTaken, .inr ⟨rfl, same⟩⟩

/-- The longer of two sequences from one configuration continues the shorter. -/
theorem Reaches.continues (one : simulator.Reaches first steps middle)
    (longer : simulator.Reaches first others last) (shorter : steps.length ≤ others.length) :
    ∃ rest, others = steps ++ rest ∧ simulator.Reaches middle rest last := by
  induction one generalizing others with
  | refl => exact ⟨others, rfl, longer⟩
  | head taken _ _ inductionHypothesis =>
    cases longer with
    | refl => exact absurd shorter (Nat.not_succ_le_zero _)
    | head otherTaken _ later =>
      rw [taken] at otherTaken
      obtain ⟨rfl, rfl⟩ := Prod.mk.inj (Except.ok.inj otherTaken)
      obtain ⟨rest, rfl, reached⟩ := inductionHypothesis later (Nat.le_of_succ_le_succ shorter)
      exact ⟨rest, rfl, reached⟩

/-- No sequence is longer than one that a last step ends. -/
theorem Reaches.length_le (one : simulator.Reaches first steps middle)
    (taken : simulator.step middle = .ok (step, other)) (final : step.move.isFinal = true)
    (any : simulator.Reaches first others last) : others.length ≤ steps.length := by
  refine Nat.le_of_not_lt fun longer => ?_
  obtain ⟨rest, rfl, reached⟩ := one.continues any (Nat.le_of_lt longer)
  cases reached with
  | refl =>
    rw [List.append_nil] at longer
    exact Nat.lt_irrefl _ longer
  | head actual goes _ =>
    rw [taken] at actual
    rw [← (Prod.mk.inj (Except.ok.inj actual)).1, final] at goes
    cases goes

/-- A sequence that a last step ends is a finished run under every larger limit. -/
theorem Reaches.runFrom (one : simulator.Reaches first steps middle)
    (taken : simulator.step middle = .ok (step, other)) (final : step.move.isFinal = true) :
    ∃ trace : Trace, trace.steps = steps ++ [step] ∧ trace.last = step ∧
      ∀ limit ≥ trace.size, simulator.runFrom limit first = .ok (some trace) := by
  induction one with
  | refl =>
    refine ⟨.single step other.arena, rfl, rfl, fun limit enough => ?_⟩
    obtain ⟨below, rfl⟩ := Nat.exists_eq_succ_of_ne_zero (Nat.ne_of_gt enough)
    rw [Simulator.runFrom, taken]
    exact if_pos final
  | @head _ _ _ earlier rest earlierTaken goes _ inductionHypothesis =>
    obtain ⟨trace, same, ending, done⟩ := inductionHypothesis taken
    refine ⟨trace.after earlier, congrArg (earlier :: ·) same, trace.last_after earlier ▸ ending,
      fun limit enough => ?_⟩
    obtain ⟨below, rfl⟩ := Nat.exists_eq_succ_of_ne_zero (Nat.ne_of_gt (Nat.zero_lt_of_lt enough))
    rw [Simulator.runFrom, earlierTaken]
    show (if earlier.move.isFinal = true then _ else _) = _
    rw [goes, if_neg Bool.false_ne_true, done below (Nat.le_of_succ_le_succ enough)]
    rfl

/-- A run that ends under a limit is the same under every larger one. -/
theorem runFrom_mono {limit larger : Nat} {trace : Trace} (enough : limit ≤ larger)
    (finished : simulator.runFrom limit first = .ok (some trace)) :
    simulator.runFrom larger first = .ok (some trace) := by
  induction limit generalizing larger first trace with
  | zero => cases finished
  | succ limit inductionHypothesis =>
    obtain ⟨below, rfl⟩ := Nat.exists_eq_succ_of_ne_zero (Nat.ne_of_gt (Nat.zero_lt_of_lt enough))
    obtain ⟨⟨step, next⟩, taken, rest⟩ := bind_eq_ok_iff.mp finished
    rw [Simulator.runFrom, taken]
    show (if step.move.isFinal = true then _ else _) = _
    change (if step.move.isFinal = true then _ else _) = _ at rest
    cases final : step.move.isFinal with
    | true =>
      rw [final] at rest
      exact rest
    | false =>
      rw [final] at rest
      obtain ⟨later, laterFinished, same⟩ := bind_eq_ok_iff.mp rest
      obtain ⟨others, rfl, rfl⟩ := Option.map_eq_some_iff.mp (Except.ok.inj same)
      rw [if_neg Bool.false_ne_true,
        inductionHypothesis (Nat.le_of_succ_le_succ enough) laterFinished]
      rfl

/-- An input has at most one trace. -/
theorem run_unique {limit other : Nat} {input : Input} {trace trace' : Trace}
    (one : simulator.run limit input = .ok (some trace))
    (another : simulator.run other input = .ok (some trace')) : trace = trace' := by
  have first := runFrom_mono (Nat.le_max_left limit other) one
  rw [runFrom_mono (Nat.le_max_right limit other) another] at first
  exact (Option.some_inj.mp (Except.ok.inj first)).symm

/-! ### Moves alone -/

theorem shifted_congr (same : steps.map Step.move = others.map Step.move) :
    shifted steps = shifted others := by
  have split (list : List Step) : shifted list = (list.map Step.move).filterMap Move.shifted? := by
    rw [List.filterMap_map]
    rfl
  rw [split, split, same]

/-! ### Other tokens behind the next one -/

/-- A step that goes on keeps the next token or reads it, and does the same whatever is behind
that token, unless the token is an end marker that comes too early. -/
theorem step_behind {before next : Configuration} (taken : simulator.step before = .ok (step, next))
    (goes : step.move.isFinal = false) :
    ∃ token rest kept, before.remaining = token :: rest ∧ isMisplaced token rest = false ∧
      kept <:+ [token] ∧ next.remaining = kept ++ rest ∧
      ∀ behind, isMisplaced token behind = false →
        ∃ twin, simulator.step { before with remaining := token :: behind } =
            .ok (twin, { next with remaining := kept ++ behind }) ∧ twin.move = step.move := by
  have proper := proper_of_goes taken goes
  have found := entry_of_step taken proper
  cases taken_of_step taken with
  | shift token rest target more =>
    refine ⟨token, rest, [], more, proper, List.nil_suffix, rfl, fun behind fine => ?_⟩
    have twin : simulator.step { before with remaining := token :: behind } = .ok _ :=
      step_of_perform rfl ((entryFor_of_proper fine).trans found) rfl
    exact ⟨_, twin, rfl⟩
  | reduce token rest named production target more known enough leads earlier =>
    refine ⟨token, rest, [token], more, proper, List.suffix_refl _, more, fun behind fine => ?_⟩
    have reduced : simulator.reduce { before with remaining := token :: behind } production =
        .ok _ := reduce_of_goto rfl enough leads earlier
    have twin : simulator.step { before with remaining := token :: behind } = .ok _ :=
      step_of_perform rfl ((entryFor_of_proper fine).trans found)
        (perform_reduce token behind known reduced)
    exact ⟨_, twin, rfl⟩
  | final _ _ _ _ _ ends =>
    rw [ends] at goes
    cases goes

/-- What is left of the input is the end of what any earlier step had left. -/
theorem Reaches.remaining_suffix (reached : simulator.Reaches first steps last) :
    last.remaining <:+ first.remaining ∧ ∀ step ∈ steps, last.remaining <:+ step.remaining := by
  induction reached with
  | refl => exact ⟨List.suffix_refl _, fun _ none => absurd none List.not_mem_nil⟩
  | @head before _ last _ _ taken goes _ inductionHypothesis =>
    obtain ⟨token, rest, kept, more, _, short, left, _⟩ := step_behind taken goes
    have whole : last.remaining <:+ before.remaining := by
      refine inductionHypothesis.1.trans ?_
      rw [left, more]
      exact List.suffix_append_self_iff.mpr short
    refine ⟨whole, List.forall_mem_cons.mpr ⟨?_, inductionHypothesis.2⟩⟩
    rw [(step_records taken).2.1]
    exact whole

/-- As long as the next token lies in front of a tail of the input, a run makes the same moves
with another tail. Both tails are empty or neither is, so an end marker is misplaced in both inputs
or in none. -/
theorem Reaches.behind (reached : simulator.Reaches first steps last) {front tail : List Symbol}
    (split : first.remaining = front ++ tail) {tail' : List Symbol} (same : tail = [] ↔ tail' = [])
    (ahead : ∀ step ∈ steps, tail.length < step.remaining.length) :
    ∃ twins left, last.remaining = left ++ tail ∧
      simulator.Reaches { first with remaining := front ++ tail' } twins
        { last with remaining := left ++ tail' } ∧
      twins.map Step.move = steps.map Step.move := by
  induction reached generalizing front with
  | refl => exact ⟨[], front, split, .refl _, rfl⟩
  | @head before middle last step rest taken goes _ inductionHypothesis =>
    obtain ⟨token, others, kept, more, proper, _, left, alike⟩ := step_behind taken goes
    have longer := ahead step List.mem_cons_self
    rw [(step_records taken).2.1, split, List.length_append] at longer
    obtain ⟨first, front, rfl⟩ := List.exists_cons_of_ne_nil
      (List.ne_nil_of_length_pos (Nat.pos_of_lt_add_left longer))
    rw [more, List.cons_append] at split
    obtain ⟨rfl, rfl⟩ := List.cons.inj split
    have fine : isMisplaced token (front ++ tail') = false := by
      rw [← Bool.not_eq_true, isMisplaced_iff] at proper ⊢
      rintro ⟨ending, behind⟩
      refine proper ⟨ending, fun none => behind ?_⟩
      obtain ⟨frontNone, tailNone⟩ := List.append_eq_nil_iff.mp none
      rw [frontNone, same.mp tailNone, List.append_nil]
    obtain ⟨twin, twinTaken, move⟩ := alike (front ++ tail') fine
    rw [← List.append_assoc] at left
    obtain ⟨twins, lastLeft, lastSplit, twinsReached, moves⟩ := inductionHypothesis left
      fun other member => ahead other (List.mem_cons_of_mem _ member)
    rw [← List.append_assoc] at twinTaken
    refine ⟨twin :: twins, lastLeft, lastSplit, .head twinTaken ?_ twinsReached, ?_⟩
    · rw [move]
      exact goes
    · rw [List.map_cons, List.map_cons, move, moves]

/-- A run that reads up to a tail of the input has come to the tail before it looked at it. -/
theorem Reaches.cut (reached : simulator.Reaches first steps last) {front tail : List Symbol}
    (split : first.remaining = front ++ tail) (past : last.remaining.length ≤ tail.length) :
    ∃ early middle, simulator.Reaches first early middle ∧ middle.remaining = tail ∧
      ∀ step ∈ early, tail.length < step.remaining.length := by
  induction reached generalizing front with
  | refl configuration =>
    refine ⟨[], configuration, .refl _, ?_, fun _ none => absurd none List.not_mem_nil⟩
    rw [split, List.length_append] at past
    have nothing : front = [] := List.eq_nil_of_length_eq_zero (by omega)
    rw [split, nothing, List.nil_append]
  | @head before next last step rest taken goes _ inductionHypothesis =>
    cases front with
    | nil => exact ⟨[], before, .refl _, split, fun _ none => absurd none List.not_mem_nil⟩
    | cons token front =>
      obtain ⟨token', others, kept, more, _, _, left, _⟩ := step_behind taken goes
      have long : tail.length < before.remaining.length := by
        rw [split, List.length_append, List.length_cons]
        omega
      rw [more, List.cons_append] at split
      rw [(List.cons.inj split).2, ← List.append_assoc] at left
      obtain ⟨early, middle, earlyReached, same, ahead⟩ := inductionHypothesis left past
      refine ⟨step :: early, middle, .head taken goes earlyReached, same,
        List.forall_mem_cons.mpr ⟨?_, ahead⟩⟩
      rw [(step_records taken).2.1]
      exact long

end Sequences

end Simulator

end ShiftReduce
