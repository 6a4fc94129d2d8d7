/-
This file proves that a run does not see the tokens behind the next one. Two inputs that are the
same up to some token and have something behind it are told apart by nothing that is done before
that token is shifted: not by an entry, since an end marker in front of other tokens is refused in
both, nor by what is done about it. Both runs then take the same steps, also if they never come
to shift the token: they end alike, fail alike, or go on alike.
-/

import ShiftReduce.Proofs.Traces

namespace ShiftReduce

/-! ### Computations that concur -/

/-- Two computations fail by the same fault, or succeed with related results. -/
inductive Concurs {Value Twin : Type} (Related : Value → Twin → Prop) :
    Except Fault Value → Except Fault Twin → Prop
  | fails (fault : Fault) : Concurs Related (.error fault) (.error fault)
  | succeeds {value : Value} {twin : Twin} (related : Related value twin) :
      Concurs Related (.ok value) (.ok twin)

theorem Concurs.refl {Value : Type} (outcome : Except Fault Value) :
    Concurs Eq outcome outcome := by
  cases outcome with
  | error fault => exact .fails fault
  | ok value => exact .succeeds rfl

/-- Two computations in two parts concur if both parts do. -/
theorem Concurs.bind {Value Twin Result TwinResult : Type} {Related : Value → Twin → Prop}
    {Goal : Result → TwinResult → Prop} {first : Except Fault Value} {twin : Except Fault Twin}
    {next : Value → Except Fault Result} {twinNext : Twin → Except Fault TwinResult}
    (here : Concurs Related first twin)
    (later : ∀ value other, Related value other → Concurs Goal (next value) (twinNext other)) :
    Concurs Goal (first >>= next) (twin >>= twinNext) := by
  cases here with
  | fails fault => exact .fails fault
  | succeeds related => exact later _ _ related

/-- A computation and itself, gone on with in two ways. -/
theorem Concurs.bind_same {Value Result TwinResult : Type} {Goal : Result → TwinResult → Prop}
    (first : Except Fault Value) {next : Value → Except Fault Result}
    {twinNext : Value → Except Fault TwinResult}
    (later : ∀ value, Concurs Goal (next value) (twinNext value)) :
    Concurs Goal (first >>= next) (first >>= twinNext) :=
  (Concurs.refl first).bind fun value _ same => same ▸ later value

theorem Concurs.eq_of_error {Value Twin : Type} {Related : Value → Twin → Prop} {fault : Fault}
    {other : Except Fault Twin} (concurs : Concurs Related (.error fault) other) :
    other = .error fault := by
  cases concurs with
  | fails _ => rfl

theorem Concurs.exists_of_ok {Value Twin : Type} {Related : Value → Twin → Prop} {value : Value}
    {other : Except Fault Twin} (concurs : Concurs Related (.ok value) other) :
    ∃ twin, other = .ok twin ∧ Related value twin := by
  cases concurs with
  | succeeds related => exact ⟨_, rfl, related⟩

/-! ### Tails of the input -/

/-- Steps that are the same but for the tails behind the tokens that both have in common. -/
def Step.SameBefore (tail twinTail : List Symbol) (step twin : Step) : Prop :=
  ∃ ahead, step.rest = ahead ++ tail ∧ twin = { step with rest := ahead ++ twinTail }

/-- Configurations that are the same but for the tails of what is left of their inputs. -/
def Configuration.SameBefore (tail twinTail : List Symbol) (one twin : Configuration) : Prop :=
  ∃ front, one.remaining = front ++ tail ∧ twin = { one with remaining := front ++ twinTail }

/-- In front of the tails both have the same next token. -/
theorem Configuration.SameBefore.exists_token {tail twinTail : List Symbol}
    {one twin : Configuration} (same : one.SameBefore tail twinTail twin)
    (unread : tail.length < one.remaining.length) :
    ∃ token ahead, one.remaining = token :: (ahead ++ tail) ∧
      twin = { one with remaining := token :: (ahead ++ twinTail) } := by
  obtain ⟨front, split, rfl⟩ := same
  cases front with
  | nil =>
    rw [split] at unread
    exact absurd unread (Nat.lt_irrefl _)
  | cons token ahead => exact ⟨token, ahead, split, rfl⟩

/-- Traces of steps that are the same but for the tails of the input, with the same nodes. -/
structure Trace.SameBefore (tail twinTail : List Symbol) (trace twin : Trace) : Prop where
  steps : List.Forall₂ (Step.SameBefore tail twinTail) trace.steps twin.steps
  arena : trace.arena = twin.arena

namespace Simulator

section Steps

variable {simulator : Simulator} {one twin : Configuration} {tail twinTail : List Symbol}

/-- The moves are the same, and the configurations behind them are so but for the tails. -/
def MovesAlike (tail twinTail : List Symbol) (outcome other : Move × Configuration) : Prop :=
  outcome.1 = other.1 ∧ outcome.2.SameBefore tail twinTail other.2

/-- The same for the steps and the configurations behind them. -/
def StepsAlike (tail twinTail : List Symbol) (outcome other : Step × Configuration) : Prop :=
  outcome.1.SameBefore tail twinTail other.1 ∧ outcome.2.SameBefore tail twinTail other.2

/-- A reduction does not look at the input. -/
theorem reduce_concurs (same : one.SameBefore tail twinTail twin) (production : Production) :
    Concurs (MovesAlike tail twinTail) (simulator.reduce one production)
      (simulator.reduce twin production) := by
  obtain ⟨front, split, rfl⟩ := same
  unfold reduce
  dsimp only
  split
  · refine Concurs.bind_same _ fun found => ?_
    cases found with
    | none => exact .succeeds ⟨rfl, front, split, rfl⟩
    | some target =>
      exact Concurs.bind_same _ fun arena => .succeeds ⟨rfl, front, split, rfl⟩
  · refine Concurs.bind_same _ fun exposed => Concurs.bind_same _ fun found => ?_
    cases found with
    | none => exact .succeeds ⟨rfl, front, split, rfl⟩
    | some target => exact .fails _

theorem isMisplaced_append (token : Symbol) (ahead : List Symbol) (nonempty : tail ≠ []) :
    isMisplaced token (ahead ++ tail) = (token == Symbol.endMarker) := by
  have more : (ahead ++ tail).isEmpty = false :=
    List.isEmpty_eq_false_iff.mpr (List.append_ne_nil_of_right_ne_nil ahead nonempty)
  rw [isMisplaced, more, Bool.not_false, Bool.and_true]

/-- The same is done about an entry, whatever lies behind the next token. -/
theorem perform_concurs {token : Symbol} {ahead : List Symbol}
    (split : one.remaining = token :: (ahead ++ tail)) (nonempty : tail ≠ [])
    (twinNonempty : twinTail ≠ []) (entry : Entry) :
    Concurs (MovesAlike tail twinTail) (simulator.perform one token (ahead ++ tail) entry)
      (simulator.perform { one with remaining := token :: (ahead ++ twinTail) } token
        (ahead ++ twinTail) entry) := by
  have same : one.SameBefore tail twinTail
      { one with remaining := token :: (ahead ++ twinTail) } := ⟨token :: ahead, split, rfl⟩
  cases entry with
  | shift next => exact .succeeds ⟨rfl, ahead, rfl, rfl⟩
  | reduce named => exact Concurs.bind_same _ fun production => reduce_concurs same production
  | accept => exact Concurs.bind_same _ fun move => .succeeds ⟨rfl, same⟩
  | error =>
    have rejects : simulator.reject { one with remaining := token :: (ahead ++ twinTail) } token
        (ahead ++ twinTail) = simulator.reject one token (ahead ++ tail) := by
      rw [reject, reject, isMisplaced_append token ahead nonempty,
        isMisplaced_append token ahead twinNonempty]
    show Concurs _ (simulator.reject one token (ahead ++ tail) >>= _)
      (simulator.reject _ token (ahead ++ twinTail) >>= _)
    rw [rejects]
    exact Concurs.bind_same _ fun move => .succeeds ⟨rfl, same⟩

/-- A step sees the next token and that there is something behind it, and nothing else of the
input. -/
theorem step_concurs (simulator : Simulator) {token : Symbol} {ahead : List Symbol}
    (split : one.remaining = token :: (ahead ++ tail)) (nonempty : tail ≠ [])
    (twinNonempty : twinTail ≠ []) :
    Concurs (StepsAlike tail twinTail) (simulator.step one)
      (simulator.step { one with remaining := token :: (ahead ++ twinTail) }) := by
  have entries : simulator.entryFor { one with remaining := token :: (ahead ++ twinTail) } token
      (ahead ++ twinTail) = simulator.entryFor one token (ahead ++ tail) := by
    rw [entryFor, entryFor, isMisplaced_append token ahead nonempty,
      isMisplaced_append token ahead twinNonempty]
  unfold Simulator.step
  rw [split]
  dsimp only
  rw [entries]
  refine Concurs.bind_same _ fun entry => ?_
  refine (perform_concurs split nonempty twinNonempty entry).bind ?_
  rintro ⟨move, next⟩ ⟨_, _⟩ ⟨rfl, front, nextSplit, rfl⟩
  exact .succeeds ⟨⟨ahead, rfl, rfl⟩, front, nextSplit, rfl⟩

end Steps

/-! ### Runs side by side -/

section Runs

variable {simulator : Simulator} {one twin last : Configuration} {tail twinTail : List Symbol}
  {steps : List Step}

/-- As long as a token in front of the tail is not read, the other run takes the same steps. -/
theorem Reaches.exists_twin (reached : simulator.Reaches one steps last) (nonempty : tail ≠ [])
    (twinNonempty : twinTail ≠ []) (same : one.SameBefore tail twinTail twin)
    (unread : tail.length < last.remaining.length) :
    ∃ twins twinLast, simulator.Reaches twin twins twinLast ∧
      List.Forall₂ (Step.SameBefore tail twinTail) steps twins ∧
      last.SameBefore tail twinTail twinLast := by
  induction reached generalizing twin with
  | refl => exact ⟨[], twin, .refl _, .nil, same⟩
  | @head before next last step rest taken goes later inductionHypothesis =>
    have longer : last.remaining.length ≤ before.remaining.length :=
      (Reaches.head taken goes later).remaining_suffix.1.length_le
    obtain ⟨token, ahead, split, rfl⟩ := same.exists_token (Nat.lt_of_lt_of_le unread longer)
    have concurs := step_concurs simulator split nonempty twinNonempty
    rw [taken] at concurs
    obtain ⟨⟨twinStep, twinNext⟩, twinTaken, stepSame, nextSame⟩ := concurs.exists_of_ok
    obtain ⟨twins, twinLast, twinLater, others, lastSame⟩ := inductionHypothesis nextSame unread
    have twinGoes : twinStep.move.isFinal = false := by
      obtain ⟨_, _, rfl⟩ := stepSame
      exact goes
    exact ⟨twinStep :: twins, twinLast, .head twinTaken twinGoes twinLater, .cons stepSame others,
      lastSame⟩

/-- A run that never comes to the tail is the same with another tail, under every limit. -/
theorem runFrom_concurs (nonempty : tail ≠ []) (twinNonempty : twinTail ≠ [])
    (same : one.SameBefore tail twinTail twin)
    (unread : ∀ steps last, simulator.Reaches one steps last →
      tail.length < last.remaining.length) (limit : Nat) :
    Concurs (Option.Rel (Trace.SameBefore tail twinTail)) (simulator.runFrom limit one)
      (simulator.runFrom limit twin) := by
  induction limit generalizing one twin with
  | zero => exact .succeeds .none
  | succ limit inductionHypothesis =>
    obtain ⟨token, ahead, split, rfl⟩ := same.exists_token (unread [] one (.refl _))
    have concurs := step_concurs simulator split nonempty twinNonempty
    rw [runFrom, runFrom]
    cases taken : simulator.step one with
    | error fault =>
      rw [taken] at concurs
      rw [concurs.eq_of_error]
      exact .fails fault
    | ok outcome =>
      obtain ⟨step, next⟩ := outcome
      rw [taken] at concurs
      obtain ⟨⟨twinStep, twinNext⟩, twinTaken, stepSame, nextSame⟩ := concurs.exists_of_ok
      rw [twinTaken]
      have move : twinStep.move = step.move := by
        obtain ⟨_, _, rfl⟩ := stepSame
        rfl
      have arena : next.arena = twinNext.arena := by
        obtain ⟨_, _, rfl⟩ := nextSame
        rfl
      show Concurs _ (if step.move.isFinal = true then _ else simulator.runFrom limit next >>= _)
        (if twinStep.move.isFinal = true then _ else simulator.runFrom limit twinNext >>= _)
      rw [move]
      cases goes : step.move.isFinal with
      | true =>
        rw [if_pos rfl, if_pos rfl]
        exact .succeeds (.some ⟨.cons stepSame .nil, arena⟩)
      | false =>
        rw [if_neg Bool.false_ne_true, if_neg Bool.false_ne_true]
        refine (inductionHypothesis nextSame fun steps last reached =>
          unread (step :: steps) last (.head taken goes reached)).bind fun later other related => ?_
        cases related with
        | none => exact .succeeds .none
        | some alike => exact .succeeds (.some ⟨.cons stepSame alike.steps, alike.arena⟩)

end Runs

/-- A run sees one token of the input ahead. On two inputs that are the same up to a token, with
anything behind it, both runs take the same steps until the token is shifted, the step that shifts
it included; and if it is never shifted, the whole runs are the same, whether they end, fail or go
on for ever. Only what is left of the input differs, behind that token. -/
theorem sees_one_token (simulator : Simulator) (front : List Symbol) (token : Symbol)
    (rest twinRest : List Symbol) :
    (∀ steps last unread, simulator.Reaches (initial (front ++ token :: rest)) steps last →
      last.remaining = unread ++ token :: (rest ++ [Symbol.endMarker]) →
      ∃ twins twin, simulator.Reaches (initial (front ++ token :: twinRest)) twins twin ∧
        twin = { last with remaining := unread ++ token :: (twinRest ++ [Symbol.endMarker]) } ∧
        List.Forall₂ (Step.SameBefore (rest ++ [Symbol.endMarker])
          (twinRest ++ [Symbol.endMarker])) steps twins ∧
        Concurs (StepsAlike (rest ++ [Symbol.endMarker]) (twinRest ++ [Symbol.endMarker]))
          (simulator.step last) (simulator.step twin)) ∧
    ((∀ steps last, simulator.Reaches (initial (front ++ token :: rest)) steps last →
        ∃ unread, last.remaining = unread ++ token :: (rest ++ [Symbol.endMarker])) →
      ∀ limit, Concurs (Option.Rel (Trace.SameBefore (rest ++ [Symbol.endMarker])
          (twinRest ++ [Symbol.endMarker])))
        (simulator.run limit (.tokens (front ++ token :: rest)))
        (simulator.run limit (.tokens (front ++ token :: twinRest)))) := by
  have nonempty (behind : List Symbol) : behind ++ [Symbol.endMarker] ≠ [] :=
    List.append_ne_nil_of_right_ne_nil behind (List.cons_ne_nil _ _)
  have input (behind : List Symbol) : (initial (front ++ token :: behind)).remaining =
      (front ++ [token]) ++ (behind ++ [Symbol.endMarker]) := by
    simp only [initial, List.append_assoc, List.cons_append, List.nil_append]
  have same : (initial (front ++ token :: rest)).SameBefore (rest ++ [Symbol.endMarker])
      (twinRest ++ [Symbol.endMarker]) (initial (front ++ token :: twinRest)) :=
    ⟨front ++ [token], input rest, by rw [← input twinRest]; rfl⟩
  have longer {last : Configuration} {unread : List Symbol}
      (left : last.remaining = unread ++ token :: (rest ++ [Symbol.endMarker])) :
      (rest ++ [Symbol.endMarker]).length < last.remaining.length := by
    simp only [left, List.length_append, List.length_cons]
    omega
  constructor
  · intro steps last unread reached left
    obtain ⟨twins, twin, twinReached, alike, lastSame⟩ :=
      reached.exists_twin (nonempty rest) (nonempty twinRest) same (longer left)
    obtain ⟨next, ahead, split, twinSame⟩ := lastSame.exists_token (longer left)
    refine ⟨twins, twin, twinReached, ?_, alike,
      twinSame ▸ step_concurs simulator split (nonempty rest) (nonempty twinRest)⟩
    have common : next :: ahead = unread ++ [token] := by
      rw [left, List.append_cons, ← List.cons_append] at split
      exact (List.append_cancel_right split).symm
    rw [twinSame, ← List.cons_append, common, List.append_assoc, List.singleton_append]
  · intro never limit
    have unread : ∀ steps last, simulator.Reaches (initial (front ++ token :: rest)) steps last →
        (rest ++ [Symbol.endMarker]).length < last.remaining.length := by
      intro steps last reached
      obtain ⟨unread, left⟩ := never steps last reached
      exact longer left
    exact runFrom_concurs (nonempty rest) (nonempty twinRest) same unread limit

/-- The second letter may be followed by anything, and an end marker that is not the last token is
refused whatever is behind it. -/
theorem sees_one_token_crooked :
    (∃ step last twin, crooked.Reaches (initial (["a"] ++ "a" :: [])) [step] last ∧
      crooked.Reaches (initial (["a"] ++ "a" :: ["b", "$"])) [twin]
        { last with remaining := ["a", "b", "$", "$"] } ∧
      step.SameBefore ["$"] ["b", "$", "$"] twin) ∧
    Concurs (Option.Rel (Trace.SameBefore ["$"] ["a", "a", "$"]))
      (crooked.run 9 (.tokens (["a"] ++ "$" :: [])))
      (crooked.run 9 (.tokens (["a"] ++ "$" :: ["a", "a"]))) := by
  have first (tokens : List Symbol) : crooked.step (initial ("a" :: tokens)) =
      .ok (⟨0, [], "a", tokens ++ ["$"], .shift (-1), .shift "a" (-1), [⟨-1, "a", 0⟩]⟩,
        ⟨1, [⟨-1, "a", 0⟩], 1, tokens ++ ["$"], ⟨#[⟨0, "a", some "a", []⟩]⟩⟩) := by
    rfl
  constructor
  · have reached := Reaches.single (first ["a"]) rfl
    obtain ⟨twins, _, twinReached, rfl, alike, _⟩ :=
      (sees_one_token crooked ["a"] "a" [] ["b", "$"]).1 _ _ [] reached rfl
    cases alike with
    | cons same none =>
      cases none
      exact ⟨_, _, _, reached, twinReached, same⟩
  · refine (sees_one_token crooked ["a"] "$" [] ["a", "a"]).2 (fun steps last reached => ?_) 9
    cases reached with
    | refl => exact ⟨["a"], rfl⟩
    | head taken _ later =>
      obtain ⟨rfl, rfl⟩ := Prod.mk.inj (Except.ok.inj ((first ["$"]).symm.trans taken))
      cases later with
      | refl => exact ⟨[], rfl⟩
      | head refused goes _ =>
        rw [step_of_misplaced rfl rfl] at refused
        rw [← (Prod.mk.inj (Except.ok.inj refused)).1] at goes
        cases goes

end Simulator

end ShiftReduce
