/-
This file introduces traces: the steps of a finished run in order, with the arena that
holds the nodes of their forests. A trace has at least one step, and its last step tells
how the run ended.
-/

import ShiftReduce.Forest.Walk
import ShiftReduce.Run.Step

namespace ShiftReduce

/-- The steps of a finished run and the nodes they made. -/
structure Trace where
  steps : List Step
  arena : Arena
  nonempty : steps ≠ []
  deriving DecidableEq

namespace Trace

/-- The trace of a run that ends with its first step. -/
def single (step : Step) (arena : Arena) : Trace :=
  ⟨[step], arena, List.cons_ne_nil _ _⟩

/-- The trace with a step in front. -/
def after (step : Step) (trace : Trace) : Trace :=
  ⟨step :: trace.steps, trace.arena, List.cons_ne_nil _ _⟩

/-- The number of steps. -/
def size (trace : Trace) : Nat :=
  trace.steps.length

/-- The last step. -/
def last (trace : Trace) : Step :=
  trace.steps.getLast trace.nonempty

/-- Whether the input was accepted. -/
def accepted (trace : Trace) : Bool :=
  trace.last.move.isAccept

/-- Why the input was rejected, if it was. -/
def rejection? (trace : Trace) : Option Rejection :=
  trace.last.move.rejection?

/-- The root of the tree of an accepted input; the forest then has to be that one tree. -/
def tree (trace : Trace) : Except Fault (Option Nat) :=
  if trace.accepted then
    match trace.last.forest with
    | [root] => .ok (some root)
    | _ => .error .severalRoots
  else .ok none

/-- The step a signed position names. -/
def step (trace : Trace) (position : Int) : Except Fault Step :=
  valueOr .outOfRange (Position.pick? trace.steps position)

/-- The steps a slice visits. -/
def slice (trace : Trace) (slice : Position.Slice) : Except Fault (List Step) :=
  valueOr .zeroStride (slice.cut? trace.steps)

/-- The texts of the trees that a step leaves. -/
def render (trace : Trace) (step : Step) : Except Fault (List String) :=
  step.forest.mapM fun root : Nat => trace.arena.render root

/-- What is told of a run step by step. -/
def narration (trace : Trace) : List String :=
  trace.steps.flatMap Step.narration

@[simp] theorem last_single (step : Step) (arena : Arena) : (single step arena).last = step := rfl

@[simp] theorem last_after (step : Step) (trace : Trace) : (after step trace).last = trace.last :=
  List.getLast_cons trace.nonempty

end Trace

end ShiftReduce
