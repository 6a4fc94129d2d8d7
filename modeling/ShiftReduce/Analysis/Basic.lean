/-
This file runs all stages on one grammar and keeps their results: the grammar as it was
read, its augmentation, the FIRST and FOLLOW sets, the automaton, and the table. Conflicts
do not stop the analysis; they only keep its table from being run.
-/

import ShiftReduce.Grammar.Reader
import ShiftReduce.Run.Simulator
import ShiftReduce.Table.Build

namespace ShiftReduce

/-- What an analysis starts from. -/
inductive Source
  | text (written : String)
  | grammar (given : Grammar)

/-- The grammar of a source. -/
def Source.toGrammar : Source → Except Fault Grammar
  | .text written => Grammar.read written
  | .grammar given => .ok given

/-- The results of all stages. -/
structure Analysis where
  grammar : Grammar
  augmented : Grammar
  sets : LookaheadSets
  states : List State
  table : Table

namespace Analysis

/-- The analysis of a grammar, which needs at least one production. -/
def ofGrammar (grammar : Grammar) : Except Fault Analysis := do
  if grammar.size = 0 then throw (.grammar .nothingToAnalyse)
  let augmented ← grammar.augment
  let sets ← augmented.lookaheadSets
  let states ← augmented.automaton
  let table ← Table.build augmented states sets.follow
  return ⟨grammar, augmented, sets, states, table⟩

/-- The analysis of a source. -/
def ofSource (source : Source) : Except Fault Analysis := do
  let grammar ← source.toGrammar
  ofGrammar grammar

/-- The simulator of an analysis. -/
def simulator (analysis : Analysis) : Except Fault Simulator :=
  Simulator.ofTable analysis.augmented analysis.table

/-- The run of an analysis on an input, if it ends within a number of steps. -/
def run (analysis : Analysis) (limit : Nat) (input : Input) : Except Fault (Option Trace) := do
  let simulator ← analysis.simulator
  simulator.run limit input

/-- An analysis together with its run on an input, where there is an input and the table
can be run. -/
def withRun (source : Source) (limit : Nat) (input : Option Input) :
    Except Fault (Analysis × Option Trace) := do
  let analysis ← ofSource source
  match input with
  | none => return (analysis, none)
  | some input =>
      if analysis.table.isDeterministic then
        let trace ← analysis.run limit input
        return (analysis, trace)
      else return (analysis, none)

end Analysis

end ShiftReduce
