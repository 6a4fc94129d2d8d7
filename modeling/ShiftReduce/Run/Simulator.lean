/-
This file runs a table without conflicts on a list of tokens. A configuration holds the
stack, the tokens that are not read yet, and the arena; a step looks up the entry for the
state on top and the next token and moves to the next configuration. Productions are looked
up in the grammar by the id that the entry carries. Tables may be made by hand, so a row, a
production or a goto may be missing, and a reduction may want more than the stack holds.

A hand-made table can also run for ever. The run is therefore given a limit on its steps,
and has no trace if it does not end within it.
-/

import ShiftReduce.Run.Trace
import ShiftReduce.Text.Cutting

namespace ShiftReduce

/-- An input is a text, whose words are the tokens, or a list of tokens. -/
inductive Input
  | text (written : String)
  | tokens (listed : List Symbol)

/-- The tokens of an input. -/
def Input.toTokens : Input → List Symbol
  | .text written => Text.words written
  | .tokens listed => listed

/-- An augmented grammar and a table without conflicts. -/
structure Simulator where
  grammar : Grammar
  table : Table
  augmented : grammar.augmented = true
  deterministic : table.conflicts = []

/-- What a run has come to: how many steps it took, its stack, how many tokens were read,
which ones were not, and the nodes made so far. -/
structure Configuration where
  index : Nat
  frames : List Frame
  position : Nat
  remaining : List Symbol
  arena : Arena
  deriving DecidableEq

namespace Simulator

/-- The simulator of a grammar and a table. -/
def ofTable (grammar : Grammar) (table : Table) : Except Fault Simulator :=
  if augmented : grammar.augmented = true then
    if deterministic : table.conflicts = [] then .ok ⟨grammar, table, augmented, deterministic⟩
    else .error (.conflictingTable table.conflicts.length)
  else .error (.grammar (.plainGrammar .simulation))

/-! ### One step -/

/-- Only the last end marker ends the input; one in front of other tokens is an error
whatever the table says. -/
def isMisplaced (token : Symbol) (rest : List Symbol) : Bool :=
  token == Symbol.endMarker && !rest.isEmpty

/-- The entry for the state on top and the next token. -/
def entryFor (simulator : Simulator) (configuration : Configuration) (token : Symbol)
    (rest : List Symbol) : Except Fault Entry :=
  if isMisplaced token rest then .ok .error
  else simulator.table.action (Frame.topState configuration.frames) token

/-- Reads a token. -/
def shift (configuration : Configuration) (token : Symbol) (rest : List Symbol) (next : Int) :
    Move × Configuration :=
  (.shift token next,
    { configuration with
      frames := ⟨next, token, configuration.arena.size⟩ :: configuration.frames
      position := configuration.position + 1
      remaining := rest
      arena := configuration.arena.leaf token (some token) })

/-- Replaces the frames of a body by a frame of its head. When the exposed state leads
nowhere by the head the input is rejected, and the stack stays as it is. -/
def reduce (simulator : Simulator) (configuration : Configuration) (production : Production) :
    Except Fault (Move × Configuration) := do
  let count := production.body.length
  let head := production.head
  let frames := configuration.frames
  if count ≤ frames.length then
    let below := frames.drop count
    let exposed := Frame.topState below
    match ← simulator.table.goto exposed head with
    | none => return (.reject (.noGoto exposed head), configuration)
    | some target =>
        let children := (Frame.nodes (frames.take count)).map fun node : Nat => (node : Int)
        let value := if count = 0 then some Symbol.epsilon else none
        let arena ← configuration.arena.internal head children value
        let frame := ⟨target, head, configuration.arena.size⟩
        return (.reduce production exposed target,
          { configuration with frames := frame :: below, arena := arena })
  else
    let place := (frames.length : Int) - count
    let exposed ← valueOr .outOfRange (Position.pick? (Frame.states frames) place)
    match ← simulator.table.goto exposed head with
    | none => return (.reject (.noGoto exposed head), configuration)
    | some _ => .error .shortStack

/-- Accepts the input as derived from the first body symbol of the start production. -/
def accept (simulator : Simulator) : Except Fault Move := do
  let production ← simulator.grammar.startProduction
  let start ← valueOr .outOfRange production.body.head?
  return .accept start

/-- Rejects the input at a token. -/
def reject (simulator : Simulator) (configuration : Configuration) (token : Symbol)
    (rest : List Symbol) : Except Fault Move := do
  let state := Frame.topState configuration.frames
  if isMisplaced token rest then return .reject (.misplacedEnd state configuration.position)
  else
    let row ← simulator.table.row state
    return .reject (.noAction state token row.action.keys)

/-- What is done about an entry, and the configuration after it. -/
def perform (simulator : Simulator) (configuration : Configuration) (token : Symbol)
    (rest : List Symbol) : Entry → Except Fault (Move × Configuration)
  | .shift next => .ok (shift configuration token rest next)
  | .reduce named => do
      let production ← simulator.grammar.production named.id
      simulator.reduce configuration production
  | .accept => do
      let move ← simulator.accept
      return (move, configuration)
  | .error => do
      let move ← simulator.reject configuration token rest
      return (move, configuration)

/-- One step from a configuration; there is none once the last end marker has been read. -/
def step (simulator : Simulator) (configuration : Configuration) :
    Except Fault (Step × Configuration) :=
  match configuration.remaining with
  | [] => .error .outOfRange
  | token :: rest => do
      let entry ← simulator.entryFor configuration token rest
      let (move, next) ← simulator.perform configuration token rest entry
      return (⟨configuration.index, configuration.frames, token, rest, entry, move, next.frames⟩,
        { next with index := configuration.index + 1 })

/-! ### Whole runs -/

/-- The configuration a run starts from. -/
def initial (tokens : List Symbol) : Configuration :=
  ⟨0, [], 0, tokens ++ [Symbol.endMarker], ∅⟩

/-- The run from a configuration on, if it ends within a number of steps. -/
def runFrom (simulator : Simulator) : Nat → Configuration → Except Fault (Option Trace)
  | 0, _ => .ok none
  | limit + 1, configuration => do
      let (step, next) ← simulator.step configuration
      if step.move.isFinal then return some (Trace.single step next.arena)
      else
        let later ← runFrom simulator limit next
        return later.map (Trace.after step)

/-- The run on an input, if it ends within a number of steps. -/
def run (simulator : Simulator) (limit : Nat) (input : Input) : Except Fault (Option Trace) :=
  simulator.runFrom limit (initial input.toTokens)

end Simulator

end ShiftReduce
