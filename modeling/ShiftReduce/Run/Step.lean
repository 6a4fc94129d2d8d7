/-
This file introduces the steps of a run: the stack and the tokens a step starts from, the
entry the table gives, what is done about it, and the stack that is left. A rejection
names its cause. The bottom of the stack is state `0` and has no symbol; the frames above
it are kept from the top down.
-/

import ShiftReduce.Forest.Arena
import ShiftReduce.Table.Basic

namespace ShiftReduce

/-- A symbol on the stack, the state it led to, and its node in the arena. -/
structure Frame where
  state : Int
  symbol : Symbol
  node : Nat
  deriving DecidableEq, Inhabited

namespace Frame

/-- The state on top of the stack. -/
def topState : List Frame → Int
  | [] => 0
  | frame :: _ => frame.state

/-- The states of a stack, bottom to top. -/
def states (frames : List Frame) : List Int :=
  0 :: frames.reverse.map Frame.state

/-- The symbols of a stack, bottom to top; the bottom has none. -/
def symbols (frames : List Frame) : List (Option Symbol) :=
  none :: frames.reverse.map fun frame => some frame.symbol

/-- The nodes of a stack, bottom to top. -/
def nodes (frames : List Frame) : List Nat :=
  frames.reverse.map Frame.node

@[simp] theorem length_states (frames : List Frame) :
    (states frames).length = frames.length + 1 := by
  simp [states]

@[simp] theorem length_symbols (frames : List Frame) :
    (symbols frames).length = (states frames).length := by
  simp [symbols, states]

@[simp] theorem states_cons (frame : Frame) (frames : List Frame) :
    states (frame :: frames) = states frames ++ [frame.state] := by
  simp [states]

@[simp] theorem symbols_cons (frame : Frame) (frames : List Frame) :
    symbols (frame :: frames) = symbols frames ++ [some frame.symbol] := by
  simp [symbols]

@[simp] theorem getLast?_states (frames : List Frame) :
    (states frames).getLast? = some (topState frames) := by
  cases frames <;> simp [states, topState, List.getLast?_cons]

end Frame

/-! ### Rejections -/

/-- Why an input is rejected, and in which state. -/
inductive Rejection
  /-- The end marker stands in front of other tokens. -/
  | misplacedEnd (state : Int) (position : Nat)
  /-- The row of the state has no entry for the token. -/
  | noAction (state : Int) (token : Symbol) (expected : List Symbol)
  /-- The state leads nowhere by the head of a reduction. -/
  | noGoto (state : Int) (head : Symbol)
  deriving DecidableEq

namespace Rejection

/-- The state a rejection happens in. -/
def state : Rejection → Int
  | misplacedEnd state _ | noAction state _ _ | noGoto state _ => state

/-- The symbol a rejection is about. -/
def token : Rejection → Symbol
  | misplacedEnd _ _ => Symbol.endMarker
  | noAction _ token _ => token
  | noGoto _ head => head

/-- The wording of a rejection. -/
def message : Rejection → String
  | misplacedEnd _ position =>
      s!"End-of-input marker '{Symbol.endMarker}' at input position {position} is " ++
        "not a valid token"
  | noAction state token expected =>
      let written := Text.joined ", " expected
      let listed := if written.isEmpty then "nothing" else written
      s!"No action for state {state} on '{token}'; expected one of: {listed}"
  | noGoto state head => s!"No goto entry for state {state} on {head}"

end Rejection

/-! ### Moves -/

/-- What a step does. -/
inductive Move
  | shift (token : Symbol) (next : Int)
  | reduce (production : Production) (exposed target : Int)
  | accept (start : Symbol)
  | reject (cause : Rejection)
  deriving DecidableEq

namespace Move

/-- The name of a move. -/
def name : Move → String
  | shift _ _ => "Shift"
  | reduce _ _ _ => "Reduce"
  | accept _ => "Accept"
  | reject _ => "Error"

/-- A run ends by acceptance or by rejection. -/
def isFinal : Move → Bool
  | shift _ _ | reduce _ _ _ => false
  | accept _ | reject _ => true

/-- Whether the input is accepted. -/
def isAccept : Move → Bool
  | accept _ => true
  | _ => false

/-- The cause of a rejecting move. -/
def rejection? : Move → Option Rejection
  | reject cause => some cause
  | _ => none

/-- A sentence about a move. -/
def explanation : Move → String
  | shift token next => s!"Shift '{token}' and go to state {next}"
  | reduce production exposed target =>
      let popped := Text.counted production.body.length "symbol"
      s!"Reduce by {production.text}: pop {popped}, goto({exposed}, {production.head}) = {target}"
  | accept start => s!"Accept: input derived from {start}"
  | reject cause => cause.message

end Move

/-! ### Steps -/

/-- One step of a run, with the stack before and after its move. -/
structure Step where
  index : Nat
  frames : List Frame
  token : Symbol
  rest : List Symbol
  entry : Entry
  move : Move
  left : List Frame
  deriving DecidableEq

namespace Step

/-- The states of the stack, bottom to top. -/
def stack (step : Step) : List Int :=
  Frame.states step.frames

/-- The symbols of the stack, bottom to top. -/
def symbols (step : Step) : List (Option Symbol) :=
  Frame.symbols step.frames

/-- The tokens that are not read yet, with the end marker. -/
def remaining (step : Step) : List Symbol :=
  step.token :: step.rest

/-- The nodes on the stack before the move, bottom to top. -/
def nodes (step : Step) : List Nat :=
  Frame.nodes step.frames

/-- The symbols of the stack above its bottom. -/
def labels (step : Step) : List Symbol :=
  step.symbols.tail.filterMap id

/-- The symbols of the stack, and behind them the tokens that are not read yet. -/
def string (step : Step) : List Symbol :=
  step.labels ++ step.remaining

/-- The nodes on the stack after the move, bottom to top. -/
def forest (step : Step) : List Nat :=
  Frame.nodes step.left

/-- The cell of the action table that is consulted. -/
def cell (step : Step) : Int × Symbol :=
  (Frame.topState step.frames, step.token)

/-- The index, the stack, the input and the move. -/
def text (step : Step) : String :=
  let input := Text.quoted (Text.joined " " step.remaining)
  s!"ParseStep({step.index}, stack={Text.bracketed step.stack}, input={input}, " ++
    s!"{step.move.name}: {step.move.explanation})"

/-- The symbol of a stack place as it is shown; a place without a visible one has a dash. -/
def shownSymbol : Option Symbol → String
  | none => "-"
  | some symbol => if symbol.isEmpty then "-" else symbol

/-- Four lines on a step: the symbols of the stack, its states under them, the input, and
the entry. -/
def narration (step : Step) : List String :=
  let shown := step.symbols.map shownSymbol
  let states := List.zipWith (fun symbol state => Text.alignLeft symbol.length (toString state))
    shown step.stack
  let spaced := fun words : List String => String.join (words.map fun word => word ++ " ")
  ["STACK: " ++ spaced shown, "       " ++ spaced states,
    "INPUT: " ++ Text.joined " " step.remaining, s!"   --> {step.entry.text}"]

end Step

end ShiftReduce
