/-
This file lists everything that can go wrong, by its cause, and fixes the wording of each
cause in one place. A grammar fault that comes from a line of grammar text knows the number
of the line and says it first. Faults that break a promise between two parts of the library
have no wording.
-/

import ShiftReduce.Symbol.Basic

namespace ShiftReduce

/-! ### Messages that may name a line -/

/-- A message about grammar text, with the line it is about if there is one. -/
structure Diagnostic where
  message : String
  line : Option Int
  deriving DecidableEq

/-- The message behind the number of its line. -/
def Diagnostic.text (diagnostic : Diagnostic) : String :=
  match diagnostic.line with
  | none => diagnostic.message
  | some line => s!"line {line}: {diagnostic.message}"

/-! ### Faults of grammars -/

/-- The stages that work on augmented grammars only. -/
inductive Stage
  | automaton
  | table
  | simulation
  deriving DecidableEq

/-- What can be wrong with a grammar or with the text of one. -/
inductive GrammarFault
  /-- The id of a production differs from its position. -/
  | sparseId (production : Production)
  /-- The head of a production is reserved. -/
  | reservedHead (production : Production)
  /-- A body symbol of a production is reserved. -/
  | reservedBody (production : Production)
  /-- A grammar without productions has no start production. -/
  | augmentedEmpty
  /-- A rule line has no head, or more than one. -/
  | headCount (line : Nat) (heads : List Symbol)
  /-- The head of a rule line is reserved. -/
  | reservedRule (line : Nat) (head : Symbol)
  /-- An alternative of a line uses the end marker. -/
  | endMarkerUsed (line : Nat)
  /-- A grammar is augmented once. -/
  | alreadyAugmented
  /-- Without productions there is no start symbol to augment. -/
  | nothingToAugment
  /-- Without productions there is nothing to analyse. -/
  | nothingToAnalyse
  /-- A later stage was handed a grammar that is not augmented. -/
  | plainGrammar (stage : Stage)
  deriving DecidableEq

namespace GrammarFault

/-- The line a fault is about. -/
def line : GrammarFault → Option Nat
  | headCount line _ | reservedRule line _ | endMarkerUsed line => some line
  | _ => none

/-- The wording of a fault, without its line. -/
def message : GrammarFault → String
  | sparseId production =>
      s!"Production ids must be dense from 0: {production.text} has id {production.id}"
  | reservedHead production => s!"Reserved symbol used as production head: {production.text}"
  | reservedBody production => s!"Reserved symbol used in production body: {production.text}"
  | augmentedEmpty => "Augmented grammar has no productions"
  | headCount _ heads =>
      "Expected exactly one head symbol, got " ++ Text.quoted (Text.joined " " heads)
  | reservedRule _ head => s!"Reserved symbol {Text.quoted head} used as production head"
  | endMarkerUsed _ =>
      s!"End-of-input marker {Text.quoted Symbol.endMarker} used in a production body"
  | alreadyAugmented => "Grammar is already augmented"
  | nothingToAugment =>
      "Grammar has no productions; at least one rule using '->' notation is required"
  | nothingToAnalyse =>
      "Invalid grammar: please provide at least one production rule using '->' notation"
  | plainGrammar .automaton => "The LR(0) automaton requires an augmented grammar"
  | plainGrammar .table => "The parsing table requires an augmented grammar"
  | plainGrammar .simulation => "Simulation requires the augmented grammar"

/-- A fault as a message with its line. -/
def diagnostic (fault : GrammarFault) : Diagnostic :=
  ⟨fault.message, fault.line.map fun line => (line : Int)⟩

end GrammarFault

/-! ### All faults -/

/-- What can go wrong anywhere in the library. -/
inductive Fault
  /-- The grammar or its text is at fault. -/
  | grammar (fault : GrammarFault)
  /-- A table with conflicts cannot be run. -/
  | conflictingTable (conflicts : Nat)
  /-- A dot lies outside the body of its production. -/
  | dotOutOfRange (dot : Int) (production : Production)
  /-- A conflict has a kind that does not exist. -/
  | unknownConflictKind (kind : String)
  /-- A slice does not move. -/
  | zeroStride
  /-- A map has no value for a symbol. -/
  | missingSymbol (symbol : Symbol)
  /-- A position lies outside its sequence. -/
  | outOfRange
  /-- A table has more rows of one part than of the other. -/
  | unevenRows
  /-- Only augmented grammars have a start production. -/
  | noStartProduction
  /-- A node refers to a child that does not come before it. -/
  | laterChild
  /-- A reduction wants more symbols than lie on the stack. -/
  | shortStack
  /-- An accepted run left a forest that is not one tree. -/
  | severalRoots
  /-- A walk through the forest came back to where it was. -/
  | endlessWalk
  deriving DecidableEq

namespace Fault

/-- The wording of a fault, for the faults that have one. -/
def message : Fault → Option String
  | grammar fault => some fault.diagnostic.text
  | conflictingTable conflicts =>
      some ("Grammar is not SLR(1): " ++ Text.counted conflicts "conflict" ++ " in parsing table")
  | dotOutOfRange dot production =>
      some s!"Dot position {dot} out of range for {production.text}"
  | unknownConflictKind kind => some s!"Unknown conflict kind {Text.quoted kind}"
  | zeroStride => some "slice step cannot be zero"
  | missingSymbol symbol => some (Text.quoted symbol)
  | outOfRange | unevenRows | noStartProduction | laterChild | shortStack | severalRoots
  | endlessWalk => none

end Fault

/-- A computation that fails only by a fault of its grammar fails by a fault. -/
instance : MonadLift (Except GrammarFault) (Except Fault) :=
  ⟨fun outcome => outcome.mapError Fault.grammar⟩

/-- The element a signed position names, or the fault that it names none. -/
def valueOr {Value : Type} (fault : Fault) : Option Value → Except Fault Value
  | none => .error fault
  | some value => .ok value

@[simp] theorem valueOr_eq_ok_iff {Value : Type} {fault : Fault} {option : Option Value}
    {value : Value} : valueOr fault option = .ok value ↔ option = some value := by
  cases option <;> simp [valueOr]

/-- A computation in two parts succeeds when both parts do. -/
theorem bind_eq_ok_iff {Error Value Result : Type} {first : Except Error Value}
    {next : Value → Except Error Result} {result : Result} :
    (first >>= next) = .ok result ↔ ∃ value, first = .ok value ∧ next value = .ok result := by
  constructor
  · intro done
    cases first with
    | error fault => cases done
    | ok value => exact ⟨value, rfl, done⟩
  · rintro ⟨value, rfl, done⟩
    exact done

/-- What is made of a value cannot fail. -/
theorem bind_ok_eq_error_iff {Error Value Result : Type} {first : Except Error Value}
    {make : Value → Result} {fault : Error} :
    (first >>= fun value => .ok (make value)) = .error fault ↔ first = .error fault := by
  cases first with
  | error other =>
    show (Except.error other : Except Error Result) = .error fault ↔ _
    rw [Except.error.injEq, Except.error.injEq]
  | ok value => exact iff_of_false (fun failed => by cases failed) fun failed => by cases failed

@[simp] theorem toOption_eq_some_iff {Error Value : Type} {outcome : Except Error Value}
    {value : Value} : outcome.toOption = some value ↔ outcome = .ok value := by
  cases outcome <;> simp [Except.toOption]

@[simp] theorem toOption_bind {Error Value Result : Type} (first : Except Error Value)
    (next : Value → Except Error Result) :
    (first >>= next).toOption = first.toOption.bind fun value => (next value).toOption := by
  cases first <;> rfl

end ShiftReduce
