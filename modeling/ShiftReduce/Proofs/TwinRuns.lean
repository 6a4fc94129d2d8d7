/-
This file proves that the order of the productions of a grammar does not matter. The runs of
two grammars that differ in nothing else go side by side: as long as their stacks have the same
symbols, the states on top correspond, so both tables call for corresponding entries, and what
the two steps do differs at most in the numbers of states and the ids of productions. Nodes
have neither, so the arenas of both runs stay the same, and with them all that is rendered.
-/

import ShiftReduce.Proofs.StackInvariant
import ShiftReduce.Proofs.Traces
import ShiftReduce.Proofs.TwinTables

namespace ShiftReduce

open DerivationTree

/-! ### Runs side by side -/

/-- Moves that differ in nothing but the numbers of states, the ids of productions, and the
order in which expected symbols are listed. -/
inductive Move.Mirrors : Move → Move → Prop
  | shift (token : Symbol) (next twin : Int) : Mirrors (.shift token next) (.shift token twin)
  | reduce {production twin : Production} (rule : production.rule = twin.rule)
      (exposed target twinExposed twinTarget : Int) :
      Mirrors (.reduce production exposed target) (.reduce twin twinExposed twinTarget)
  | accept (start : Symbol) : Mirrors (.accept start) (.accept start)
  | misplaced (position : Nat) (state twin : Int) :
      Mirrors (.reject (.misplacedEnd state position)) (.reject (.misplacedEnd twin position))
  | empty (token : Symbol) (state twin : Int) {expected listed : List Symbol}
      (same : ∀ symbol, symbol ∈ expected ↔ symbol ∈ listed) :
      Mirrors (.reject (.noAction state token expected)) (.reject (.noAction twin token listed))

/-- Steps with the same symbols on the stack, the same input and the same forest, whose moves
mirror each other. -/
structure Step.Mirrors (one other : Step) : Prop where
  index : one.index = other.index
  symbols : one.symbols = other.symbols
  remaining : one.remaining = other.remaining
  move : one.move.Mirrors other.move
  action : one.move.name = other.move.name
  forest : one.forest = other.forest

/-- Traces whose steps mirror each other one by one and render the same forests. -/
structure Trace.Mirrors (one other : Trace) : Prop where
  steps : List.Forall₂ Step.Mirrors one.steps other.steps
  arena : one.arena = other.arena
  rendered : one.steps.map one.render = other.steps.map other.render

/-- Whatever steps a simulator takes on some tokens, another one takes steps that mirror them and
make the same nodes. -/
def Simulator.MirroredBy (simulator twin : Simulator) (tokens : List Symbol) : Prop :=
  ∀ steps last, simulator.Reaches (Simulator.initial tokens) steps last →
    ∃ twins twinLast, twin.Reaches (Simulator.initial tokens) twins twinLast ∧
      List.Forall₂ Step.Mirrors steps twins ∧ last.arena = twinLast.arena

theorem Trace.mirrors_of {one other : Trace}
    (steps : List.Forall₂ Step.Mirrors one.steps other.steps) (arena : one.arena = other.arena) :
    one.Mirrors other := by
  refine ⟨steps, arena, List.forall₂_eq_eq_eq ▸ ?_⟩
  refine List.forall₂_map_left_iff.mpr (List.forall₂_map_right_iff.mpr (steps.imp ?_))
  intro step twin mirrors
  rw [Trace.render, Trace.render, arena, mirrors.forest]

namespace Move

variable {one other : Move}

theorem Mirrors.name_eq (mirrors : one.Mirrors other) : one.name = other.name := by
  cases mirrors <;> rfl

theorem Mirrors.isFinal_eq (mirrors : one.Mirrors other) : one.isFinal = other.isFinal := by
  cases mirrors <;> rfl

end Move

/-! ### What frames hold besides states -/

namespace Frame

/-- A frame without its state. -/
def content (frame : Frame) : Symbol × Nat :=
  (frame.symbol, frame.node)

variable {frames others : List Frame}

theorem nodes_eq_of_content (same : frames.map content = others.map content) :
    nodes frames = nodes others := by
  have split (list : List Frame) : nodes list = ((list.map content).map Prod.snd).reverse := by
    rw [nodes, List.map_map, List.map_reverse]
    rfl
  rw [split, split, same]

theorem symbols_eq_of_content (same : frames.map content = others.map content) :
    symbols frames = symbols others := by
  have split (list : List Frame) :
      symbols list = none :: ((list.map content).map fun held => some held.1).reverse := by
    rw [symbols, List.map_map, List.map_reverse]
    rfl
  rw [split, split, same]

end Frame

namespace Simulator

open Grammar

/-- Configurations that are the same but for the states on their stacks. -/
structure SameContent (one other : Configuration) : Prop where
  index : one.index = other.index
  frames : one.frames.map Frame.content = other.frames.map Frame.content
  position : one.position = other.position
  remaining : one.remaining = other.remaining
  arena : one.arena = other.arena

theorem SameContent.refl (configuration : Configuration) :
    SameContent configuration configuration :=
  ⟨rfl, rfl, rfl, rfl, rfl⟩

section Steps

variable {simulator twin : Simulator} {one other next twinNext : Configuration}
  {step twinStep : Step}

/-- Moves that mirror each other leave the same behind. -/
theorem SameContent.taken (same : SameContent one other) (taken : simulator.Taken one step next)
    (twinTaken : twin.Taken other twinStep twinNext)
    (moves : step.move.Mirrors twinStep.move) : SameContent next twinNext := by
  obtain ⟨index, frames, position, remaining, arena⟩ := same
  cases taken with
  | shift token rest target more =>
    cases twinTaken with
    | shift twinToken twinRest twinTarget twinMore =>
      rw [more, twinMore] at remaining
      obtain ⟨rfl, rfl⟩ := List.cons.inj remaining
      refine ⟨?_, ?_, ?_, rfl, ?_⟩
      · rw [index]
      · rw [List.map_cons, List.map_cons, frames, Frame.content, Frame.content, arena]
      · rw [position]
      · rw [arena]
    | reduce => cases moves
    | final _ _ _ move _ ends =>
      cases moves
      cases ends
  | reduce token rest named production target =>
    cases twinTaken with
    | shift => cases moves
    | reduce twinToken twinRest twinNamed twinProduction twinTarget =>
      cases moves with
      | reduce rule =>
        obtain ⟨head, body⟩ := Prod.mk.inj rule
        have popped : (one.frames.take production.body.length).map Frame.content =
            (other.frames.take twinProduction.body.length).map Frame.content := by
          rw [List.map_take, List.map_take, frames, body]
        have value : Arena.branchValue production = Arena.branchValue twinProduction := by
          rw [Arena.branchValue, Arena.branchValue, body]
        refine ⟨?_, ?_, position, remaining, ?_⟩
        · rw [index]
        · rw [List.map_cons, List.map_cons, List.map_drop, List.map_drop, frames, body,
            Frame.content, Frame.content, head, arena]
        · rw [arena, head, value, Frame.nodes_eq_of_content popped]
    | final _ _ _ move _ ends =>
      cases moves
      cases ends
  | final token rest entry move more ends =>
    cases twinTaken with
    | shift | reduce =>
      cases moves
      cases ends
    | final => exact ⟨congrArg (· + 1) index, frames, position, remaining, arena⟩

/-- Steps from configurations with the same content mirror each other if their moves do. -/
theorem SameContent.mirrors (same : SameContent one other)
    (taken : simulator.step one = .ok (step, next))
    (twinTaken : twin.step other = .ok (twinStep, twinNext))
    (moves : step.move.Mirrors twinStep.move) :
    SameContent next twinNext ∧ step.Mirrors twinStep := by
  have after := same.taken (taken_of_step taken) (taken_of_step twinTaken) moves
  obtain ⟨frames, remaining, left⟩ := step_records taken
  obtain ⟨twinFrames, twinRemaining, twinLeft⟩ := step_records twinTaken
  refine ⟨after, ?_, ?_, ?_, moves, moves.name_eq, ?_⟩
  · rw [(taken_of_step taken).index, (taken_of_step twinTaken).index, same.index]
  · rw [Step.symbols, Step.symbols, frames, twinFrames,
      Frame.symbols_eq_of_content same.frames]
  · rw [remaining, twinRemaining, same.remaining]
  · rw [Step.forest, Step.forest, left, twinLeft, Frame.nodes_eq_of_content after.frames]

end Steps

/-! ### Corresponding entries -/

/-- Simulators of twins, with lookahead sets that agree. -/
structure TwinRuns (simulator twin : Simulator) (grammar other : Grammar) (start : Symbol)
    (states others : List State) (follow otherFollow : SetMap)
    (Paired : Production → Production → Prop) : Prop where
  twins : Twins grammar other simulator.grammar twin.grammar start states others Paired
  runs : simulator.Runs grammar start states follow
  otherRuns : twin.Runs other start others otherFollow
  same : ∀ symbol, follow.get? symbol = otherFollow.get? symbol

section Entries

variable {simulator twin : Simulator} {grammar other : Grammar} {start : Symbol}
  {states others : List State} {follow otherFollow : SetMap}
  {Paired : Production → Production → Prop} {string : List Symbol} {number twinNumber : Nat}
  {token : Symbol} {entry : Entry}

theorem TwinRuns.symm
    (pair : TwinRuns simulator twin grammar other start states others follow otherFollow Paired) :
    TwinRuns twin simulator other grammar start others states otherFollow follow
      fun first second => Paired second first where
  twins := pair.twins.symm
  runs := pair.otherRuns
  otherRuns := pair.runs
  same symbol := (pair.same symbol).symm

/-- Where one table has an entry, the other has a corresponding one. -/
theorem TwinRuns.action
    (pair : TwinRuns simulator twin grammar other start states others follow otherFollow Paired)
    (walked : State.walk states 0 string = some number)
    (twinWalked : State.walk others 0 string = some twinNumber)
    (held : simulator.table.action number token = .ok entry) (proper : entry ≠ .error) :
    ∃ twinEntry, twin.table.action twinNumber token = .ok twinEntry ∧
      PairedEntries states others Paired entry twinEntry := by
  obtain ⟨state, _, found, _⟩ := pair.runs.row walked
  obtain ⟨twinState, _, twinFound, _⟩ := pair.otherRuns.row twinWalked
  have candidate := (pair.runs.action_eq_iff walked found proper).mp held
  obtain ⟨twinEntry, twinCandidate, corresponds⟩ :=
    pair.twins.candidate pair.same walked found twinWalked twinFound candidate
  exact ⟨twinEntry, (pair.otherRuns.action_eq_iff twinWalked twinFound
    twinCandidate.ne_error).mpr twinCandidate, corresponds⟩

/-- Where one table has no entry, neither has the other. -/
theorem TwinRuns.action_error
    (pair : TwinRuns simulator twin grammar other start states others follow otherFollow Paired)
    (walked : State.walk states 0 string = some number)
    (twinWalked : State.walk others 0 string = some twinNumber)
    (empty : simulator.table.action number token = .ok .error) :
    twin.table.action twinNumber token = .ok .error := by
  obtain ⟨twinEntry, held⟩ := pair.otherRuns.action_exists twinWalked token
  by_cases proper : twinEntry = .error
  · rw [held, proper]
  · obtain ⟨entry, other, corresponds⟩ := pair.symm.action twinWalked walked held proper
    rw [empty, Except.ok.injEq] at other
    subst other
    cases corresponds

/-- The rows of corresponding states have entries for the same tokens. -/
theorem TwinRuns.mem_keys
    (pair : TwinRuns simulator twin grammar other start states others follow otherFollow Paired)
    (walked : State.walk states 0 string = some number)
    (twinWalked : State.walk others 0 string = some twinNumber) {row twinRow : Row}
    (read : simulator.table.row number = .ok row)
    (twinRead : twin.table.row twinNumber = .ok twinRow) (listed : token ∈ row.action.keys) :
    token ∈ twinRow.action.keys := by
  obtain ⟨state, actual, found, actualRead, holds⟩ := pair.runs.row walked
  obtain ⟨twinState, twinActual, twinFound, twinActualRead, twinHolds⟩ :=
    pair.otherRuns.row twinWalked
  rw [read, Except.ok.injEq] at actualRead
  rw [twinRead, Except.ok.injEq] at twinActualRead
  subst actualRead twinActualRead
  obtain ⟨entry, held⟩ := SymbolMap.mem_keys_iff.mp listed
  obtain ⟨twinEntry, twinCandidate, _⟩ := pair.twins.candidate pair.same walked found twinWalked
    twinFound (holds.sound token entry held)
  exact SymbolMap.mem_keys_iff.mpr ⟨twinEntry, twinHolds.complete rfl token _ twinCandidate⟩

end Entries

/-! ### Corresponding moves -/

section Moves

variable {simulator twin : Simulator} {grammar other : Grammar} {start : Symbol}
  {states others : List State} {follow otherFollow : SetMap}
  {Paired : Production → Production → Prop} {first second next twinNext : Configuration}
  {forest twinForest : List DerivationTree} {step twinStep : Step} {token : Symbol}
  {rest : List Symbol}

/-- What a step is known to do is what it does. -/
theorem move_of_taken {known : Step} {after : Configuration} {move : Move}
    (taken : simulator.step first = .ok (step, next))
    (knownTaken : simulator.step first = .ok (known, after)) (does : known.move = move) :
    step.move = move := by
  rw [taken] at knownTaken
  rw [(Prod.mk.inj (Except.ok.inj knownTaken)).1, does]

/-- Stacks with the same content carry forests with the same labels. -/
theorem SameContent.labels (same : SameContent first second)
    (carries : Carries grammar states first forest)
    (twinCarries : Carries other others second twinForest) :
    forest.map symbol = twinForest.map symbol := by
  have symbols := Frame.symbols_eq_of_content same.frames
  rw [carries.stacked.symbols_eq, twinCarries.stacked.symbols_eq] at symbols
  exact List.map_injective_iff.mpr (Option.some_injective _) (List.cons.inj symbols).2

/-- Where neither table has an entry, both steps reject. -/
theorem TwinRuns.moves_of_error
    (pair : TwinRuns simulator twin grammar other start states others follow otherFollow Paired)
    (same : SameContent first second) (carries : Carries grammar states first forest)
    (twinCarries : Carries other others second twinForest)
    (taken : simulator.step first = .ok (step, next))
    (twinTaken : twin.step second = .ok (twinStep, twinNext))
    (more : first.remaining = token :: rest) (proper : isMisplaced token rest = false)
    (held : simulator.table.action (Frame.topState first.frames) token = .ok .error) :
    step.move.Mirrors twinStep.move := by
  have twinMore : second.remaining = token :: rest := same.remaining.symm.trans more
  obtain ⟨number, walked, top⟩ := carries.stacked.walked
  obtain ⟨twinNumber, twinWalked, twinTop⟩ := twinCarries.stacked.walked
  rw [← same.labels carries twinCarries] at twinWalked
  rw [top] at held
  have twinHeld := pair.action_error walked twinWalked held
  obtain ⟨_, row, _, read, _⟩ := pair.runs.row walked
  obtain ⟨_, twinRow, _, twinRead, _⟩ := pair.otherRuns.row twinWalked
  have keys (symbol : Symbol) : symbol ∈ row.action.keys ↔ symbol ∈ twinRow.action.keys :=
    ⟨pair.mem_keys walked twinWalked read twinRead,
      pair.symm.mem_keys twinWalked walked twinRead read⟩
  rw [← top] at held read
  rw [← twinTop] at twinHeld twinRead
  rw [move_of_taken taken (step_of_empty more proper read
      ((entryFor_of_proper proper).trans held)) rfl,
    move_of_taken twinTaken (step_of_empty twinMore proper twinRead
      ((entryFor_of_proper proper).trans twinHeld)) rfl]
  exact .empty token _ _ keys

/-- Corresponding entries are carried out by moves that mirror each other. -/
theorem TwinRuns.moves_of_entries {number twinNumber : Nat} {entry twinEntry : Entry}
    (pair : TwinRuns simulator twin grammar other start states others follow otherFollow Paired)
    (same : SameContent first second) (carries : Carries grammar states first forest)
    (twinCarries : Carries other others second twinForest)
    (taken : simulator.step first = .ok (step, next))
    (twinTaken : twin.step second = .ok (twinStep, twinNext))
    (more : first.remaining = token :: rest) (proper : isMisplaced token rest = false)
    (walked : State.walk states 0 (forest.map symbol) = some number)
    (twinWalked : State.walk others 0 (twinForest.map symbol) = some twinNumber)
    (held : simulator.table.action number token = .ok entry)
    (twinHeld : twin.table.action twinNumber token = .ok twinEntry)
    (corresponds : PairedEntries states others Paired entry twinEntry) :
    step.move.Mirrors twinStep.move := by
  have twinMore : second.remaining = token :: rest := same.remaining.symm.trans more
  cases corresponds with
  | shift =>
    obtain ⟨terminal, target, leads, _⟩ := (pair.runs.action_eq_shift_iff walked).mp held
    obtain ⟨twinTerminal, twinTarget, twinLeads, _⟩ :=
      (pair.otherRuns.action_eq_shift_iff twinWalked).mp twinHeld
    obtain ⟨_, _, known, does, _⟩ := carries.shift pair.runs more terminal leads
    obtain ⟨_, _, twinKnown, twinDoes, _⟩ :=
      twinCarries.shift pair.otherRuns twinMore twinTerminal twinLeads
    rw [move_of_taken taken known does, move_of_taken twinTaken twinKnown twinDoes]
    exact .shift token _ _
  | reduce paired =>
    obtain ⟨_, _, production, _, _, _, _, _, _, _, known, rfl, does, _⟩ :=
      carries.reduce_of_action pair.runs more proper walked held
    obtain ⟨_, _, twinProduction, _, _, _, _, _, _, _, twinKnown, rfl, twinDoes, _⟩ :=
      twinCarries.reduce_of_action pair.otherRuns twinMore proper twinWalked twinHeld
    rw [move_of_taken taken known does, move_of_taken twinTaken twinKnown twinDoes]
    exact .reduce (pair.twins.pairing.rule paired) _ _ _ _
  | accept =>
    obtain ⟨rfl, whole⟩ := (pair.runs.action_eq_accept_iff walked).mp held
    obtain ⟨_, twinWhole⟩ := (pair.otherRuns.action_eq_accept_iff twinWalked).mp twinHeld
    rw [rest_eq_nil proper] at more twinMore
    obtain ⟨_, known, does⟩ := carries.accept pair.runs more whole
    obtain ⟨_, twinKnown, twinDoes⟩ := twinCarries.accept pair.otherRuns twinMore twinWhole
    rw [move_of_taken taken known does, move_of_taken twinTaken twinKnown twinDoes]
    exact .accept start

/-- Side by side, two steps make moves that mirror each other. -/
theorem TwinRuns.moves
    (pair : TwinRuns simulator twin grammar other start states others follow otherFollow Paired)
    (same : SameContent first second) (carries : Carries grammar states first forest)
    (twinCarries : Carries other others second twinForest)
    (taken : simulator.step first = .ok (step, next))
    (twinTaken : twin.step second = .ok (twinStep, twinNext)) :
    step.move.Mirrors twinStep.move := by
  obtain ⟨token, rest, more⟩ := carries.remaining
  obtain ⟨number, walked, top⟩ := carries.stacked.walked
  obtain ⟨twinNumber, twinWalked, _⟩ := twinCarries.stacked.walked
  cases proper : isMisplaced token rest with
  | true =>
    have twinMore : second.remaining = token :: rest := same.remaining.symm.trans more
    rw [move_of_taken taken (step_of_misplaced more proper) rfl,
      move_of_taken twinTaken (step_of_misplaced twinMore proper) rfl, same.position]
    exact .misplaced _ _ _
  | false =>
    obtain ⟨entry, held⟩ := pair.runs.action_exists walked token
    by_cases empty : entry = .error
    · subst empty
      rw [← top] at held
      exact pair.moves_of_error same carries twinCarries taken twinTaken more proper held
    · have alongside := twinWalked
      rw [← same.labels carries twinCarries] at alongside
      obtain ⟨twinEntry, twinHeld, corresponds⟩ := pair.action walked alongside held empty
      exact pair.moves_of_entries same carries twinCarries taken twinTaken more proper walked
        twinWalked held twinHeld corresponds

/-! ### Corresponding runs -/

/-- Every step has a step of the other run at its side. -/
theorem TwinRuns.step_exists
    (pair : TwinRuns simulator twin grammar other start states others follow otherFollow Paired)
    (same : SameContent first second) (carries : Carries grammar states first forest)
    (twinCarries : Carries other others second twinForest)
    (taken : simulator.step first = .ok (step, next)) :
    ∃ twinStep twinNext, twin.step second = .ok (twinStep, twinNext) ∧
      step.Mirrors twinStep ∧ SameContent next twinNext ∧ (step.move.isFinal = false →
        ∃ later twinLater, Carries grammar states next later ∧
          Carries other others twinNext twinLater) := by
  obtain ⟨twinStep, twinNext, twinTaken, twinEffect⟩ := twinCarries.step_exists pair.otherRuns
  have moves := pair.moves same carries twinCarries taken twinTaken
  obtain ⟨after, mirrors⟩ := same.mirrors taken twinTaken moves
  refine ⟨twinStep, twinNext, twinTaken, mirrors, after, fun goes => ?_⟩
  have twinGoes : twinStep.move.isFinal = false := moves.isFinal_eq.symm.trans goes
  exact ⟨_, _, ((carries.effect pair.runs taken).builds goes).carries,
    (twinEffect.builds twinGoes).carries⟩

/-- Sequences of steps have mirrored ones at their sides, however long they are. -/
theorem TwinRuns.reaches {last : Configuration} {steps : List Step}
    (pair : TwinRuns simulator twin grammar other start states others follow otherFollow Paired)
    (same : SameContent first second) (carries : Carries grammar states first forest)
    (twinCarries : Carries other others second twinForest)
    (reached : simulator.Reaches first steps last) :
    ∃ twins twinLast, twin.Reaches second twins twinLast ∧
      List.Forall₂ Step.Mirrors steps twins ∧ SameContent last twinLast := by
  induction reached generalizing second forest twinForest with
  | refl => exact ⟨[], second, .refl _, .nil, same⟩
  | head taken goes _ inductionHypothesis =>
    obtain ⟨twinStep, twinNext, twinTaken, mirrors, after, later⟩ :=
      pair.step_exists same carries twinCarries taken
    obtain ⟨_, _, nextCarries, twinNextCarries⟩ := later goes
    obtain ⟨twins, twinLast, twinReached, all, ended⟩ :=
      inductionHypothesis after nextCarries twinNextCarries
    exact ⟨twinStep :: twins, twinLast,
      .head twinTaken (mirrors.move.isFinal_eq.symm.trans goes) twinReached, .cons mirrors all,
      ended⟩

/-- Under every limit both runs end with traces that mirror each other, or neither ends. -/
theorem TwinRuns.runFrom
    (pair : TwinRuns simulator twin grammar other start states others follow otherFollow Paired)
    (limit : Nat) (same : SameContent first second) (carries : Carries grammar states first forest)
    (twinCarries : Carries other others second twinForest) :
    ∃ outcome twinOutcome, simulator.runFrom limit first = .ok outcome ∧
      twin.runFrom limit second = .ok twinOutcome ∧
      Option.Rel Trace.Mirrors outcome twinOutcome := by
  induction limit generalizing first second forest twinForest with
  | zero => exact ⟨none, none, rfl, rfl, .none⟩
  | succ limit inductionHypothesis =>
    obtain ⟨step, next, taken, _⟩ := carries.step_exists pair.runs
    obtain ⟨twinStep, twinNext, twinTaken, mirrors, after, later⟩ :=
      pair.step_exists same carries twinCarries taken
    have finals := mirrors.move.isFinal_eq
    rw [Simulator.runFrom, taken, Simulator.runFrom, twinTaken]
    cases ended : step.move.isFinal with
    | true =>
      refine ⟨_, _, if_pos ended, if_pos (finals.symm.trans ended), .some ?_⟩
      exact Trace.mirrors_of (.cons mirrors .nil) after.arena
    | false =>
      obtain ⟨_, _, nextCarries, twinNextCarries⟩ := later ended
      obtain ⟨outcome, twinOutcome, run, twinRun, related⟩ :=
        inductionHypothesis after nextCarries twinNextCarries
      refine ⟨outcome.map (Trace.after step), twinOutcome.map (Trace.after twinStep), ?_, ?_, ?_⟩
      · show (if step.move.isFinal = true then _ else _) = _
        rw [ended, if_neg Bool.false_ne_true, run]
        rfl
      · show (if twinStep.move.isFinal = true then _ else _) = _
        rw [← finals, ended, if_neg Bool.false_ne_true, twinRun]
        rfl
      · cases related with
        | none => exact .none
        | some traces => exact .some (Trace.mirrors_of (.cons mirrors traces.steps) traces.arena)

/-- All that one simulator does on some tokens, the other does. -/
theorem TwinRuns.mirroredBy
    (pair : TwinRuns simulator twin grammar other start states others follow otherFollow Paired)
    (tokens : List Symbol) : simulator.MirroredBy twin tokens := by
  intro steps last reached
  obtain ⟨twins, twinLast, twinReached, all, same⟩ := pair.reaches (.refl _)
    (initial_carries grammar states tokens) (initial_carries other others tokens) reached
  exact ⟨twins, twinLast, twinReached, all, same.arena⟩

end Moves

end Simulator

/-! ### Production order -/

namespace Analysis

open Grammar

/-- What the stages of an analysis come to. -/
structure Exact (analysis : Analysis) (start : Symbol) : Prop where
  augments : analysis.grammar.Augments analysis.augmented start
  sets : analysis.augmented.ExactSets analysis.sets
  collection : analysis.augmented.Collection (Item.start (analysis.grammar.root start))
    analysis.states
  table : Table.Exact analysis.augmented analysis.sets.follow (analysis.grammar.root start)
    analysis.states analysis.table
  fills : Table.Fills analysis.augmented analysis.sets.follow (analysis.grammar.root start)
    analysis.states analysis.table

theorem exists_exact {grammar : Grammar} (plain : grammar.augmented = false)
    (nonempty : grammar.productions ≠ []) :
    ∃ analysis start, ofGrammar grammar = .ok analysis ∧ analysis.grammar = grammar ∧
      analysis.Exact start := by
  obtain ⟨augmented, start, augmentedFound, augments⟩ := augment_exists plain nonempty
  obtain ⟨states, statesFound, collection⟩ := collection_exists augments.flagged
  obtain ⟨sets, _, _, setsFound, exact⟩ := augmented.exactSets_exists
  obtain ⟨table, built, fills⟩ :=
    Table.build_exists augments.flagged collection.toCanonical exact.covers
  obtain ⟨again, builtAgain, recorded⟩ :=
    Table.build_recorded augments.flagged collection.toCanonical exact.covers
  rw [built, Except.ok.injEq] at builtAgain
  subst builtAgain
  rw [augments.startOf_eq] at collection fills recorded
  exact ⟨⟨grammar, augmented, sets, states, table⟩, start,
    ofGrammar_of_stages nonempty augmentedFound setsFound statesFound built, rfl, augments, exact,
    collection, recorded.exact collection.toCanonical, fills⟩

theorem Exact.simulator_exists {analysis : Analysis} {start : Symbol}
    (exact : analysis.Exact start) (quiet : analysis.table.conflicts = []) :
    ∃ simulator : Simulator, analysis.simulator = .ok simulator ∧
      simulator.grammar = analysis.augmented ∧
      simulator.Runs analysis.grammar start analysis.states analysis.sets.follow :=
  ⟨⟨analysis.augmented, analysis.table, exact.augments.flagged, quiet⟩,
    Simulator.ofTable_exists exact.augments.flagged quiet, rfl, exact.augments,
    exact.collection.toCanonical, exact.fills⟩

/-- Analyses with the same lookahead sets and as many states, both without conflicts or both not,
whose runs on any input mirror each other, step by step and to the end, if they end. -/
structure Mirrors (first second : Analysis) : Prop where
  sets : SameSets first.sets second.sets
  states : first.states.length = second.states.length
  size : first.table.size = second.table.size
  deterministic : first.table.isDeterministic = true ↔ second.table.isDeterministic = true
  steps : first.table.isDeterministic = true → ∃ simulator twin,
    first.simulator = .ok simulator ∧ second.simulator = .ok twin ∧ ∀ tokens,
      simulator.MirroredBy twin tokens ∧ twin.MirroredBy simulator tokens
  runs : first.table.isDeterministic = true → ∀ limit input, ∃ outcome twin,
    first.run limit input = .ok outcome ∧ second.run limit input = .ok twin ∧
      Option.Rel Trace.Mirrors outcome twin

theorem isDeterministic_iff {table : Table} :
    table.isDeterministic = true ↔ table.conflicts = [] :=
  List.isEmpty_iff

/-- Analyses of paired grammars mirror each other. -/
theorem Exact.mirrors {first second : Analysis} {start : Symbol}
    {Paired : Production → Production → Prop} (exact : first.Exact start)
    (twinExact : second.Exact start) (pairing : Pairing first.grammar second.grammar Paired) :
    first.Mirrors second := by
  have lifted := pairing.augmented exact.augments twinExact.augments
  have twins : Twins first.grammar second.grammar first.augmented second.augmented start
      first.states second.states _ :=
    ⟨exact.augments, twinExact.augments, exact.collection, twinExact.collection, lifted,
      .inl ⟨rfl, rfl⟩⟩
  have sets := lifted.sameSets exact.sets twinExact.sets
  have deterministic := twins.isDeterministic_iff sets.follow exact.table twinExact.table
  have paired (quiet : first.table.isDeterministic = true) : ∃ simulator twin,
      first.simulator = .ok simulator ∧ second.simulator = .ok twin ∧
        Simulator.TwinRuns simulator twin first.grammar second.grammar start first.states
          second.states first.sets.follow second.sets.follow
          (Lifted Paired first.grammar second.grammar start) := by
    obtain ⟨simulator, made, same, runs⟩ :=
      exact.simulator_exists (isDeterministic_iff.mp quiet)
    obtain ⟨twin, twinMade, twinSame, twinRuns⟩ :=
      twinExact.simulator_exists (isDeterministic_iff.mp (deterministic.mp quiet))
    exact ⟨simulator, twin, made, twinMade, same.symm ▸ twinSame.symm ▸ twins, runs, twinRuns,
      sets.follow⟩
  refine ⟨sets, twins.length_eq, ?_, deterministic, fun quiet => ?_, fun quiet limit input => ?_⟩
  · rw [Table.size, Table.size, exact.fills.length, twinExact.fills.length, twins.length_eq]
  · obtain ⟨simulator, twin, made, twinMade, pair⟩ := paired quiet
    exact ⟨simulator, twin, made, twinMade, fun tokens =>
      ⟨pair.mirroredBy tokens, pair.symm.mirroredBy tokens⟩⟩
  · obtain ⟨simulator, twin, made, twinMade, pair⟩ := paired quiet
    rw [run_of_simulator made, run_of_simulator twinMade]
    exact pair.runFrom limit (.refl _) (Simulator.initial_carries _ _ _)
      (Simulator.initial_carries _ _ _)

/-- The order of the productions does not matter: grammars with the same productions and the same
start symbol have the same lookahead sets, and their analyses mirror each other. -/
theorem order_irrelevant {one other : Grammar} (onePlain : one.augmented = false)
    (otherPlain : other.augmented = false) (nonempty : one.productions ≠ [])
    (rearranges : one.Rearranges other) :
    (∃ sets twins, one.lookaheadSets = .ok sets ∧ other.lookaheadSets = .ok twins ∧
      SameSets sets twins) ∧
    ∃ first second, ofGrammar one = .ok first ∧ ofGrammar other = .ok second ∧
      first.Mirrors second := by
  obtain ⟨Paired, pairing⟩ := rearranges.exists_pairing
  have otherNonempty : other.productions ≠ [] := by
    intro none
    have rules := rearranges.rules
    rw [none, List.map_nil, List.perm_nil, List.map_eq_nil_iff] at rules
    exact nonempty rules
  obtain ⟨sets, _, _, setsFound, setsExact⟩ := one.exactSets_exists
  obtain ⟨twins, _, _, twinsFound, twinsExact⟩ := other.exactSets_exists
  obtain ⟨first, start, firstFound, rfl, exact⟩ := exists_exact onePlain nonempty
  obtain ⟨second, twinStart, secondFound, rfl, twinExact⟩ := exists_exact otherPlain otherNonempty
  have same := pairing.start
  rw [exact.augments.started, twinExact.augments.started, Option.some_inj] at same
  subst same
  exact ⟨⟨sets, twins, setsFound, twinsFound, pairing.sameSets setsExact twinsExact⟩, first, second,
    firstFound, secondFound, exact.mirrors twinExact pairing⟩

end Analysis

namespace Grammar

/-- A grammar with a production that is listed twice, though it is never used. -/
def listed : Grammar :=
  ⟨[⟨0, "S", ["A", "S"]⟩, ⟨1, "S", ["b"]⟩, ⟨2, "A", ["a"]⟩, ⟨3, "U", ["c"]⟩, ⟨4, "U", ["c"]⟩],
    false, (faultOf_eq_none_iff _ _).mp (by decide)⟩

/-- The same productions in another order, which puts the terminals in another order too. -/
def relisted : Grammar :=
  ⟨[⟨0, "S", ["A", "S"]⟩, ⟨1, "U", ["c"]⟩, ⟨2, "A", ["a"]⟩, ⟨3, "U", ["c"]⟩, ⟨4, "S", ["b"]⟩],
    false, (faultOf_eq_none_iff _ _).mp (by decide)⟩

end Grammar

namespace Analysis

open Grammar

/-- The states of both runs have different numbers, and everything else is the same. -/
theorem order_irrelevant_listed :
    listed.Rearranges relisted ∧ ∃ first second trace twin,
      ofGrammar listed = .ok first ∧ ofGrammar relisted = .ok second ∧
      first.table.isDeterministic = true ∧
      first.run 6 (.tokens ["a", "b"]) = .ok (some trace) ∧
      second.run 6 (.tokens ["a", "b"]) = .ok (some twin) ∧
      trace.steps.map Step.stack = [[0], [0, 2], [0, 4], [0, 4, 1], [0, 4, 5], [0, 3]] ∧
      twin.steps.map Step.stack = [[0], [0, 1], [0, 4], [0, 4, 2], [0, 4, 5], [0, 3]] ∧
      first.Mirrors second ∧ trace.Mirrors twin := by
  have rearranges : listed.Rearranges relisted := ⟨by decide, rfl⟩
  obtain ⟨_, first, second, firstFound, secondFound, mirrors⟩ :=
    order_irrelevant (show listed.augmented = false from rfl)
      (show relisted.augmented = false from rfl) (by decide) rearranges
  have evaluated : (ofGrammar listed).toOption.map (fun analysis =>
      (analysis.table.isDeterministic, (analysis.run 6 (.tokens ["a", "b"])).toOption.join.map
        fun trace => trace.steps.map Step.stack)) =
      some (true, some [[0], [0, 2], [0, 4], [0, 4, 1], [0, 4, 5], [0, 3]]) := by
    decide +kernel
  have twinEvaluated : (ofGrammar relisted).toOption.map (fun analysis =>
      (analysis.run 6 (.tokens ["a", "b"])).toOption.join.map
        fun trace => trace.steps.map Step.stack) =
      some (some [[0], [0, 1], [0, 4], [0, 4, 2], [0, 4, 5], [0, 3]]) := by
    decide +kernel
  rw [firstFound] at evaluated
  rw [secondFound] at twinEvaluated
  obtain ⟨quiet, read⟩ := Prod.mk.inj (Option.some_inj.mp evaluated)
  obtain ⟨trace, run, shown⟩ := Simulator.exists_trace read
  obtain ⟨twin, twinRun, twinShown⟩ := Simulator.exists_trace (Option.some_inj.mp twinEvaluated)
  obtain ⟨outcome, twinOutcome, found, twinFound, related⟩ :=
    mirrors.runs quiet 6 (.tokens ["a", "b"])
  rw [run, Except.ok.injEq] at found
  rw [twinRun, Except.ok.injEq] at twinFound
  subst found twinFound
  cases related with
  | some same =>
    exact ⟨rearranges, first, second, trace, twin, firstFound, secondFound, quiet, run, twinRun,
      shown, twinShown, mirrors, same⟩

end Analysis

end ShiftReduce
