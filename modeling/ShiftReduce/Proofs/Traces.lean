/-
This file proves that every trace is well formed, whatever the table says. The rows of a table
made by hand may name any states and ask for any reductions, so nothing is assumed about them:
what a step can do is read off the run itself. A step that goes on makes one node, whose id is
the index of the step, and hands its stack and its input on to the next step; a step that ends
the run leaves everything as it is. A short invariant of configurations carries this along a
run.
-/

import ShiftReduce.Proofs.Determinism

namespace ShiftReduce

/-! ### Places of a stack -/

namespace Frame

theorem nodes_take (frames : List Frame) (count : Nat) :
    nodes (frames.take count) = (nodes frames).drop ((nodes frames).length - count) := by
  rw [nodes, nodes, List.reverse_take, List.map_drop, List.length_map, List.length_reverse]

theorem states_drop (frames : List Frame) {count : Nat} (enough : count ≤ frames.length) :
    states (frames.drop count) = (states frames).take ((states frames).length - count) := by
  have kept : (states frames).length - count = frames.length - count + 1 := by
    rw [length_states]
    omega
  rw [kept, states, states, List.take_succ_cons, List.reverse_drop, List.map_take]

end Frame

/-! ### Well-formed traces -/

namespace Step

/-- The node that a step makes, if it makes one: the leaf of the token that it reads, or a
branch above the nodes that it takes off the stack. -/
def made (step : Step) : Option Node :=
  match step.move with
  | .shift token _ => some ⟨step.index, token, some token, []⟩
  | .reduce production _ _ =>
      let children := step.nodes.drop (step.nodes.length - production.body.length)
      some ⟨step.index, production.head, Arena.branchValue production,
        children.map fun child : Nat => (child : Int)⟩
  | .accept _ | .reject _ => none

theorem exists_made (step : Step) (goes : step.move.isFinal = false) :
    ∃ node, step.made = some node := by
  unfold made
  cases moved : step.move with
  | shift | reduce => exact ⟨_, rfl⟩
  | accept | reject =>
    rw [moved] at goes
    cases goes

/-- What a step of a run on some tokens shows by itself. -/
structure WellFormed (simulator : Simulator) (tokens : List Symbol) (step : Step) : Prop where
  bottom : step.stack.head? = some 0
  unlabelled : step.symbols.head? = some none
  level : step.symbols.length = step.stack.length
  top : step.stack.getLast? = some step.cell.1
  token : step.remaining.head? = some step.cell.2
  more : step.remaining ≠ []
  suffix : step.remaining <:+ tokens ++ [Symbol.endMarker]
  entry : Simulator.isMisplaced step.token step.rest = false →
    simulator.table.action step.cell.1 step.cell.2 = .ok step.entry

/-- The step behind a shift to a state: the state is on top, the token is gone. -/
structure Shifts (step next : Step) (target : Int) : Prop where
  entry : step.entry = .shift target
  move : step.move = .shift step.token target
  stack : next.stack = step.stack ++ [target]
  remaining : next.remaining = step.remaining.tail

/-- The step behind a reduction: the states of the body are gone, though never the one at the
bottom, and on the state that they exposed lies the state that it leads to by the head. -/
structure Reduces (simulator : Simulator) (step next : Step) (named production : Production)
    (exposed target : Int) : Prop where
  entry : step.entry = .reduce named
  move : step.move = .reduce production exposed target
  known : simulator.grammar.production named.id = .ok production
  enough : production.body.length < step.stack.length
  bared : (step.stack.take (step.stack.length - production.body.length)).getLast? = some exposed
  leads : simulator.table.goto exposed production.head = .ok (some target)
  stack : next.stack =
    step.stack.take (step.stack.length - production.body.length) ++ [target]
  remaining : next.remaining = step.remaining

/-- How a step hands over to the next one. The nodes are those of the arena of the trace. -/
structure HandsOver (simulator : Simulator) (arena : Arena) (step next : Step) : Prop where
  forest : next.nodes = step.forest
  newest : step.forest.getLast? = some step.index
  labels : next.symbols.tail =
    step.forest.map fun node : Nat => arena.nodes[node]?.map Node.label
  move : (∃ target, step.Shifts next target) ∨
    ∃ named production exposed target, step.Reduces simulator next named production exposed target

end Step

/-- Well-formed traces of runs on some tokens: the steps are numbered in order and only the last
one ends the run, each step is well formed and hands over to the next one, and the node that a
step makes stands in the arena under the index of the step. -/
structure Trace.WellFormed (simulator : Simulator) (tokens : List Symbol) (trace : Trace) :
    Prop where
  index : ∀ (place : Nat) (step : Step), trace.steps[place]? = some step → step.index = place
  final : ∀ (place : Nat) (step : Step), trace.steps[place]? = some step →
    (step.move.isFinal = true ↔ place + 1 = trace.size)
  start : ∀ step, trace.steps[0]? = some step →
    step.stack = [0] ∧ step.remaining = tokens ++ [Symbol.endMarker]
  step : ∀ step ∈ trace.steps, step.WellFormed simulator tokens
  next : ∀ (place : Nat) (step next : Step), trace.steps[place]? = some step →
    trace.steps[place + 1]? = some next → step.HandsOver simulator trace.arena next
  nodes : ∀ (place : Nat) (step : Step), trace.steps[place]? = some step →
    trace.arena.nodes[place]? = step.made
  ending : trace.last.forest = trace.last.nodes

namespace Simulator

section Tables

variable {simulator : Simulator} {before after first last : Configuration} {step : Step}
  {steps : List Step} {tokens : List Symbol}

/-! ### What every step keeps -/

/-- Configurations of a run on some tokens: there was a step for every node, the nodes of the
stack have the symbols of the stack, and what is left of the input is its end. -/
structure Lawful (tokens : List Symbol) (configuration : Configuration) : Prop where
  counted : configuration.index = configuration.arena.size
  labelled : ∀ frame ∈ configuration.frames,
    configuration.arena.nodes[frame.node]?.map Node.label = some frame.symbol
  ended : configuration.remaining <:+ tokens ++ [Symbol.endMarker]

theorem initial_lawful (tokens : List Symbol) : Lawful tokens (initial tokens) where
  counted := rfl
  labelled _ member := absurd member List.not_mem_nil
  ended := List.suffix_refl _

/-- A node with the symbol of a new frame labels the frame and changes no other. -/
theorem Lawful.labelled_add (lawful : Lawful tokens before) (state : Int) (label : Symbol)
    (value : Option Symbol) (children : List Int) {frames : List Frame}
    (kept : frames ⊆ before.frames) (frame : Frame)
    (member : frame ∈ ⟨state, label, before.arena.size⟩ :: frames) :
    (before.arena.add label value children).nodes[frame.node]?.map Node.label =
      some frame.symbol := by
  rw [Arena.add, Array.getElem?_push]
  rcases List.mem_cons.mp member with rfl | old
  · exact congrArg (Option.map Node.label) (if_pos rfl)
  · have labelled := lawful.labelled frame (kept old)
    obtain ⟨node, found, _⟩ := Option.map_eq_some_iff.mp labelled
    rw [if_neg (Nat.ne_of_lt (Array.getElem?_eq_some_iff.mp found).1), labelled]

theorem Taken.lawful (taken : simulator.Taken before step after) (lawful : Lawful tokens before)
    (goes : step.move.isFinal = false) : Lawful tokens after := by
  cases taken with
  | shift token rest target more =>
    refine ⟨?_, lawful.labelled_add _ _ _ _ (List.Subset.refl _), ?_⟩
    · simp [lawful.counted]
    · exact (more ▸ List.suffix_cons token rest).trans lawful.ended
  | reduce token rest named production target =>
    refine ⟨?_, lawful.labelled_add _ _ _ _ (List.drop_subset _ _), lawful.ended⟩
    simp [lawful.counted]
  | final token rest entry move _ ends =>
    rw [ends] at goes
    cases goes

/-- The arena after a step has the node that the step makes, and nothing else is new. -/
theorem Taken.nodes (taken : simulator.Taken before step after) (lawful : Lawful tokens before) :
    after.arena.nodes.toList = before.arena.nodes.toList ++ step.made.toList := by
  cases taken with
  | shift token rest target =>
    rw [Arena.add, Array.toList_push, ← lawful.counted]
    rfl
  | reduce token rest named production target =>
    rw [Arena.add, Array.toList_push, ← lawful.counted, Frame.nodes_take]
    rfl
  | final token rest entry move _ ends =>
    cases move with
    | shift | reduce => cases ends
    | accept | reject => exact (List.append_nil _).symm

/-- All steps that go on keep the law, and add a node each. -/
theorem Reaches.lawful (reached : simulator.Reaches first steps last)
    (lawful : Lawful tokens first) :
    Lawful tokens last ∧ last.index = first.index + steps.length ∧
      first.arena.nodes.toList <+: last.arena.nodes.toList := by
  induction reached with
  | refl => exact ⟨lawful, rfl, List.prefix_rfl⟩
  | @head before middle last step rest taken goes _ inductionHypothesis =>
    have here := taken_of_step taken
    obtain ⟨lastLawful, counted, grown⟩ := inductionHypothesis (here.lawful lawful goes)
    refine ⟨lastLawful, ?_, ?_⟩
    · have next : middle.index = before.index + 1 := by cases here <;> rfl
      rw [counted, next, List.length_cons]
      omega
    · rw [here.nodes lawful] at grown
      exact (List.prefix_append _ _).trans grown

theorem Taken.grown (taken : simulator.Taken before step after) (lawful : Lawful tokens before) :
    before.arena.nodes.toList <+: after.arena.nodes.toList := by
  rw [taken.nodes lawful]
  exact List.prefix_append _ _

/-! ### From step to step -/

/-- The configurations around a step of a finished run. -/
structure Around (simulator : Simulator) (tokens : List Symbol) (trace : Trace) (place : Nat)
    (step : Step) (before after : Configuration) : Prop where
  reached : simulator.Reaches (initial tokens) (trace.steps.take place) before
  taken : simulator.step before = .ok (step, after)
  grown : after.arena.nodes.toList <+: trace.arena.nodes.toList
  goes : place + 1 < trace.size → step.move.isFinal = false ∧
    ∃ next other, trace.steps[place + 1]? = some next ∧ simulator.step after = .ok (next, other)
  ends : place + 1 = trace.size → step.move.isFinal = true ∧ trace.arena = after.arena

/-- The first of some steps and a last one is taken from the first configuration. -/
theorem Reaches.exists_first {ending : Step} (reached : simulator.Reaches first steps last)
    (ended : simulator.step last = .ok (ending, after)) :
    ∃ step next, (steps ++ [ending])[0]? = some step ∧ simulator.step first = .ok (step, next) := by
  cases reached with
  | refl => exact ⟨ending, after, rfl, ended⟩
  | head taken _ _ => exact ⟨_, _, rfl, taken⟩

theorem exists_around {limit place : Nat} {trace : Trace}
    (finished : simulator.runFrom limit (initial tokens) = .ok (some trace))
    (found : trace.steps[place]? = some step) :
    ∃ before after, simulator.Around tokens trace place step before after := by
  obtain ⟨earlier, final, after, steps, reached, ended, ends, arena⟩ :=
    reaches_of_runFrom finished
  have size : trace.size = earlier.length + 1 := by
    rw [Trace.size, steps, List.length_append, List.length_singleton]
  rw [steps] at found
  obtain ⟨before, middle, front, taken, inside | outside⟩ := reached.step_at ended found
  · obtain ⟨inside, goes, later⟩ := inside
    obtain ⟨lawful, _, _⟩ := front.lawful (initial_lawful tokens)
    obtain ⟨lastLawful, _, grown⟩ := later.lawful ((taken_of_step taken).lawful lawful goes)
    obtain ⟨next, other, follows, nextTaken⟩ := later.exists_first ended
    have behind : trace.steps[place + 1]? = some next := by
      rw [← List.drop_append_of_le_length inside, ← steps, List.getElem?_drop] at follows
      exact follows
    refine ⟨before, middle, steps ▸ front, taken, ?_,
      fun _ => ⟨goes, next, other, behind, nextTaken⟩, fun last => absurd last (by omega)⟩
    rw [arena]
    exact grown.trans ((taken_of_step ended).grown lastLawful)
  · obtain ⟨rfl, rfl, rfl, rfl⟩ := outside
    refine ⟨before, middle, steps ▸ front, taken, ?_, fun more => absurd more (by omega),
      fun _ => ⟨ends, arena⟩⟩
    rw [arena]

/-! ### The form of every trace -/

/-- A step shows the stack and the input of the configuration that it starts from. -/
theorem step_wellFormed (taken : simulator.step before = .ok (step, after))
    (lawful : Lawful tokens before) : step.WellFormed simulator tokens where
  bottom := rfl
  unlabelled := rfl
  level := Frame.length_symbols step.frames
  top := Frame.getLast?_states step.frames
  token := rfl
  more := List.cons_ne_nil _ _
  suffix := by
    rw [(step_records taken).2.1]
    exact lawful.ended
  entry := entry_of_step taken

/-- A step that goes on is a shift or a reduction to what is there after it. -/
theorem Taken.moves {next : Step} (taken : simulator.Taken before step after)
    (goes : step.move.isFinal = false) (frames : next.frames = after.frames)
    (remaining : next.remaining = after.remaining) :
    (∃ target, step.Shifts next target) ∨
      ∃ named production exposed target,
        step.Reduces simulator next named production exposed target := by
  cases taken with
  | shift token rest target more =>
    refine .inl ⟨target, rfl, rfl, ?_, remaining⟩
    simp [Step.stack, frames]
  | reduce token rest named production target more known enough leads =>
    have below := Frame.states_drop before.frames enough
    refine .inr ⟨named, production, _, target, rfl, rfl, known, ?_, ?_, leads, ?_, ?_⟩
    · simpa [Step.stack] using Nat.lt_succ_of_le enough
    · rw [Step.stack, ← below, Frame.getLast?_states]
    · simp [Step.stack, frames, below]
    · rw [remaining, more]
      rfl
  | final _ _ _ _ _ ends =>
    rw [ends] at goes
    cases goes

/-- The newest node lies on top of the stack. -/
theorem Taken.newest (taken : simulator.Taken before step after) (lawful : Lawful tokens before)
    (goes : step.move.isFinal = false) : step.forest.getLast? = some step.index := by
  cases taken with
  | shift | reduce =>
    rw [Step.forest, Frame.nodes, List.reverse_cons, List.map_append, List.map_singleton,
      List.getLast?_concat]
    exact congrArg some lawful.counted.symm
  | final _ _ _ _ _ ends =>
    rw [ends] at goes
    cases goes

/-- The arena has the node that a step makes under the index of the step. -/
theorem Taken.made (taken : simulator.Taken before step after) (lawful : Lawful tokens before) :
    after.arena.nodes[before.index]? = step.made := by
  have size : before.arena.nodes.toList.length = before.index := lawful.counted.symm
  rw [← Array.getElem?_toList, taken.nodes lawful,
    List.getElem?_append_right (Nat.le_of_eq size), size, Nat.sub_self]
  cases step.made <;> rfl

/-- The labels of the nodes of a stack are its symbols. -/
theorem Lawful.labels (lawful : Lawful tokens after) {arena : Arena}
    (grown : after.arena.nodes.toList <+: arena.nodes.toList) :
    (Frame.symbols after.frames).tail = (Frame.nodes after.frames).map
      fun node : Nat => arena.nodes[node]?.map Node.label := by
  rw [Frame.symbols, List.tail_cons, Frame.nodes, List.map_map]
  refine List.map_congr_left fun frame member => ?_
  obtain ⟨node, found, label⟩ :=
    Option.map_eq_some_iff.mp (lawful.labelled frame (List.mem_reverse.mp member))
  show _ = (arena.nodes[frame.node]?).map Node.label
  rw [Arena.getElem?_of_grown grown found, ← label]
  rfl

theorem Around.handsOver {trace : Trace} {place : Nat} {next : Step}
    (around : simulator.Around tokens trace place step before after)
    (found : trace.steps[place + 1]? = some next) :
    step.HandsOver simulator trace.arena next := by
  obtain ⟨goes, other, _, otherFound, otherTaken⟩ :=
    around.goes (List.getElem?_eq_some_iff.mp found).1
  rw [found, Option.some_inj] at otherFound
  subst otherFound
  obtain ⟨frames, remaining, _⟩ := step_records otherTaken
  obtain ⟨lawful, _, _⟩ := around.reached.lawful (initial_lawful tokens)
  have here := taken_of_step around.taken
  have left : step.left = after.frames := (step_records around.taken).2.2
  refine ⟨?_, here.newest lawful goes, ?_, here.moves goes frames remaining⟩
  · rw [Step.nodes, frames, Step.forest, left]
  · rw [Step.symbols, frames, Step.forest, left]
    exact (here.lawful lawful goes).labels around.grown

theorem Around.counted {trace : Trace} {place : Nat}
    (around : simulator.Around tokens trace place step before after)
    (inside : place < trace.steps.length) : before.index = place := by
  obtain ⟨_, counted, _⟩ := around.reached.lawful (initial_lawful tokens)
  rw [counted, List.length_take, Nat.min_eq_left (Nat.le_of_lt inside)]
  exact Nat.zero_add place

theorem Around.nodes {trace : Trace} {place : Nat}
    (around : simulator.Around tokens trace place step before after)
    (inside : place < trace.steps.length) : trace.arena.nodes[place]? = step.made := by
  obtain ⟨lawful, _, _⟩ := around.reached.lawful (initial_lawful tokens)
  have here := (taken_of_step around.taken).made lawful
  rw [around.counted inside] at here
  rcases Nat.lt_or_eq_of_le (Nat.succ_le_of_lt inside) with more | last
  · obtain ⟨node, made⟩ := step.exists_made (around.goes more).1
    rw [made] at here ⊢
    exact Arena.getElem?_of_grown around.grown here
  · rw [(around.ends last).2, here]

end Tables

/-- Whatever the table says, the trace of a run is well formed. -/
theorem trace_wellFormed {simulator : Simulator} {limit : Nat} {input : Input} {trace : Trace}
    (finished : simulator.run limit input = .ok (some trace)) :
    trace.WellFormed simulator input.toTokens where
  index place step found := by
    obtain ⟨before, after, around⟩ := exists_around finished found
    rw [(taken_of_step around.taken).index]
    exact around.counted (List.getElem?_eq_some_iff.mp found).1
  final place step found := by
    obtain ⟨before, after, around⟩ := exists_around finished found
    have inside := (List.getElem?_eq_some_iff.mp found).1
    rcases Nat.lt_or_eq_of_le (Nat.succ_le_of_lt inside) with more | last
    · rw [(around.goes more).1]
      exact iff_of_false Bool.false_ne_true (Nat.ne_of_lt more)
    · exact iff_of_true (around.ends last).1 last
  start step found := by
    obtain ⟨before, after, around⟩ := exists_around finished found
    obtain ⟨frames, remaining, _⟩ := step_records around.taken
    cases around.reached
    exact ⟨congrArg Frame.states frames, remaining⟩
  step step member := by
    obtain ⟨place, found⟩ := List.getElem?_of_mem member
    obtain ⟨before, after, around⟩ := exists_around finished found
    exact step_wellFormed around.taken (around.reached.lawful (initial_lawful _)).1
  next place step next found nextFound := by
    obtain ⟨before, after, around⟩ := exists_around finished found
    exact around.handsOver nextFound
  nodes place step found := by
    obtain ⟨before, after, around⟩ := exists_around finished found
    exact around.nodes (List.getElem?_eq_some_iff.mp found).1
  ending := by
    obtain ⟨_, final, after, _, _, ended, ends, _⟩ := reaches_of_runFrom finished
    rw [Step.forest, (taken_of_step ended).left_eq ends]
    rfl

/-- A table made by hand for one production: its states are named from the back, its reduction
names the production so too, and the state behind a reduction asks for another one. -/
def crooked : Simulator where
  grammar := ⟨[⟨0, "S", ["a", "a"]⟩], true, (Grammar.faultOf_eq_none_iff _ _).mp (by decide)⟩
  table :=
    { terminals := ["a", "$"]
      nonTerminals := []
      rows :=
        [⟨⟨[("a", .shift (-1))], by decide⟩, ⟨[("S", -1)], by decide⟩⟩,
          ⟨⟨[("a", .shift (-1)), ("$", .reduce ⟨-1, "S", ["a", "a"]⟩)], by decide⟩, ∅⟩]
      conflicts := [] }
  augmented := rfl
  deterministic := rfl

/-- The second reduction finds too short a stack, and the input is rejected for a missing goto. -/
theorem trace_wellFormed_crooked :
    ∃ trace, crooked.run 4 (.tokens ["a", "a"]) = .ok (some trace) ∧
      trace.steps.map Step.stack = [[0], [0, -1], [0, -1, -1], [0, -1]] ∧
      trace.rejection? = some (.noGoto (-1) "S") ∧
      trace.WellFormed crooked ["a", "a"] := by
  have evaluated : (crooked.run 4 (.tokens ["a", "a"])).toOption.join.map (fun trace =>
      (trace.steps.map Step.stack, trace.rejection?)) =
      some ([[0], [0, -1], [0, -1, -1], [0, -1]], some (.noGoto (-1) "S")) := by
    decide +kernel
  obtain ⟨trace, finished, read⟩ := Simulator.exists_trace evaluated
  obtain ⟨shown, cause⟩ := Prod.mk.inj read
  exact ⟨trace, finished, shown, cause, trace_wellFormed finished⟩

end Simulator

end ShiftReduce
