/-
This file proves what the steps of a run do to the forest that its configuration carries. A
shift adds a leaf, a reduction gathers the last trees under a production, and acceptance
finds a single tree of the start symbol; every configuration that carries a forest takes one
of these steps or rejects its input. No reduction compares the symbols it takes off the stack
with the body. They agree because the state on top holds the complete item of the production,
so that the labels of the forest end in the body.
-/

import ShiftReduce.Proofs.Decisions
import ShiftReduce.Proofs.Stacks
import ShiftReduce.Proofs.Steps

namespace ShiftReduce

open DerivationTree

namespace Grammar

/-- The production with the id before its own. -/
def unmoved (production : Production) : Production :=
  { production with id := production.id - 1 }

@[simp] theorem unmoved_moved (production : Production) :
    unmoved (moved production) = production := by
  show (⟨production.id + 1 - 1, production.head, production.body⟩ : Production) = production
  rw [Int.add_sub_cancel]

theorem production_of_mem {grammar : Grammar} {production : Production}
    (member : production ∈ grammar.productions) :
    grammar.production production.id = .ok production := by
  obtain ⟨place, found⟩ := List.getElem?_of_mem member
  simp [Grammar.production, grammar.wellFormed.dense place production found, found]

end Grammar

/-! ### What moves do to a forest -/

namespace Move

/-- A shift adds a leaf behind the trees of a forest, and a reduction gathers the last ones.
Reductions carry productions of the augmented grammar, trees those of the grammar itself. -/
def grow : Move → List DerivationTree → List DerivationTree
  | shift token _, forest => forest ++ [.leaf token]
  | reduce production _ _, forest =>
      let kept := forest.length - production.body.length
      forest.take kept ++ [.branch (Grammar.unmoved production) (forest.drop kept)]
  | _, forest => forest

/-- The token that a move reads. -/
def shifted? : Move → Option Symbol
  | shift token _ => some token
  | _ => none

/-- The production that a move reduces. -/
def reduced? : Move → Option Production
  | reduce production _ _ => some production
  | _ => none

theorem grow_reduce {production : Production} {children below : List DerivationTree}
    (spelled : children.map symbol = production.body) (exposed target : Int) :
    (reduce (Grammar.moved production) exposed target).grow (below ++ children) =
      below ++ [.branch production children] := by
  have kept : (below ++ children).length - (Grammar.moved production).body.length =
      below.length := by
    show (below ++ children).length - production.body.length = below.length
    rw [← spelled, List.length_map, List.length_append, Nat.add_sub_cancel]
  rw [grow, kept, List.take_left, List.drop_left, Grammar.unmoved_moved]

theorem quiet_of_final {move : Move} (final : move.isFinal = true) :
    move.shifted? = none ∧ move.reduced? = none := by
  cases move with
  | shift | reduce => cases final
  | accept | reject => exact ⟨rfl, rfl⟩

end Move

/-- What the moves of some steps make of a forest. -/
def grown (steps : List Step) (forest : List DerivationTree) : List DerivationTree :=
  steps.foldl (fun trees step => step.move.grow trees) forest

/-- The tokens that some steps read. -/
def shifted (steps : List Step) : List Symbol :=
  steps.filterMap fun step => step.move.shifted?

/-- The productions that some steps reduce. -/
def reduced (steps : List Step) : List Production :=
  steps.filterMap fun step => step.move.reduced?

section Steps

variable {first second : List Step} {forest : List DerivationTree} (step : Step)

@[simp] theorem grown_singleton : grown [step] forest = step.move.grow forest := rfl

@[simp] theorem shifted_singleton : shifted [step] = step.move.shifted?.toList := by
  rw [shifted, List.filterMap_cons]
  cases step.move.shifted? <;> rfl

@[simp] theorem reduced_singleton : reduced [step] = step.move.reduced?.toList := by
  rw [reduced, List.filterMap_cons]
  cases step.move.reduced? <;> rfl

@[simp] theorem grown_append : grown (first ++ second) forest = grown second (grown first forest) :=
  List.foldl_append

@[simp] theorem shifted_append : shifted (first ++ second) = shifted first ++ shifted second :=
  List.filterMap_append

@[simp] theorem reduced_append : reduced (first ++ second) = reduced first ++ reduced second :=
  List.filterMap_append

end Steps

namespace Simulator

open Grammar

/-! ### What a configuration carries -/

/-- A configuration carries a forest of a grammar, and its input ends in the end marker. All
nodes of its arena hold trees of the grammar, those of earlier reductions included. -/
structure Carries (grammar : Grammar) (states : List State) (configuration : Configuration)
    (forest : List DerivationTree) : Prop where
  stacked : Stacked states configuration.arena configuration.frames forest
  belong : AllBelong grammar forest
  downward : configuration.arena.Downward
  nodes : ∀ id < configuration.arena.size,
    ∃ tree, tree.Belongs grammar ∧ configuration.arena.Holds id tree
  ended : ∃ more, configuration.remaining = more ++ [Symbol.endMarker]

theorem initial_carries (grammar : Grammar) (states : List State) (tokens : List Symbol) :
    Carries grammar states (initial tokens) [] where
  stacked := .bottom
  belong := allBelong_nil grammar
  downward := Arena.empty_downward
  nodes _ inside := absurd inside (Nat.not_lt_zero _)
  ended := ⟨tokens, rfl⟩

section Carried

variable {simulator : Simulator} {grammar : Grammar} {start : Symbol} {states : List State}
  {follow : SetMap} {configuration : Configuration} {forest : List DerivationTree}
  {token : Symbol} {rest : List Symbol}

theorem Carries.remaining (carries : Carries grammar states configuration forest) :
    ∃ token rest, configuration.remaining = token :: rest := by
  obtain ⟨more, ended⟩ := carries.ended
  rw [ended]
  exact List.exists_cons_of_ne_nil (List.append_ne_nil_of_right_ne_nil _ (List.cons_ne_nil _ _))

/-- Behind a terminal there is still the end marker. -/
theorem Carries.rest_ended (carries : Carries grammar states configuration forest)
    (more : configuration.remaining = token :: rest) (terminal : grammar.isTerminal token = true) :
    ∃ others, rest = others ++ [Symbol.endMarker] := by
  obtain ⟨tokens, ended⟩ := carries.ended
  rw [more] at ended
  rcases List.cons_eq_append_iff.mp ended with ⟨_, last⟩ | ⟨others, _, same⟩
  · obtain ⟨rfl, _⟩ := List.cons.inj last
    exact absurd Symbol.endMarker_reserved (not_reserved_of_isTerminal terminal)
  · exact ⟨others, same⟩

/-- Adding a node that holds a tree lets a configuration carry one tree more. -/
theorem Carries.add {label : Symbol} {value : Option Symbol} {children : List Int}
    {frames : List Frame} {below : List DerivationTree} {index position number : Nat}
    {remaining : List Symbol} (carries : Carries grammar states configuration forest)
    (tree : DerivationTree)
    (stacked : Stacked states configuration.arena frames below)
    (belong : AllBelong grammar below) (belongs : tree.Belongs grammar)
    (earlier : ∀ child ∈ children, child < configuration.arena.size)
    (walked : State.walk states 0 ((below ++ [tree]).map symbol) = some number)
    (holds : (configuration.arena.add label value children).Holds configuration.arena.size tree)
    (ended : ∃ more, remaining = more ++ [Symbol.endMarker]) :
    Carries grammar states
      ⟨index, ⟨number, tree.symbol, configuration.arena.size⟩ :: frames, position, remaining,
        configuration.arena.add label value children⟩ (below ++ [tree]) where
  stacked := .push number _ tree (stacked.add label value children) walked holds
  belong := allBelong_append.mpr ⟨belong, allBelong_cons.mpr ⟨belongs, allBelong_nil grammar⟩⟩
  downward := carries.downward.add label value earlier
  nodes id inside := by
    change id < (configuration.arena.add label value children).size at inside
    rw [Arena.size_add] at inside
    rcases Nat.lt_succ_iff_lt_or_eq.mp inside with old | rfl
    · obtain ⟨other, otherBelongs, held⟩ := carries.nodes id old
      exact ⟨other, otherBelongs, held.add label value children⟩
    · exact ⟨tree, belongs, holds⟩
  ended := ended

/-! ### One step -/

theorem Carries.shift (carries : Carries grammar states configuration forest)
    (runs : simulator.Runs grammar start states follow)
    (more : configuration.remaining = token :: rest) {target : Nat}
    (terminal : grammar.isTerminal token = true)
    (walked : State.walk states 0 (forest.map symbol ++ [token]) = some target) :
    ∃ step next, simulator.step configuration = .ok (step, next) ∧
      step.move = .shift token target ∧ next.remaining = rest ∧
      Carries grammar states next (forest ++ [.leaf token]) := by
  obtain ⟨number, before, top⟩ := carries.stacked.walked
  have proper : isMisplaced token rest = false := by
    rw [← Bool.not_eq_true, isMisplaced_iff]
    rintro ⟨rfl, _⟩
    exact not_reserved_of_isTerminal terminal Symbol.endMarker_reserved
  have cell := (runs.action_eq_shift_iff before).mpr ⟨terminal, target, walked, rfl⟩
  rw [← top] at cell
  refine ⟨_, _, step_of_perform more ((entryFor_of_proper proper).trans cell) rfl, rfl, rfl, ?_⟩
  refine carries.add (.leaf token) carries.stacked carries.belong (.leaf token terminal)
    (fun _ none => absurd none List.not_mem_nil) ?_ ?_ (carries.rest_ended more terminal)
  · rw [List.map_append]
    exact walked
  · exact .leaf _ token Array.getElem?_push_size

/-- In front of the trees of a handle the head can stand. -/
theorem Reducible.leftContext {below children : List DerivationTree} {production : Production}
    (reducible : simulator.Reducible grammar follow ((below ++ children).map symbol) token
      production)
    (spelled : children.map symbol = production.body) :
    simulator.grammar.LeftContext production.head (below.map symbol) := by
  obtain ⟨context, outer, same⟩ := reducible.handle
  rw [List.map_append, spelled] at same
  rw [(List.append_inj' same rfl).1]
  exact outer

theorem Carries.reduce {below children : List DerivationTree} {production : Production}
    (carries : Carries grammar states configuration (below ++ children))
    (runs : simulator.Runs grammar start states follow)
    (more : configuration.remaining = token :: rest) (proper : isMisplaced token rest = false)
    (reducible : simulator.Reducible grammar follow ((below ++ children).map symbol) token
      production)
    (spelled : children.map symbol = production.body) :
    ∃ step next exposed target, simulator.step configuration = .ok (step, next) ∧
      step.move = .reduce (moved production) exposed target ∧
      next.remaining = configuration.remaining ∧
      Carries grammar states next (below ++ [.branch production children]) := by
  obtain ⟨number, before, top⟩ := carries.stacked.walked
  obtain ⟨enough, lower, aligned, each⟩ := carries.stacked.split
  obtain ⟨belowBelong, childrenBelong⟩ := allBelong_append.mp carries.belong
  obtain ⟨exposed, belowWalked, belowTop⟩ := lower.walked
  have cell := (runs.action_eq_reduce_iff before).mpr ⟨production, rfl, reducible⟩
  rw [← top] at cell
  have count : children.length = production.body.length := by
    rw [← spelled, List.length_map]
  obtain ⟨target, leads, walked⟩ := runs.goto_exists belowWalked
    (reducible.leftContext spelled) (head_mem_nonTerminals reducible.member)
  have earlier := carries.stacked.children_lt children.length
  have reduced : simulator.reduce configuration (moved production) = .ok _ :=
    reduce_of_goto count.symm enough (by rw [belowTop]; exact leads) earlier
  have performed := perform_reduce token rest
    (production_of_mem (runs.augments.moved_mem reducible.member)) reduced
  refine ⟨_, _, _, target,
    step_of_perform more ((entryFor_of_proper proper).trans cell) performed, rfl, rfl, ?_⟩
  refine carries.add (.branch production children) lower belowBelong ?_ earlier ?_ ?_
    carries.ended
  · exact .branch production children reducible.member spelled childrenBelong
  · rw [List.map_append]
    exact walked
  · exact .branch _ production _ children Array.getElem?_push_size aligned fun pair member =>
      (each pair member).add _ _ _

/-- Where the table asks for a reduction, the last trees of the forest spell its body. -/
theorem Carries.reduce_of_action {number : Nat} {named : Production}
    (carries : Carries grammar states configuration forest)
    (runs : simulator.Runs grammar start states follow)
    (more : configuration.remaining = token :: rest) (proper : isMisplaced token rest = false)
    (walked : State.walk states 0 (forest.map symbol) = some number)
    (cell : simulator.table.action number token = .ok (.reduce named)) :
    ∃ below children production step next exposed target, forest = below ++ children ∧
      children.map symbol = production.body ∧ production ∈ grammar.productions ∧
      simulator.step configuration = .ok (step, next) ∧
      moved production = named ∧ step.move = .reduce (moved production) exposed target ∧
      next.remaining = configuration.remaining ∧
      Carries grammar states next (below ++ [.branch production children]) := by
  obtain ⟨production, same, reducible⟩ := (runs.action_eq_reduce_iff walked).mp cell
  obtain ⟨context, _, split⟩ := reducible.handle
  obtain ⟨below, children, rfl, _, spelled⟩ := List.map_eq_append_iff.mp split
  obtain ⟨step, next, exposed, target, taken, move, kept, after⟩ :=
    carries.reduce runs more proper reducible spelled
  exact ⟨below, children, production, step, next, exposed, target, rfl, spelled,
    reducible.member, taken, same, move, kept, after⟩

/-- A single tree of the start symbol in front of the last end marker is accepted. -/
theorem Carries.accept (carries : Carries grammar states configuration forest)
    (runs : simulator.Runs grammar start states follow)
    (more : configuration.remaining = [Symbol.endMarker]) (whole : forest.map symbol = [start]) :
    ∃ step, simulator.step configuration =
        .ok (step, { configuration with index := configuration.index + 1 }) ∧
      step.move = .accept start := by
  obtain ⟨number, walked, top⟩ := carries.stacked.walked
  have cell := (runs.action_eq_accept_iff walked).mpr ⟨rfl, whole⟩
  rw [← top] at cell
  have begins : simulator.grammar.startProduction = .ok (grammar.root start) := by
    rw [startProduction, dif_pos simulator.augmented, runs.augments.startOf_eq]
  have performed : simulator.perform configuration Symbol.endMarker [] .accept =
      .ok (.accept start, configuration) := by
    show (simulator.accept >>= _) = _
    rw [Simulator.accept, begins]
    rfl
  exact ⟨_, step_of_perform more ((entryFor_of_proper rfl).trans cell) performed, rfl⟩

/-- The reasons there are for a rejection: an end marker in front of other tokens, or a cell
without an entry. No state without the head of a reduction is among them. -/
inductive Justifies (simulator : Simulator) (step : Step) : Rejection → Prop
  | misplaced (position : Nat) (ending : step.token = Symbol.endMarker) (more : step.rest ≠ []) :
      Justifies simulator step (.misplacedEnd (Frame.topState step.frames) position)
  | empty (row : Row) (read : simulator.table.row (Frame.topState step.frames) = .ok row)
      (free : row.action.get? step.token = none) :
      Justifies simulator step
        (.noAction (Frame.topState step.frames) step.token row.action.keys)

theorem Carries.reject (carries : Carries grammar states configuration forest)
    (runs : simulator.Runs grammar start states follow)
    (more : configuration.remaining = token :: rest)
    (found : simulator.entryFor configuration token rest = .ok .error) :
    ∃ step cause, simulator.step configuration =
        .ok (step, { configuration with index := configuration.index + 1 }) ∧
      step.move = .reject cause ∧ simulator.Justifies step cause := by
  cases proper : isMisplaced token rest with
  | true =>
    obtain ⟨ending, behind⟩ := isMisplaced_iff.mp proper
    exact ⟨_, _, step_of_misplaced more proper, rfl, .misplaced _ ending behind⟩
  | false =>
    obtain ⟨number, walked, top⟩ := carries.stacked.walked
    obtain ⟨_, row, _, read, holds⟩ := runs.row walked
    rw [← top] at read
    have taken := step_of_empty more proper read found
    rw [entryFor_of_proper proper, Table.action, read] at found
    change Except.ok ((row.action.get? token).getD .error) = .ok .error at found
    have free : row.action.get? token = none := by
      refine Option.eq_none_iff_forall_ne_some.mpr fun entry held => ?_
      rw [held] at found
      exact (holds.sound token entry held).ne_error (Except.ok.inj found)
    exact ⟨_, _, taken, rfl, .empty row read free⟩

/-- What a step does from a configuration that carries a forest. -/
inductive Effect (grammar : Grammar) (start : Symbol) (states : List State)
    (configuration : Configuration) (forest : List DerivationTree) (step : Step)
    (next : Configuration) : Prop
  | shift (token : Symbol) (target : Nat) (terminal : grammar.isTerminal token = true)
      (more : configuration.remaining = token :: next.remaining)
      (move : step.move = .shift token target)
      (carries : Carries grammar states next (forest ++ [.leaf token]))
  | reduce (below children : List DerivationTree) (production : Production)
      (exposed target : Int) (member : production ∈ grammar.productions)
      (split : forest = below ++ children) (spelled : children.map symbol = production.body)
      (more : configuration.remaining = next.remaining)
      (move : step.move = .reduce (moved production) exposed target)
      (carries : Carries grammar states next (below ++ [.branch production children]))
  | accept (ended : configuration.remaining = [Symbol.endMarker])
      (whole : forest.map symbol = [start]) (move : step.move = .accept start)
      (same : next = { configuration with index := configuration.index + 1 })
  | reject (cause : Rejection) (move : step.move = .reject cause)
      (same : next = { configuration with index := configuration.index + 1 })

/-- A configuration that carries a forest takes a step, and rejects only for a reason. -/
theorem Carries.step_justified (carries : Carries grammar states configuration forest)
    (runs : simulator.Runs grammar start states follow) :
    ∃ step next, simulator.step configuration = .ok (step, next) ∧
      Effect grammar start states configuration forest step next ∧
      ∀ cause, step.move = .reject cause → simulator.Justifies step cause := by
  have unjustified {move : Move} {step : Step} (made : step.move = move)
      (other : ∀ cause, move ≠ .reject cause) (cause : Rejection)
      (rejected : step.move = .reject cause) : simulator.Justifies step cause :=
    absurd (made.symm.trans rejected) (other cause)
  have justified {made : Rejection} {step : Step} (move : step.move = .reject made)
      (reason : simulator.Justifies step made) (cause : Rejection)
      (rejected : step.move = .reject cause) : simulator.Justifies step cause :=
    Move.reject.inj (move.symm.trans rejected) ▸ reason
  obtain ⟨token, rest, more⟩ := carries.remaining
  obtain ⟨number, walked, top⟩ := carries.stacked.walked
  cases proper : isMisplaced token rest with
  | true =>
    obtain ⟨step, cause, taken, move, reason⟩ := carries.reject runs more (if_pos proper)
    exact ⟨step, _, taken, .reject cause move rfl, justified move reason⟩
  | false =>
    obtain ⟨entry, cell⟩ := runs.action_exists walked token
    cases entry with
    | shift next =>
      obtain ⟨terminal, target, leads, _⟩ := (runs.action_eq_shift_iff walked).mp cell
      obtain ⟨step, next, taken, move, read, after⟩ := carries.shift runs more terminal leads
      exact ⟨step, next, taken, .shift token target terminal (by rw [more, read]) move after,
        unjustified move fun _ => Move.noConfusion⟩
    | reduce named =>
      obtain ⟨below, children, production, step, next, exposed, target, split, spelled, member,
        taken, _, move, kept, after⟩ := carries.reduce_of_action runs more proper walked cell
      exact ⟨step, next, taken, .reduce below children production exposed target member split
        spelled kept.symm move after, unjustified move fun _ => Move.noConfusion⟩
    | accept =>
      obtain ⟨rfl, whole⟩ := (runs.action_eq_accept_iff walked).mp cell
      rw [rest_eq_nil proper] at more
      obtain ⟨step, taken, move⟩ := carries.accept runs more whole
      exact ⟨step, _, taken, .accept more whole move rfl,
        unjustified move fun _ => Move.noConfusion⟩
    | error =>
      rw [← top] at cell
      obtain ⟨step, cause, taken, move, reason⟩ :=
        carries.reject runs more ((entryFor_of_proper proper).trans cell)
      exact ⟨step, _, taken, .reject cause move rfl, justified move reason⟩

theorem Carries.step_exists (carries : Carries grammar states configuration forest)
    (runs : simulator.Runs grammar start states follow) :
    ∃ step next, simulator.step configuration = .ok (step, next) ∧
      Effect grammar start states configuration forest step next := by
  obtain ⟨step, next, taken, effect, _⟩ := carries.step_justified runs
  exact ⟨step, next, taken, effect⟩

theorem Carries.effect (carries : Carries grammar states configuration forest)
    (runs : simulator.Runs grammar start states follow) {step : Step} {next : Configuration}
    (taken : simulator.step configuration = .ok (step, next)) :
    Effect grammar start states configuration forest step next := by
  obtain ⟨actual, after, actualTaken, effect⟩ := carries.step_exists runs
  rw [taken] at actualTaken
  obtain ⟨rfl, rfl⟩ := Prod.mk.inj (Except.ok.inj actualTaken)
  exact effect

theorem Carries.justified (carries : Carries grammar states configuration forest)
    (runs : simulator.Runs grammar start states follow) {step : Step} {next : Configuration}
    (taken : simulator.step configuration = .ok (step, next)) {cause : Rejection}
    (move : step.move = .reject cause) : simulator.Justifies step cause := by
  obtain ⟨actual, after, actualTaken, _, justified⟩ := carries.step_justified runs
  rw [taken] at actualTaken
  obtain ⟨rfl, rfl⟩ := Prod.mk.inj (Except.ok.inj actualTaken)
  exact justified cause move

end Carried

end Simulator

end ShiftReduce
