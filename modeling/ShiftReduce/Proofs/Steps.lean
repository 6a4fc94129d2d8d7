/-
This file proves what one step of a simulator can be, whatever its table says. It shifts the
next token, it replaces a body that lies above the bottom of the stack by its head, or it ends
the run and leaves the stack, the input and the nodes as they are. Everything later is proved
about steps by these three cases, and nothing later opens the definition of a step.
-/

import ShiftReduce.Forest.Outline
import ShiftReduce.Run.Reach

namespace ShiftReduce

namespace Simulator

/-! ### Steps from entries -/

section Steps

variable {simulator : Simulator} {configuration : Configuration} {token : Symbol}
  {rest : List Symbol} {entry : Entry}

theorem isMisplaced_iff : isMisplaced token rest = true ↔ token = Symbol.endMarker ∧ rest ≠ [] := by
  cases rest <;> simp [isMisplaced]

/-- An end marker that is not misplaced is the last token. -/
theorem rest_eq_nil (proper : isMisplaced Symbol.endMarker rest = false) : rest = [] := by
  refine Classical.byContradiction fun others => ?_
  rw [isMisplaced_iff.mpr ⟨rfl, others⟩] at proper
  cases proper

theorem step_of_perform {move : Move} {next : Configuration}
    (more : configuration.remaining = token :: rest)
    (found : simulator.entryFor configuration token rest = .ok entry)
    (performed : simulator.perform configuration token rest entry = .ok (move, next)) :
    simulator.step configuration =
      .ok (⟨configuration.index, configuration.frames, token, rest, entry, move, next.frames⟩,
        { next with index := configuration.index + 1 }) := by
  rw [step, more]
  show (simulator.entryFor configuration token rest >>= _) = _
  rw [found]
  show (simulator.perform configuration token rest entry >>= _) = _
  rw [performed]
  rfl

/-- A step records the stack and the input it starts from, and the stack it leaves. -/
theorem step_records {step : Step} {next : Configuration}
    (taken : simulator.step configuration = .ok (step, next)) :
    step.frames = configuration.frames ∧ step.remaining = configuration.remaining ∧
      step.left = next.frames := by
  unfold Simulator.step at taken
  split at taken
  · cases taken
  · rename_i token rest more
    obtain ⟨entry, _, performed⟩ := bind_eq_ok_iff.mp taken
    obtain ⟨⟨move, after⟩, _, recorded⟩ := bind_eq_ok_iff.mp performed
    obtain ⟨rfl, rfl⟩ := Prod.mk.inj (Except.ok.inj recorded)
    exact ⟨rfl, more.symm, rfl⟩

theorem entryFor_of_proper (proper : isMisplaced token rest = false) :
    simulator.entryFor configuration token rest =
      simulator.table.action (Frame.topState configuration.frames) token := by
  rw [entryFor, if_neg (by rw [proper]; exact Bool.false_ne_true)]

theorem step_of_reject {cause : Rejection} (more : configuration.remaining = token :: rest)
    (found : simulator.entryFor configuration token rest = .ok .error)
    (rejected : simulator.reject configuration token rest = .ok (.reject cause)) :
    simulator.step configuration =
      .ok (⟨configuration.index, configuration.frames, token, rest, .error, .reject cause,
        configuration.frames⟩, { configuration with index := configuration.index + 1 }) := by
  refine step_of_perform more found ?_
  show (simulator.reject configuration token rest >>= _) = _
  rw [rejected]
  rfl

/-- A misplaced end marker is rejected. -/
theorem step_of_misplaced (more : configuration.remaining = token :: rest)
    (misplaced : isMisplaced token rest = true) :
    simulator.step configuration =
      .ok (⟨configuration.index, configuration.frames, token, rest, .error,
        .reject (.misplacedEnd (Frame.topState configuration.frames) configuration.position),
        configuration.frames⟩, { configuration with index := configuration.index + 1 }) :=
  step_of_reject more (if_pos misplaced) (if_pos misplaced)

/-- A token without an entry is rejected, and the symbols of the row are named. -/
theorem step_of_empty {row : Row} (more : configuration.remaining = token :: rest)
    (proper : isMisplaced token rest = false)
    (read : simulator.table.row (Frame.topState configuration.frames) = .ok row)
    (found : simulator.entryFor configuration token rest = .ok .error) :
    simulator.step configuration =
      .ok (⟨configuration.index, configuration.frames, token, rest, .error,
        .reject (.noAction (Frame.topState configuration.frames) token row.action.keys),
        configuration.frames⟩, { configuration with index := configuration.index + 1 }) := by
  refine step_of_reject more found ?_
  rw [reject, proper, if_neg Bool.false_ne_true, read]
  rfl

end Steps

theorem perform_reduce {simulator : Simulator} {configuration : Configuration}
    {named production : Production} {outcome : Move × Configuration} (token : Symbol)
    (rest : List Symbol) (found : simulator.grammar.production named.id = .ok production)
    (reduced : simulator.reduce configuration production = .ok outcome) :
    simulator.perform configuration token rest (.reduce named) = .ok outcome := by
  show (simulator.grammar.production named.id >>= _) = _
  rw [found]
  exact reduced

/-- A reduction whose exposed state leads somewhere by the head replaces the frames of the
body. -/
theorem reduce_of_goto {simulator : Simulator} {configuration : Configuration}
    {production : Production} {count : Nat} {target : Int}
    (counted : production.body.length = count) (enough : count ≤ configuration.frames.length)
    (leads : simulator.table.goto (Frame.topState (configuration.frames.drop count))
      production.head = .ok (some target))
    (earlier : ∀ child ∈ (Frame.nodes (configuration.frames.take count)).map
      (fun node : Nat => (node : Int)), child < configuration.arena.size) :
    simulator.reduce configuration production =
      .ok (.reduce production (Frame.topState (configuration.frames.drop count)) target,
        { configuration with
          frames := ⟨target, production.head, configuration.arena.size⟩ ::
            configuration.frames.drop count
          arena := configuration.arena.add production.head (Arena.branchValue production)
            ((Frame.nodes (configuration.frames.take count)).map
              fun node : Nat => (node : Int)) }) := by
  subst counted
  have value : (if production.body.length = 0 then some Symbol.epsilon else none) =
      Arena.branchValue production := by
    simp only [Arena.branchValue, List.length_eq_zero_iff]
  have added : configuration.arena.internal production.head
      ((Frame.nodes (configuration.frames.take production.body.length)).map
        fun node : Nat => (node : Int)) (Arena.branchValue production) = .ok _ :=
    Arena.internal_eq_ok_iff.mpr ⟨earlier, rfl⟩
  unfold reduce
  simp only [if_pos enough, leads, value]
  show (configuration.arena.internal _ _ _ >>= _) = _
  rw [added]
  rfl

/-! ### Steps that end a run -/

theorem isFinal_of_accept {simulator : Simulator} {move : Move}
    (accepted : simulator.accept = .ok move) :
    move.isFinal = true := by
  obtain ⟨_, _, rest⟩ := bind_eq_ok_iff.mp accepted
  obtain ⟨_, _, same⟩ := bind_eq_ok_iff.mp rest
  rw [← Except.ok.inj same]
  rfl

theorem isFinal_of_reject {simulator : Simulator} {configuration : Configuration}
    {token : Symbol} {rest : List Symbol} {move : Move}
    (rejected : simulator.reject configuration token rest = .ok move) :
    move.isFinal = true := by
  unfold reject at rejected
  split at rejected
  · rw [← Except.ok.inj rejected]
    rfl
  · obtain ⟨_, _, same⟩ := bind_eq_ok_iff.mp rejected
    rw [← Except.ok.inj same]
    rfl

/-! ### What a step can do -/

section Taken

variable {simulator : Simulator} {before after : Configuration} {step : Step}

/-- Everything that a step from a configuration can be, whatever the table says. -/
inductive Taken (simulator : Simulator) (before : Configuration) : Step → Configuration → Prop
  | shift (token : Symbol) (rest : List Symbol) (target : Int)
      (more : before.remaining = token :: rest) :
      Taken simulator before
        ⟨before.index, before.frames, token, rest, .shift target, .shift token target,
          ⟨target, token, before.arena.size⟩ :: before.frames⟩
        ⟨before.index + 1, ⟨target, token, before.arena.size⟩ :: before.frames,
          before.position + 1, rest, before.arena.add token (some token) []⟩
  | reduce (token : Symbol) (rest : List Symbol) (named production : Production) (target : Int)
      (more : before.remaining = token :: rest)
      (known : simulator.grammar.production named.id = .ok production)
      (enough : production.body.length ≤ before.frames.length)
      (leads : simulator.table.goto
        (Frame.topState (before.frames.drop production.body.length)) production.head =
          .ok (some target))
      (earlier : ∀ child ∈ (Frame.nodes (before.frames.take production.body.length)).map
        (fun child : Nat => (child : Int)), child < before.arena.size) :
      Taken simulator before
        ⟨before.index, before.frames, token, rest, .reduce named,
          .reduce production (Frame.topState (before.frames.drop production.body.length)) target,
          ⟨target, production.head, before.arena.size⟩ ::
            before.frames.drop production.body.length⟩
        ⟨before.index + 1, ⟨target, production.head, before.arena.size⟩ ::
            before.frames.drop production.body.length, before.position, before.remaining,
          before.arena.add production.head (Arena.branchValue production)
            ((Frame.nodes (before.frames.take production.body.length)).map
              fun child : Nat => (child : Int))⟩
  | final (token : Symbol) (rest : List Symbol) (entry : Entry) (move : Move)
      (more : before.remaining = token :: rest) (ends : move.isFinal = true) :
      Taken simulator before
        ⟨before.index, before.frames, token, rest, entry, move, before.frames⟩
        { before with index := before.index + 1 }

/-- A reduction that is carried out finds its whole body above the bottom of the stack; any
other one ends the run. -/
theorem reduce_cases {production : Production} {move : Move}
    (reduced : simulator.reduce before production = .ok (move, after)) :
    (move.isFinal = true ∧ after = before) ∨
      ∃ target, production.body.length ≤ before.frames.length ∧
        simulator.table.goto (Frame.topState (before.frames.drop production.body.length))
          production.head = .ok (some target) ∧
        (∀ child ∈ (Frame.nodes (before.frames.take production.body.length)).map
          (fun child : Nat => (child : Int)), child < before.arena.size) ∧
        move = .reduce production
          (Frame.topState (before.frames.drop production.body.length)) target ∧
        after = { before with
          frames := ⟨target, production.head, before.arena.size⟩ ::
            before.frames.drop production.body.length
          arena := before.arena.add production.head (Arena.branchValue production)
            ((Frame.nodes (before.frames.take production.body.length)).map
              fun child : Nat => (child : Int)) } := by
  simp only [reduce] at reduced
  split at reduced
  · rename_i enough
    obtain ⟨found, leads, rest⟩ := bind_eq_ok_iff.mp reduced
    cases found with
    | none =>
      obtain ⟨rfl, rfl⟩ := Prod.mk.inj (Except.ok.inj rest)
      exact .inl ⟨rfl, rfl⟩
    | some target =>
      obtain ⟨arena, added, same⟩ := bind_eq_ok_iff.mp rest
      obtain ⟨rfl, rfl⟩ := Prod.mk.inj (Except.ok.inj same)
      have value : (if production.body.length = 0 then some Symbol.epsilon else none) =
          Arena.branchValue production := by
        simp only [Arena.branchValue, List.length_eq_zero_iff]
      rw [value] at added
      obtain ⟨earlier, rfl⟩ := Arena.internal_eq_ok_iff.mp added
      exact .inr ⟨target, enough, leads, earlier, rfl, rfl⟩
  · obtain ⟨_, _, rest⟩ := bind_eq_ok_iff.mp reduced
    obtain ⟨found, _, last⟩ := bind_eq_ok_iff.mp rest
    cases found with
    | none =>
      obtain ⟨rfl, rfl⟩ := Prod.mk.inj (Except.ok.inj last)
      exact .inl ⟨rfl, rfl⟩
    | some target => cases last

theorem taken_of_step (taken : simulator.step before = .ok (step, after)) :
    simulator.Taken before step after := by
  unfold Simulator.step at taken
  split at taken
  · cases taken
  · rename_i token rest more
    obtain ⟨entry, _, performed⟩ := bind_eq_ok_iff.mp taken
    obtain ⟨⟨move, next⟩, done, recorded⟩ := bind_eq_ok_iff.mp performed
    obtain ⟨rfl, rfl⟩ := Prod.mk.inj (Except.ok.inj recorded)
    cases entry with
    | shift target =>
      obtain ⟨rfl, rfl⟩ := Prod.mk.inj (Except.ok.inj done)
      exact .shift token rest target more
    | reduce named =>
      obtain ⟨production, known, reduced⟩ := bind_eq_ok_iff.mp done
      rcases reduce_cases reduced with ⟨ends, rfl⟩ | ⟨target, enough, leads, earlier, rfl, rfl⟩
      · exact .final token rest _ move more ends
      · exact .reduce token rest named production target more known enough leads earlier
    | accept =>
      obtain ⟨actual, accepted, same⟩ := bind_eq_ok_iff.mp done
      obtain ⟨rfl, rfl⟩ := Prod.mk.inj (Except.ok.inj same)
      exact .final token rest _ _ more (isFinal_of_accept accepted)
    | error =>
      obtain ⟨actual, rejected, same⟩ := bind_eq_ok_iff.mp done
      obtain ⟨rfl, rfl⟩ := Prod.mk.inj (Except.ok.inj same)
      exact .final token rest _ _ more (isFinal_of_reject rejected)

/-- The entry of a step is the one that the table has in the cell of the step, unless the step
starts at a misplaced end marker. -/
theorem entry_of_step (taken : simulator.step before = .ok (step, after))
    (proper : isMisplaced step.token step.rest = false) :
    simulator.table.action step.cell.1 step.cell.2 = .ok step.entry := by
  unfold Simulator.step at taken
  split at taken
  · cases taken
  · obtain ⟨entry, found, performed⟩ := bind_eq_ok_iff.mp taken
    obtain ⟨⟨move, next⟩, _, recorded⟩ := bind_eq_ok_iff.mp performed
    obtain ⟨rfl, rfl⟩ := Prod.mk.inj (Except.ok.inj recorded)
    rw [entryFor_of_proper proper] at found
    exact found

/-- A step that goes on does not start at a misplaced end marker. -/
theorem proper_of_goes (taken : simulator.step before = .ok (step, after))
    (goes : step.move.isFinal = false) : isMisplaced step.token step.rest = false := by
  rw [← Bool.not_eq_true]
  intro misplaced
  rw [step_of_misplaced (step_records taken).2.1.symm misplaced] at taken
  rw [← (Prod.mk.inj (Except.ok.inj taken)).1] at goes
  cases goes

theorem Taken.index (taken : simulator.Taken before step after) : step.index = before.index := by
  cases taken <;> rfl

/-- The last step leaves the stack as it is. -/
theorem Taken.left_eq (taken : simulator.Taken before step after)
    (ends : step.move.isFinal = true) : step.left = step.frames := by
  cases taken with
  | shift | reduce => cases ends
  | final => rfl

end Taken

end Simulator

end ShiftReduce
