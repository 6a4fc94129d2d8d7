/-
This file proves that a built table is exact, whatever its lookahead sets are. A cell holds
the entry that the first item to call for one calls for, and every other candidate of the
cell is logged against it. The log of a table is therefore empty exactly if no cell has two
candidates, and as a state leads to one state by a terminal, no two shifts are in conflict.
-/

import ShiftReduce.Proofs.Soundness

namespace ShiftReduce

namespace Table

/-! ### Kinds of conflicts -/

theorem endsBody_iff {entry : Entry} (proper : entry ≠ .error) :
    entry.endsBody = true ↔ ∀ next, entry ≠ .shift next := by
  cases entry with
  | shift next =>
    exact ⟨fun ends => absurd ends Bool.false_ne_true, fun none => absurd rfl (none next)⟩
  | reduce production => exact ⟨fun _ _ => Entry.noConfusion, fun _ => rfl⟩
  | accept => exact ⟨fun _ _ => Entry.noConfusion, fun _ => rfl⟩
  | error => exact absurd rfl proper

/-- Two entries are in conflict by reductions exactly if neither of them is a shift. -/
theorem eq_between_iff {kind : ConflictKind} {existing attempted : Entry}
    (held : existing ≠ .error) (called : attempted ≠ .error) :
    kind = ConflictKind.between existing attempted ↔
      (kind = .reduceReduce ↔
        (∀ next, existing ≠ .shift next) ∧ ∀ next, attempted ≠ .shift next) := by
  rw [← endsBody_iff held, ← endsBody_iff called, ← Bool.and_eq_true, ConflictKind.between]
  cases existing.endsBody && attempted.endsBody <;> cases kind <;> decide

/-! ### Exact tables -/

section Exact

variable (grammar : Grammar) (follow : SetMap) (start : Production)

/-- A cell is exact if it is empty without candidates, otherwise holds the candidate of the
first item to have one, and is in conflict with every other candidate. -/
structure ExactCell (table : Table) (number : Nat) (state : State) (token : Symbol) : Prop where
  empty : table.action number token = .ok .error ↔
    ∀ entry, ¬ Candidate grammar follow start state token entry
  first : (∃ entry, Candidate grammar follow start state token entry) →
    ∃ entry, table.action number token = .ok entry ∧
      Candidate grammar follow start state token entry ∧
      ∀ other, Foremost grammar follow start state token other ↔ other = entry
  logged : ∀ kind existing attempted,
    ⟨number, token, kind, existing, attempted⟩ ∈ table.conflicts ↔
      table.action number token = .ok existing ∧
      Candidate grammar follow start state token attempted ∧ attempted ≠ existing ∧
      (kind = .reduceReduce ↔
        (∀ next, existing ≠ .shift next) ∧ ∀ next, attempted ≠ .shift next)

/-- A table is exact if its cells are, and if it logs nothing but conflicts of its cells. -/
structure Exact (states : List State) (table : Table) : Prop where
  cells : ∀ (number : Nat) (state : State), states[number]? = some state →
    ∀ token, ExactCell grammar follow start table number state token
  inside : ∀ conflict ∈ table.conflicts, ∃ (number : Nat) (state : State),
    states[number]? = some state ∧ conflict.state = number ∧ conflict.symbol ∈ columns grammar

end Exact

/-! ### Tables that are built -/

section Recorded

variable {grammar : Grammar} {follow : SetMap} {start : Production} {startItem : Item}
  {states : List State} {state : State} {table : Table} {token : Symbol}

theorem Candidate.mem_columns {entry : Entry}
    (candidate : Candidate grammar follow start state token entry) : token ∈ columns grammar := by
  cases candidate with
  | shift _ _ terminal => exact Table.mem_columns.mpr (.inl terminal)
  | reduce _ _ _ _ column => exact column
  | accept _ _ _ ending => exact Table.mem_columns.mpr (.inr ending)

/-- The rows of a table hold, and its log names, what the items of its states call for. -/
structure Recorded (grammar : Grammar) (follow : SetMap) (start : Production)
    (states : List State) (table : Table) : Prop where
  rows : ∀ (number : Nat) (state : State), states[number]? = some state →
    ∃ row conflicts, table.rows[number]? = some row ∧
      RecordedRow grammar follow start state row conflicts ∧
      ∀ conflict : Conflict, conflict.state = number →
        (conflict ∈ table.conflicts ↔ conflict ∈ conflicts)
  logged : ∀ conflict ∈ table.conflicts, ∃ (number : Nat) (state : State),
    states[number]? = some state ∧ conflict.state = number ∧
      Candidate grammar follow start state conflict.symbol conflict.attempted

theorem build_recorded (augmented : grammar.augmented = true)
    (canonical : grammar.Canonical startItem states) (covers : grammar.CoversHeads follow) :
    ∃ table, build grammar states follow = .ok table ∧
      Recorded grammar follow (grammar.startOf augmented) states table := by
  obtain ⟨table, built, rows, about⟩ := build_granted augmented canonical covers
  have recorded {number : Nat} {state : State} (found : states[number]? = some state) :
      ∃ row conflicts, table.rows[number]? = some row ∧
        RecordedRow grammar follow (grammar.startOf augmented) state row conflicts ∧
        ∀ conflict : Conflict, conflict.state = number →
          (conflict ∈ table.conflicts ↔ conflict ∈ conflicts) := by
    obtain ⟨asked, granted⟩ := rows number state found
    refine ⟨_, _, granted.row, buildRow_recorded canonical covers (List.mem_of_getElem? found)
      (buildRow_of_requests granted.requested), fun conflict numbered => ?_⟩
    rw [← granted.log, List.mem_filter, beq_iff_eq, and_iff_left numbered]
  refine ⟨table, built, fun number state found => recorded found, fun conflict inside => ?_⟩
  obtain ⟨number, state, found, numbered⟩ := about conflict inside
  obtain ⟨_, _, _, holds, same⟩ := recorded found
  exact ⟨number, state, found, numbered,
    ((holds.logged conflict).mp ((same conflict numbered).mp inside)).2.2.1⟩

theorem action_of_row {number : Nat} {row : Row} (found : table.rows[number]? = some row) :
    table.action number token = .ok ((row.action.get? token).getD .error) := by
  rw [action, Table.row, Position.pick?_natCast, found]
  rfl

theorem RecordedRow.get?_eq_none_iff {row : Row} {conflicts : List Conflict}
    (recorded : RecordedRow grammar follow start state row conflicts) :
    row.action.get? token = none ↔ ∀ entry, ¬ Candidate grammar follow start state token entry := by
  rw [Option.eq_none_iff_forall_ne_some]
  constructor
  · intro empty entry candidate
    obtain ⟨foremost, first⟩ := candidate.exists_foremost
    exact empty foremost ((recorded.held token foremost).mpr first)
  · intro empty entry found
    exact empty entry ((recorded.held token entry).mp found).candidate

theorem action_eq_iff {number : Nat} {row : Row} (found : table.rows[number]? = some row)
    {entry : Entry} (proper : entry ≠ .error) :
    table.action number token = .ok entry ↔ row.action.get? token = some entry := by
  rw [action_of_row found, Except.ok.injEq]
  cases row.action.get? token with
  | none => exact ⟨fun same => absurd same.symm proper, fun none => by cases none⟩
  | some held => exact Option.some_inj.symm

theorem Recorded.exactCell (recorded : Recorded grammar follow start states table)
    (canonical : grammar.Canonical startItem states) {number : Nat}
    (found : states[number]? = some state) :
    ExactCell grammar follow start table number state token := by
  obtain ⟨row, conflicts, rowFound, cells, same⟩ := recorded.rows number state found
  have proper {entry : Entry} (held : row.action.get? token = some entry) : entry ≠ .error :=
    ((cells.held token entry).mp held).candidate.ne_error
  have empty : table.action number token = .ok .error ↔
      ∀ entry, ¬ Candidate grammar follow start state token entry := by
    rw [← cells.get?_eq_none_iff, action_of_row rowFound, Except.ok.injEq]
    cases held : row.action.get? token with
    | none => exact ⟨fun _ => rfl, fun _ => rfl⟩
    | some entry => exact ⟨fun same => absurd same (proper held), fun none => by cases none⟩
  refine ⟨empty, ?_, fun kind existing attempted => ?_⟩
  · rintro ⟨entry, candidate⟩
    obtain ⟨foremost, first⟩ := candidate.exists_foremost
    have held := (cells.held token foremost).mpr first
    refine ⟨foremost, (action_eq_iff rowFound (proper held)).mpr held, first.candidate,
      fun other => ?_⟩
    rw [← cells.held token other, held, Option.some_inj]
    exact eq_comm
  · rw [same _ rfl, cells.logged]
    constructor
    · rintro ⟨_, held, candidate, other, kindEqual⟩
      exact ⟨(action_eq_iff rowFound (proper held)).mpr held, candidate, other.symm,
        (eq_between_iff (proper held) candidate.ne_error).mp kindEqual⟩
    · rintro ⟨read, candidate, other, kindEqual⟩
      have busy : existing ≠ .error := by
        rintro rfl
        exact empty.mp read attempted candidate
      exact ⟨congrArg Nat.cast (canonical.numbered number state found).symm,
        (action_eq_iff rowFound busy).mp read, candidate, other.symm,
        (eq_between_iff busy candidate.ne_error).mpr kindEqual⟩

theorem Recorded.exact (recorded : Recorded grammar follow start states table)
    (canonical : grammar.Canonical startItem states) :
    Exact grammar follow start states table where
  cells _ _ found _ := recorded.exactCell canonical found
  inside conflict logged := by
    obtain ⟨number, state, found, numbered, candidate⟩ := recorded.logged conflict logged
    exact ⟨number, state, found, numbered, candidate.mem_columns⟩

/-- The entries in conflict are two candidates of a cell. -/
theorem Exact.candidates (exact : Exact grammar follow start states table) {conflict : Conflict}
    (logged : conflict ∈ table.conflicts) :
    ∃ (number : Nat) (state : State), states[number]? = some state ∧
      Candidate grammar follow start state conflict.symbol conflict.existing ∧
      Candidate grammar follow start state conflict.symbol conflict.attempted ∧
      conflict.attempted ≠ conflict.existing := by
  obtain ⟨number, state, found, numbered, _⟩ := exact.inside conflict logged
  obtain ⟨_, token, kind, existing, attempted⟩ := conflict
  change _ = _ at numbered
  subst numbered
  have cell := exact.cells number state found token
  obtain ⟨read, candidate, other, _⟩ := (cell.logged kind existing attempted).mp logged
  obtain ⟨entry, held, first, _⟩ := cell.first ⟨attempted, candidate⟩
  rw [Except.ok.inj (held.symm.trans read)] at first
  exact ⟨number, state, found, first, candidate, other⟩

/-- A candidate that a cell does not hold is in conflict with the one it holds. -/
theorem ExactCell.conflict_exists {number : Nat} {attempted existing : Entry}
    (cell : ExactCell grammar follow start table number state token)
    (candidate : Candidate grammar follow start state token attempted)
    (rival : Candidate grammar follow start state token existing)
    (read : table.action number token = .ok existing) (other : attempted ≠ existing) :
    ∃ conflict, conflict ∈ table.conflicts :=
  ⟨_, (cell.logged (ConflictKind.between existing attempted) existing attempted).mpr
    ⟨read, candidate, other, (eq_between_iff rival.ne_error candidate.ne_error).mp rfl⟩⟩

/-- An exact table is without conflicts exactly if no cell has two candidates. -/
theorem Exact.isDeterministic_iff (exact : Exact grammar follow start states table) :
    table.isDeterministic = true ↔ ∀ (number : Nat) (state : State),
      states[number]? = some state → ∀ token one other,
        Candidate grammar follow start state token one →
        Candidate grammar follow start state token other → one = other := by
  rw [isDeterministic, List.isEmpty_iff, List.eq_nil_iff_forall_not_mem]
  constructor
  · intro quiet number state found token
    have cell := exact.cells number state found token
    have held {entry : Entry} (candidate : Candidate grammar follow start state token entry) :
        table.action number token = .ok entry := by
      obtain ⟨existing, read, rival, _⟩ := cell.first ⟨entry, candidate⟩
      by_contra unread
      obtain ⟨conflict, logged⟩ := cell.conflict_exists candidate rival read fun same =>
        unread (same ▸ read)
      exact quiet conflict logged
    intro one other candidate rival
    exact Except.ok.inj ((held candidate).symm.trans (held rival))
  · intro single conflict logged
    obtain ⟨number, state, found, existing, attempted, other⟩ := exact.candidates logged
    exact other (single number state found _ _ _ attempted existing)

end Recorded

end Table

namespace Grammar

/-- Sums of sums: behind a sum, a "+" may end it or be read. -/
def sums : Grammar :=
  ⟨[⟨0, "E", ["E", "+", "E"]⟩, ⟨1, "E", ["n"]⟩], false,
    (faultOf_eq_none_iff _ _).mp (by decide)⟩

end Grammar

namespace Table

open Grammar

/-- With any lookahead sets for all heads, the table of the augmentation of a grammar is exact:
it is without conflicts exactly if no cell has two candidates, and no conflict is one of two
shifts. -/
theorem build_exact {grammar augmented : Grammar} {follow : SetMap}
    (found : grammar.augment = .ok augmented) (covers : augmented.CoversHeads follow) :
    ∃ start states table, grammar.startSymbol = some start ∧
      augmented.startProduction = .ok (grammar.root start) ∧
      augmented.automaton = .ok states ∧ build augmented states follow = .ok table ∧
      Exact augmented follow (grammar.root start) states table ∧
      (table.isDeterministic = true ↔ ∀ (number : Nat) (state : State),
        states[number]? = some state → ∀ token one other,
          Candidate augmented follow (grammar.root start) state token one →
          Candidate augmented follow (grammar.root start) state token other → one = other) ∧
      ∀ conflict ∈ table.conflicts, ∀ one other,
        ¬ (conflict.existing = .shift one ∧ conflict.attempted = .shift other) := by
  obtain ⟨start, augments⟩ := augments_of_augment found
  obtain ⟨states, statesFound, canonical⟩ := automaton_exists augments.flagged
  obtain ⟨table, built, recorded⟩ := build_recorded augments.flagged canonical covers
  rw [augments.startOf_eq] at recorded
  have exact := recorded.exact canonical
  refine ⟨start, states, table, augments.started, ?_, statesFound, built, exact,
    exact.isDeterministic_iff, fun conflict logged one other ⟨shift, rival⟩ => ?_⟩
  · rw [startProduction, dif_pos augments.flagged, augments.startOf_eq]
  · obtain ⟨number, state, _, existing, attempted, different⟩ := exact.candidates logged
    rw [shift] at existing different
    rw [rival] at attempted different
    exact different (congrArg Entry.shift (attempted.shift_eq existing))

/-- Behind a sum the complete item comes first, so the cell reduces and the shift is logged. -/
theorem build_exact_sums :
    ∃ augmented sets states table state, sums.augment = .ok augmented ∧
      augmented.lookaheadSets = .ok sets ∧ augmented.CoversHeads sets.follow ∧
      augmented.automaton = .ok states ∧ build augmented states sets.follow = .ok table ∧
      Exact augmented sets.follow (sums.root "E") states table ∧
      table.isDeterministic = false ∧ states[4]? = some state ∧
      table.action 4 "+" = .ok (.reduce ⟨1, "E", ["E", "+", "E"]⟩) ∧
      Candidate augmented sets.follow (sums.root "E") state "+" (.shift 3) := by
  obtain ⟨augmented, _, found, _⟩ :=
    augment_exists (show sums.augmented = false from rfl) (List.cons_ne_nil _ _)
  obtain ⟨sets, setsFound, closed⟩ := augmented.lookaheadSets_exists
  obtain ⟨start, states, table, started, _, statesFound, built, exact, _⟩ :=
    build_exact found closed.covers
  rw [← Option.some_inj.mp started] at exact
  have evaluated : ((Analysis.ofGrammar sums).toOption.map fun analysis =>
      (analysis.states.length, analysis.table.conflicts)) =
      some (5, [⟨4, "+", .shiftReduce, .reduce ⟨1, "E", ["E", "+", "E"]⟩, .shift 3⟩]) := by
    decide +kernel
  rw [Analysis.ofGrammar_of_stages (List.cons_ne_nil _ _) found setsFound statesFound built]
    at evaluated
  obtain ⟨sized, conflicts⟩ := Prod.mk.inj (Option.some_inj.mp evaluated)
  have place : 4 < states.length := by
    rw [show states.length = 5 from sized]
    decide
  have stateFound := List.getElem?_eq_getElem place
  have cell := exact.cells 4 states[4] stateFound "+"
  have logged : ⟨(4 : Nat), "+", .shiftReduce, .reduce ⟨1, "E", ["E", "+", "E"]⟩, .shift 3⟩ ∈
      table.conflicts := by
    rw [show table.conflicts = _ from conflicts]
    exact List.mem_singleton.mpr rfl
  obtain ⟨read, candidate, _⟩ := (cell.logged _ _ _).mp logged
  refine ⟨augmented, sets, states, table, states[4], found, setsFound, closed.covers, statesFound,
    built, exact, ?_, stateFound, read, candidate⟩
  rw [isDeterministic, show table.conflicts = _ from conflicts]
  rfl

end Table

end ShiftReduce
