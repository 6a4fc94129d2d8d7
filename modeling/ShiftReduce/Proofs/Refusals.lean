/-
This file proves how often a table logs what its cells turn away. The items of a state ask a cell
for one entry after another; the cell takes the first and logs every later request for a different
one, whatever the log has already. Items that end a body ask for entries of their own, so these are
logged once, but all items in front of a terminal ask for the same shift, and where the cell is
taken each of them is logged. Without the repetitions a cell turns away one entry less than it is
asked to hold.
-/

import ShiftReduce.Proofs.Conflicts

namespace ShiftReduce

namespace Table

/-! ### What a cell is asked to hold -/

section Calls

variable {grammar : Grammar} {follow : SetMap} {start : Production} {startItem : Item}
  {states : List State} {state : State} {token : Symbol} {entry : Entry}

theorem mem_calls_iff (canonical : grammar.Canonical startItem states)
    (covers : grammar.CoversHeads follow) (member : state ∈ states) :
    entry ∈ calls grammar follow start state token ↔
      Candidate grammar follow start state token entry := by
  rw [calls, List.mem_filterMap, candidate_iff_alone]
  exact exists_congr fun item => and_congr_right fun inside =>
    asks_eq_some_iff canonical covers member inside

/-- An item that calls for something other than a shift is complete. -/
theorem Candidate.ended_of_alone {item : Item}
    (candidate : Candidate grammar follow start (state.alone item) token entry)
    (ends : ∀ next, entry ≠ .shift next) :
    item.dot = item.production.body.length ∧
      (entry = .reduce item.production ∨ entry = .accept ∧ item.production.id = start.id) := by
  cases candidate with
  | shift => exact absurd rfl (ends _)
  | reduce single complete =>
    rw [State.mem_alone.mp single] at complete ⊢
    exact ⟨beq_iff_eq.mp complete, .inl rfl⟩
  | accept single complete own =>
    rw [State.mem_alone.mp single] at complete own
    exact ⟨beq_iff_eq.mp complete, .inr ⟨rfl, own⟩⟩

/-- An entry that ends a body is asked for by one item. -/
theorem count_calls_le_one (canonical : grammar.Canonical startItem states)
    (covers : grammar.CoversHeads follow) (member : state ∈ states)
    (root : start ∈ grammar.productions) (ends : ∀ next, entry ≠ .shift next) :
    (calls grammar follow start state token).count entry ≤ 1 := by
  have single {one other : Item} (oneInside : one ∈ state.items.items)
      (otherInside : other ∈ state.items.items)
      (called : asks grammar follow start state token one = some entry)
      (rival : asks grammar follow start state token other = some entry) : one = other := by
    have owned {item : Item} (inside : item ∈ state.items.items) :=
      canonical.owned state member item inside
    obtain ⟨dot, entryOf⟩ := Candidate.ended_of_alone
      ((asks_eq_some_iff canonical covers member oneInside).mp called) ends
    obtain ⟨otherDot, otherEntryOf⟩ := Candidate.ended_of_alone
      ((asks_eq_some_iff canonical covers member otherInside).mp rival) ends
    have production : one.production = other.production := by
      rcases entryOf with rfl | ⟨rfl, own⟩
      · rcases otherEntryOf with same | ⟨same, _⟩
        · exact Entry.reduce.inj same
        · cases same
      · rcases otherEntryOf with same | ⟨_, otherOwn⟩
        · cases same
        · exact (Grammar.production_ext (owned oneInside) root own).trans
            (Grammar.production_ext (owned otherInside) root otherOwn).symm
    exact Item.ext production (by rw [dot, otherDot, production])
  classical
  rw [calls, List.count_filterMap, List.countP_eq_length_filter,
    ← List.toFinset_card_of_nodup (state.items.distinct.of_map.filter _), Finset.card_le_one]
  intro one oneMember other otherMember
  obtain ⟨oneInside, called⟩ := List.mem_filter.mp (List.mem_toFinset.mp oneMember)
  obtain ⟨otherInside, rival⟩ := List.mem_filter.mp (List.mem_toFinset.mp otherMember)
  exact single oneInside otherInside (beq_iff_eq.mp called) (beq_iff_eq.mp rival)

/-- A shift is asked for by every item in front of its token. -/
theorem count_calls_shift (canonical : grammar.Canonical startItem states)
    (covers : grammar.CoversHeads follow) (member : state ∈ states) {next : Int}
    (called : .shift next ∈ calls grammar follow start state token) :
    (calls grammar follow start state token).count (.shift next) =
      state.items.items.countP fun item => item.symbol? == some token := by
  rw [calls, List.count_filterMap]
  refine List.countP_congr fun item inside => ?_
  rw [beq_iff_eq, beq_iff_eq, asks_eq_some_iff canonical covers member inside]
  constructor
  · intro candidate
    cases candidate with
    | shift single behind => exact State.mem_alone.mp single ▸ behind
  · intro behind
    cases (mem_calls_iff canonical covers member).mp called with
    | shift _ _ terminal leads => exact .shift (State.mem_alone.mpr rfl) behind terminal leads

end Calls

/-! ### What a cell turns away -/

/-- The entries that a cell has turned away, in the order of the log. -/
def turnedAway (table : Table) (number : Nat) (token : Symbol) : List Entry :=
  (table.conflicts.filter fun conflict =>
    conflict.symbol == token && conflict.state == (number : Int)).map Conflict.attempted

section Logs

variable (grammar : Grammar) (follow : SetMap) (start : Production)

/-- A cell takes the first entry that it is asked to hold and logs each later request for a
different one. It turns away one entry less than it is asked to hold, those that end a body once,
but a shift as often as an item of the state expects the token. -/
structure LoggedCell (table : Table) (number : Nat) (state : State) (token : Symbol) : Prop where
  held : table.action number token =
    .ok ((calls grammar follow start state token).head?.getD .error)
  log : ∀ existing, table.action number token = .ok existing → table.turnedAway number token =
    (calls grammar follow start state token).filter fun entry => entry != existing
  different : (table.turnedAway number token).toFinset.card =
    (calls grammar follow start state token).toFinset.card - 1
  endings : ∀ entry, (∀ next, entry ≠ .shift next) →
    (table.turnedAway number token).count entry ≤ 1
  shifts : ∀ next, .shift next ∈ table.turnedAway number token →
    (table.turnedAway number token).count (.shift next) =
      state.items.items.countP fun item => item.symbol? == some token

/-- The cells of a table log what their items call for, so that no conflict is logged twice
exactly if no shift is turned away that two items of its state ask for. -/
structure Logs (states : List State) (table : Table) : Prop where
  asked : ∀ state ∈ states, ∀ item ∈ state.items.items, ∀ token entry,
    asks grammar follow start state token item = some entry ↔
      Candidate grammar follow start (state.alone item) token entry
  cells : ∀ (number : Nat) (state : State), states[number]? = some state →
    ∀ token, LoggedCell grammar follow start table number state token
  single : table.conflicts.Nodup ↔ ∀ (number : Nat) (state : State),
    states[number]? = some state → ∀ token next, .shift next ∈ table.turnedAway number token →
      (state.items.items.countP fun item => item.symbol? == some token) ≤ 1

end Logs

section Building

variable {grammar : Grammar} {follow : SetMap} {start : Production} {startItem : Item}
  {states : List State} {state : State} {table : Table} {number : Nat} {token : Symbol}

/-- A cell holds the first entry it is asked to hold and turns away all others. -/
theorem GrantedRow.held_and_log {asked : List Request}
    (granted : GrantedRow grammar follow start table number state asked)
    (canonical : grammar.Canonical startItem states) (covers : grammar.CoversHeads follow)
    (member : state ∈ states) (token : Symbol) :
    table.action number token =
        .ok ((calls grammar follow start state token).head?.getD .error) ∧
      table.turnedAway number token = (calls grammar follow start state token).filter
        fun entry => (calls grammar follow start state token).head? != some entry := by
  have entries (other : Symbol) :
      (grant state.id asked ∅ []).1.get? other = asked.lookup other := by
    rw [get?_grant]
    rfl
  have filled : ∀ request ∈ asked, (grant state.id asked ∅ []).1.get? request.1 ≠ none := by
    intro request inside unasked
    rw [entries] at unasked
    have absent := List.lookup_eq_none_iff.mp unasked request inside
    rw [bne_self_eq_false] at absent
    cases absent
  have calledFor : named token asked = calls grammar follow start state token :=
    named_requests canonical covers member granted.requested
  rw [← calledFor, head?_named]
  refine ⟨by rw [action_of_row granted.row, entries], ?_⟩
  rw [turnedAway, ← List.filter_filter, granted.log, log_grant, List.nil_append,
    log_of_token state.id filled, entries]

theorem GrantedRow.loggedCell {asked : List Request}
    (granted : GrantedRow grammar follow start table number state asked)
    (canonical : grammar.Canonical startItem states) (covers : grammar.CoversHeads follow)
    (member : state ∈ states) (root : start ∈ grammar.productions) (token : Symbol) :
    LoggedCell grammar follow start table number state token := by
  obtain ⟨held, away⟩ := granted.held_and_log canonical covers member token
  have kept {entry : Entry} (turned : entry ∈ table.turnedAway number token) :
      (table.turnedAway number token).count entry =
        (calls grammar follow start state token).count entry := by
    rw [away] at turned ⊢
    exact List.count_filter (List.mem_filter.mp turned).2
  have log {existing : Entry} (read : table.action number token = .ok existing) :
      table.turnedAway number token =
        (calls grammar follow start state token).filter fun entry => entry != existing := by
    rw [held, Except.ok.injEq] at read
    rw [away, ← read]
    cases calls grammar follow start state token with
    | nil => rfl
    | cons first rest =>
      refine List.filter_congr fun entry _ => ?_
      rw [Bool.eq_iff_iff, bne_iff_ne, bne_iff_ne]
      exact not_congr (Option.some_inj.trans eq_comm)
  refine ⟨held, fun existing read => log read, ?_, fun entry ends => ?_, fun next turned => ?_⟩
  · rw [log held]
    cases calls grammar follow start state token with
    | nil => rfl
    | cons first rest =>
      rw [← Finset.card_erase_of_mem (List.mem_toFinset.mpr List.mem_cons_self)]
      congr 1
      ext entry
      simp [and_comm]
  · rw [away]
    exact (List.filter_sublist.count_le entry).trans
      (count_calls_le_one canonical covers member root ends)
  · rw [kept turned]
    rw [away] at turned
    exact count_calls_shift canonical covers member (List.mem_filter.mp turned).1

/-! ### Repeated conflicts -/

/-- What is logged against a cell is told apart by the entries that are turned away. -/
theorem Exact.conflict_ext (exact : Exact grammar follow start states table)
    {one other : Conflict} (oneLogged : one ∈ table.conflicts)
    (otherLogged : other ∈ table.conflicts) (sameState : one.state = other.state)
    (sameSymbol : one.symbol = other.symbol) (sameEntry : one.attempted = other.attempted) :
    one = other := by
  obtain ⟨number, state, found, numbered, _⟩ := exact.inside one oneLogged
  obtain ⟨_, token, kind, existing, attempted⟩ := one
  obtain ⟨_, _, otherKind, otherExisting, _⟩ := other
  change _ = _ at numbered sameState sameSymbol sameEntry
  subst numbered sameState sameSymbol sameEntry
  have cell := exact.cells number state found token
  obtain ⟨read, _, _, kindOf⟩ := (cell.logged kind existing attempted).mp oneLogged
  obtain ⟨otherRead, _, _, otherKindOf⟩ :=
    (cell.logged otherKind otherExisting attempted).mp otherLogged
  obtain rfl := Except.ok.inj (read.symm.trans otherRead)
  have kinds : kind = .reduceReduce ↔ otherKind = .reduceReduce := kindOf.trans otherKindOf.symm
  have same : kind = otherKind := by
    revert kinds
    cases kind <;> cases otherKind <;> decide
  rw [same]

theorem mem_filter_iff_of_cell {conflict : Conflict} :
    conflict ∈ (table.conflicts.filter fun conflict =>
        conflict.symbol == token && conflict.state == (number : Int)) ↔
      conflict ∈ table.conflicts ∧ conflict.symbol = token ∧ conflict.state = number := by
  rw [List.mem_filter, Bool.and_eq_true, beq_iff_eq, beq_iff_eq]

/-- A cell turns an entry away once for each time that the conflict is logged. -/
theorem count_conflicts_le (conflict : Conflict) (numbered : conflict.state = (number : Int)) :
    table.conflicts.count conflict ≤
      (table.turnedAway number conflict.symbol).count conflict.attempted := by
  rw [turnedAway, ← List.count_filter
    (p := fun other => other.symbol == conflict.symbol && other.state == (number : Int))
    (by rw [numbered, beq_self_eq_true, beq_self_eq_true]; rfl)]
  exact List.count_le_count_map

/-- No conflict is logged twice exactly if no cell turns away a shift that two items ask for, as a
shift is turned away once for each item in front of the token. -/
theorem nodup_conflicts_iff (exact : Exact grammar follow start states table)
    (cells : ∀ (number : Nat) (state : State), states[number]? = some state →
      ∀ token, LoggedCell grammar follow start table number state token) :
    table.conflicts.Nodup ↔ ∀ (number : Nat) (state : State), states[number]? = some state →
      ∀ token next, .shift next ∈ table.turnedAway number token →
        (state.items.items.countP fun item => item.symbol? == some token) ≤ 1 := by
  constructor
  · intro apart number state found token next turned
    have once : (table.turnedAway number token).Nodup := by
      refine List.Nodup.map_on (fun one oneMember other otherMember sameEntry => ?_)
        (apart.filter _)
      obtain ⟨oneLogged, oneSymbol, oneState⟩ := mem_filter_iff_of_cell.mp oneMember
      obtain ⟨otherLogged, otherSymbol, otherState⟩ := mem_filter_iff_of_cell.mp otherMember
      exact exact.conflict_ext oneLogged otherLogged (oneState.trans otherState.symm)
        (oneSymbol.trans otherSymbol.symm) sameEntry
    rw [← (cells number state found token).shifts next turned]
    exact List.nodup_iff_count_le_one.mp once _
  · intro few
    refine List.nodup_iff_count_le_one.mpr fun conflict => ?_
    by_cases logged : conflict ∈ table.conflicts
    · obtain ⟨number, state, found, numbered, _⟩ := exact.inside conflict logged
      refine (count_conflicts_le conflict numbered).trans ?_
      have turned : conflict.attempted ∈ table.turnedAway number conflict.symbol :=
        List.mem_map_of_mem (mem_filter_iff_of_cell.mpr ⟨logged, rfl, numbered⟩)
      have cell := cells number state found conflict.symbol
      by_cases ends : ∀ next, conflict.attempted ≠ .shift next
      · exact cell.endings _ ends
      · obtain ⟨next, shift⟩ := not_forall_not.mp ends
        rw [shift] at turned ⊢
        rw [cell.shifts next turned]
        exact few number state found conflict.symbol next turned
    · rw [List.count_eq_zero_of_not_mem logged]
      exact Nat.zero_le 1

end Building

open Grammar

/-- The table of the augmentation of a grammar, with any lookahead sets for all heads, logs every
request that a cell turns away. No conflict is logged twice exactly if no cell turns away a shift
that two items of its state ask for. -/
theorem build_logs {grammar augmented : Grammar} {follow : SetMap}
    (found : grammar.augment = .ok augmented) (covers : augmented.CoversHeads follow) :
    ∃ start states table, grammar.startSymbol = some start ∧
      augmented.startProduction = .ok (grammar.root start) ∧
      augmented.automaton = .ok states ∧ build augmented states follow = .ok table ∧
      Logs augmented follow (grammar.root start) states table := by
  obtain ⟨start, augments⟩ := augments_of_augment found
  obtain ⟨states, statesFound, canonical⟩ := automaton_exists augments.flagged
  obtain ⟨table, built, recorded⟩ := build_recorded augments.flagged canonical covers
  obtain ⟨other, otherBuilt, rows, _⟩ := build_granted augments.flagged canonical covers
  obtain rfl := Except.ok.inj (built.symm.trans otherBuilt)
  rw [augments.startOf_eq] at recorded rows
  have cells (number : Nat) (state : State) (stateFound : states[number]? = some state)
      (token : Symbol) :
      LoggedCell augmented follow (grammar.root start) table number state token := by
    obtain ⟨asked, granted⟩ := rows number state stateFound
    exact granted.loggedCell canonical covers (List.mem_of_getElem? stateFound) augments.root_mem
      token
  refine ⟨start, states, table, augments.started, ?_, statesFound, built, ?_, cells,
    nodup_conflicts_iff (recorded.exact canonical) cells⟩
  · rw [startProduction, dif_pos augments.flagged, augments.startOf_eq]
  · exact fun state member item inside token entry =>
      asks_eq_some_iff canonical covers member inside

end Table

namespace Grammar

/-- A sentence that two longer ones begin with, and lists of sentences. -/
def overlapping : Grammar :=
  ⟨[⟨0, "S", ["x"]⟩, ⟨1, "S", ["x", "a", "b"]⟩, ⟨2, "S", ["x", "a", "c"]⟩, ⟨3, "S", ["S", "a"]⟩],
    false, (faultOf_eq_none_iff _ _).mp (by decide)⟩

/-- The same alternatives with the longer ones in front. -/
def overlappingFirst : Grammar :=
  ⟨[⟨0, "S", ["x", "a", "b"]⟩, ⟨1, "S", ["x", "a", "c"]⟩, ⟨2, "S", ["x"]⟩, ⟨3, "S", ["S", "a"]⟩],
    false, (faultOf_eq_none_iff _ _).mp (by decide)⟩

end Grammar

namespace Table

open Grammar

/-- The conflict behind the short sentence. -/
def overlap : Conflict :=
  ⟨1, "a", .shiftReduce, .reduce ⟨1, "S", ["x"]⟩, .shift 3⟩

/-- Both longer sentences ask for the shift behind the short one, and it is logged twice. -/
theorem build_logs_overlapping :
    ∃ augmented states sets table state, overlapping.augment = .ok augmented ∧
      augmented.automaton = .ok states ∧ augmented.lookaheadSets = .ok sets ∧
      augmented.CoversHeads sets.follow ∧ build augmented states sets.follow = .ok table ∧
      Logs augmented sets.follow (overlapping.root "S") states table ∧
      table.conflicts = [overlap, overlap] ∧ states[1]? = some state ∧
      (state.items.items.countP fun item => item.symbol? == some "a") = 2 := by
  obtain ⟨augmented, _, found, _⟩ :=
    augment_exists (show overlapping.augmented = false from rfl) (List.cons_ne_nil _ _)
  obtain ⟨sets, setsFound, closed⟩ := augmented.lookaheadSets_exists
  obtain ⟨start, states, table, started, _, statesFound, built, logs⟩ :=
    build_logs found closed.covers
  rw [← Option.some_inj.mp started] at logs
  have evaluated : ((Analysis.ofGrammar overlapping).toOption.map fun analysis =>
      (analysis.states.length, analysis.table.conflicts)) = some (7, [overlap, overlap]) := by
    decide +kernel
  rw [Analysis.ofGrammar_of_stages (List.cons_ne_nil _ _) found setsFound statesFound built]
    at evaluated
  obtain ⟨sized, conflicts⟩ := Prod.mk.inj (Option.some_inj.mp evaluated)
  change table.conflicts = _ at conflicts
  have place : 1 < states.length := by
    rw [show states.length = 7 from sized]
    decide
  have stateFound := List.getElem?_eq_getElem place
  have turned : table.turnedAway 1 "a" = [.shift 3, .shift 3] := by
    rw [turnedAway, conflicts]
    rfl
  have counted := (logs.cells 1 states[1] stateFound "a").shifts 3 (by
    rw [turned]
    exact List.mem_cons_self)
  rw [turned] at counted
  exact ⟨augmented, states, sets, table, states[1], found, statesFound, setsFound, closed.covers,
    built, logs, conflicts, stateFound, counted.symm⟩

/-- Conflicts are repeated, and how often depends on the order of the alternatives. -/
theorem overlapping_repeats :
    (¬ ∀ grammar augmented table, Grammar.augment grammar = .ok augmented →
      augmented.table = .ok table → table.conflicts.Nodup) ∧
    ((overlapping.augment.toOption.bind fun augmented => augmented.table.toOption).map
      conflicts) = some [overlap, overlap] ∧
    ((overlappingFirst.augment.toOption.bind fun augmented => augmented.table.toOption).map
      fun table => table.conflicts.length) = some 1 := by
  have evaluated : ((overlapping.augment.toOption.bind fun augmented =>
      augmented.table.toOption).map conflicts) = some [overlap, overlap] := by
    decide +kernel
  refine ⟨fun unrepeated => ?_, evaluated, by decide +kernel⟩
  obtain ⟨table, tabled, repeats⟩ := Option.map_eq_some_iff.mp evaluated
  obtain ⟨augmented, found, built⟩ := Option.bind_eq_some_iff.mp tabled
  have apart := unrepeated overlapping augmented table (toOption_eq_some_iff.mp found)
    (toOption_eq_some_iff.mp built)
  rw [repeats] at apart
  exact (List.nodup_cons.mp apart).1 List.mem_cons_self

end Table

end ShiftReduce
