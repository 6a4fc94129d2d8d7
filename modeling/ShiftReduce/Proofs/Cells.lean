/-
This file proves what the cells of a built table hold. Those of a row hold what the first items
of its state call for, and the conflicts of the row name the other candidates. For canonical
states and lookahead sets for all heads the table exists; without conflicts its cells hold all
candidates.
-/

import ShiftReduce.Proofs.Requests

namespace ShiftReduce

namespace Table

/-! ### Reading rows -/

section Reading

variable {table : Table} {state : Int} {token : Symbol} {entry : Entry} {row : Row}

theorem row_eq_ok_iff : table.row state = .ok row ↔
    ∃ number, Position.resolve table.rows.length state = some number ∧
      table.rows[number]? = some row := by
  simp [Table.row, Position.pick?, Option.bind_eq_some_iff]

/-- An entry that is not an error stands in a row. -/
theorem exists_cell (read : table.action state token = .ok entry) (proper : entry ≠ .error) :
    ∃ number row, Position.resolve table.rows.length state = some number ∧
      table.rows[number]? = some row ∧ row.action.get? token = some entry := by
  obtain ⟨row, known, held⟩ := bind_eq_ok_iff.mp read
  obtain ⟨number, named, found⟩ := row_eq_ok_iff.mp known
  refine ⟨number, row, named, found, ?_⟩
  cases cell : row.action.get? token with
  | none =>
    rw [cell] at held
    exact absurd (Except.ok.inj held).symm proper
  | some other =>
    rw [cell] at held
    exact congrArg some (Except.ok.inj held)

end Reading

section Building

variable {grammar : Grammar} {follow : SetMap} {start : Production} {startItem : Item}
  {states : List State} {state : State}

/-! ### Rows -/

theorem buildRow_of_requests {asked : List Request}
    (done : requests grammar follow start state = .ok asked) :
    buildRow grammar follow start state =
      .ok (⟨(grant state.id asked ∅ []).1, gotoRow grammar state⟩,
        (grant state.id asked ∅ []).2) := by
  rw [buildRow, done]
  rfl

/-- What the cells of a row hold, and what is in conflict with it. -/
structure RecordedRow (grammar : Grammar) (follow : SetMap) (start : Production) (state : State)
    (row : Row) (conflicts : List Conflict) : Prop where
  held : ∀ token entry, row.action.get? token = some entry ↔
    Foremost grammar follow start state token entry
  logged : ∀ conflict, conflict ∈ conflicts ↔ conflict.state = state.id ∧
    row.action.get? conflict.symbol = some conflict.existing ∧
    Candidate grammar follow start state conflict.symbol conflict.attempted ∧
    conflict.existing ≠ conflict.attempted ∧
    conflict.kind = ConflictKind.between conflict.existing conflict.attempted

theorem buildRow_recorded (canonical : grammar.Canonical startItem states)
    (covers : grammar.CoversHeads follow) (member : state ∈ states) {row : Row}
    {conflicts : List Conflict}
    (built : buildRow grammar follow start state = .ok (row, conflicts)) :
    RecordedRow grammar follow start state row conflicts := by
  obtain ⟨asked, done, called⟩ := requests_exists start canonical covers member
  rw [buildRow_of_requests done, Except.ok.injEq, Prod.mk.injEq] at built
  obtain ⟨rfl, rfl⟩ := built
  refine ⟨fun token entry => ?_, fun conflict => ?_⟩
  · show (grant state.id asked ∅ []).1.get? token = some entry ↔ _
    rw [get?_grant]
    exact lookup_requests canonical covers member done
  · rw [mem_grant_iff, or_iff_right List.not_mem_nil]
    constructor
    · rintro ⟨⟨token, entry⟩, inside, refused⟩
      obtain ⟨existing, found, other, rfl⟩ := refusal_eq_some_iff.mp refused
      exact ⟨rfl, found, (called token entry).mp inside, other, rfl⟩
    · rintro ⟨numbered, found, candidate, other, kind⟩
      refine ⟨(conflict.symbol, conflict.attempted), (called _ _).mpr candidate,
        refusal_eq_some_iff.mpr ⟨conflict.existing, found, other, ?_⟩⟩
      rw [← numbered, ← kind]

theorem get?_gotoRow {symbol : Symbol} {target : Int} :
    (gotoRow grammar state).get? symbol = some target ↔ grammar.isNonTerminal symbol = true ∧
      ∃ number, state.transitions.get? symbol = some number ∧ (number : Int) = target := by
  have different : ((grammar.nonTerminals.filterMap fun symbol =>
      (state.transitions.get? symbol).map fun target => (symbol, (target : Int))).map
        Prod.fst).Nodup := by
    refine List.pairwise_map.mpr (List.pairwise_filterMap.mpr ((nodup_eraseDups _).imp
      fun {first second} apart one oneFound other otherFound same => apart ?_))
    obtain ⟨_, _, rfl⟩ := Option.map_eq_some_iff.mp oneFound
    obtain ⟨_, _, rfl⟩ := Option.map_eq_some_iff.mp otherFound
    exact same
  rw [gotoRow, SymbolMap.get?_ofList_eq_some_iff different, List.mem_filterMap,
    Grammar.isNonTerminal_iff]
  constructor
  · rintro ⟨other, listed, written⟩
    obtain ⟨signed, lifted, same⟩ := Option.map_eq_some_iff.mp written
    obtain ⟨number, found, equal⟩ := Option.bind_eq_some_iff.mp lifted
    obtain ⟨rfl, rfl⟩ := Prod.mk.inj same
    exact ⟨listed, number, found, Option.some_inj.mp equal⟩
  · rintro ⟨listed, number, found, rfl⟩
    exact ⟨symbol, listed, by rw [found]; rfl⟩

/-- What the row of a state holds, and when it holds everything that is called for. -/
structure RowFor (grammar : Grammar) (follow : SetMap) (start : Production) (state : State)
    (row : Row) (conflicts : List Conflict) : Prop where
  goto : ∀ symbol target, row.goto.get? symbol = some target ↔
    grammar.isNonTerminal symbol = true ∧
      ∃ number, state.transitions.get? symbol = some number ∧ (number : Int) = target
  sound : ∀ token entry, row.action.get? token = some entry →
    Candidate grammar follow start state token entry
  complete : conflicts = [] → ∀ token entry, Candidate grammar follow start state token entry →
    row.action.get? token = some entry

theorem RecordedRow.rowFor {row : Row} {conflicts : List Conflict}
    (recorded : RecordedRow grammar follow start state row conflicts)
    (leads : row.goto = gotoRow grammar state) :
    RowFor grammar follow start state row conflicts where
  goto symbol target := by
    rw [leads]
    exact get?_gotoRow
  sound token entry found := ((recorded.held token entry).mp found).candidate
  complete quiet token entry candidate := by
    obtain ⟨foremost, first⟩ := candidate.exists_foremost
    have held := (recorded.held token foremost).mpr first
    by_contra unheld
    have other : foremost ≠ entry := by
      rintro rfl
      exact unheld held
    have logged : ⟨state.id, token, ConflictKind.between foremost entry, foremost, entry⟩ ∈
        conflicts :=
      (recorded.logged _).mpr ⟨rfl, held, candidate, other, rfl⟩
    rw [quiet] at logged
    cases logged

theorem buildRow_exists (canonical : grammar.Canonical startItem states)
    (covers : grammar.CoversHeads follow) (member : state ∈ states) :
    ∃ row conflicts, buildRow grammar follow start state = .ok (row, conflicts) ∧
      RowFor grammar follow start state row conflicts := by
  obtain ⟨asked, done, _⟩ := requests_exists start canonical covers member
  have built := buildRow_of_requests done
  exact ⟨_, _, built, (buildRow_recorded canonical covers member built).rowFor rfl⟩

/-! ### Tables -/

/-- A table has a row for every state, and these hold what their states call for. -/
structure Fills (grammar : Grammar) (follow : SetMap) (start : Production) (states : List State)
    (table : Table) : Prop where
  rows : ∀ (number : Nat) (state : State), states[number]? = some state →
    ∃ row, table.rows[number]? = some row ∧
      RowFor grammar follow start state row table.conflicts
  length : table.rows.length = states.length

theorem Fills.exists_state {table : Table} (fills : Fills grammar follow start states table)
    {number : Nat} {row : Row} (found : table.rows[number]? = some row) :
    ∃ state, states[number]? = some state ∧
      RowFor grammar follow start state row table.conflicts := by
  have within : number < states.length := fills.length ▸ (List.getElem?_eq_some_iff.mp found).1
  have stateFound := List.getElem?_eq_getElem within
  obtain ⟨other, otherFound, holds⟩ := fills.rows number _ stateFound
  rw [found, Option.some_inj] at otherFound
  subst otherFound
  exact ⟨_, stateFound, holds⟩

/-- A table consists of the rows of its states and of their conflicts. -/
theorem build_rows (augmented : grammar.augmented = true)
    (canonical : grammar.Canonical startItem states) (covers : grammar.CoversHeads follow) :
    ∃ (rows : List (Row × List Conflict)) (table : Table),
      build grammar states follow = .ok table ∧
      states.map (buildRow grammar follow (grammar.startOf augmented)) = rows.map .ok ∧
      table.rows = rows.map Prod.fst ∧ table.conflicts = rows.flatMap Prod.snd := by
  have begins : grammar.startProduction = .ok (grammar.startOf augmented) := dif_pos augmented
  obtain ⟨rows, done, same⟩ :=
    exists_mapM (buildRow grammar follow (grammar.startOf augmented)) fun state member => by
      obtain ⟨row, conflicts, built, _⟩ := buildRow_exists canonical covers member
      exact ⟨(row, conflicts), built⟩
  refine ⟨rows, ⟨columns grammar,
    grammar.nonTerminals.filter fun symbol => symbol != (grammar.startOf augmented).head,
    rows.map Prod.fst, rows.flatMap Prod.snd⟩, ?_, same, rfl, rfl⟩
  rw [build, if_pos augmented, begins]
  show (states.mapM (buildRow grammar follow (grammar.startOf augmented)) >>= _) = _
  rw [done]
  show ofRows grammar (rows.map Prod.fst) (rows.flatMap Prod.snd) = _
  rw [ofRows, begins]
  rfl

/-- The row of a state and the part of the log that is about it are what granting its requests
comes to. -/
structure GrantedRow (grammar : Grammar) (follow : SetMap) (start : Production) (table : Table)
    (number : Nat) (state : State) (asked : List Request) : Prop where
  requested : requests grammar follow start state = .ok asked
  row : table.rows[number]? =
    some ⟨(grant state.id asked ∅ []).1, gotoRow grammar state⟩
  log : (table.conflicts.filter fun conflict => conflict.state == (number : Int)) =
    (grant state.id asked ∅ []).2

/-- For canonical states and lookahead sets for all heads the requests of each state are granted,
and the log is about states. -/
theorem build_granted (augmented : grammar.augmented = true)
    (canonical : grammar.Canonical startItem states) (covers : grammar.CoversHeads follow) :
    ∃ table, build grammar states follow = .ok table ∧
      (∀ (number : Nat) (state : State), states[number]? = some state → ∃ asked,
        GrantedRow grammar follow (grammar.startOf augmented) table number state asked) ∧
      ∀ conflict ∈ table.conflicts, ∃ (number : Nat) (state : State),
        states[number]? = some state ∧ conflict.state = number := by
  obtain ⟨rows, table, built, same, rowsEqual, conflictsEqual⟩ :=
    build_rows augmented canonical covers
  have about {number : Nat} {row : Row} {log : List Conflict}
      (made : rows[number]? = some (row, log)) : ∃ state, states[number]? = some state ∧
        ∀ conflict ∈ log, conflict.state = number := by
    obtain ⟨state, found, rowMade⟩ := (getElem?_of_map_ok same).mp made
    refine ⟨state, found, fun conflict logged => ?_⟩
    rw [(((buildRow_recorded canonical covers (List.mem_of_getElem? found) rowMade).logged
      conflict).mp logged).1, canonical.numbered number state found]
  refine ⟨table, built, fun number state found => ?_, fun conflict logged => ?_⟩
  · obtain ⟨asked, done, _⟩ := requests_exists (grammar.startOf augmented) canonical covers
      (List.mem_of_getElem? found)
    have place := (getElem?_of_map_ok same).mpr ⟨state, found, buildRow_of_requests done⟩
    refine ⟨asked, done, by rw [rowsEqual, List.getElem?_map, place]; rfl, ?_⟩
    rw [conflictsEqual, filter_flatMap_of_getElem? place]
    · obtain ⟨_, _, numbered⟩ := about place
      exact List.filter_eq_self.mpr fun conflict inside => beq_iff_eq.mpr (numbered _ inside)
    · intro other pair made apart conflict inside here
      obtain ⟨_, _, numbered⟩ := about made
      rw [beq_iff_eq, numbered conflict inside] at here
      exact apart (Int.ofNat_inj.mp here)
  · rw [conflictsEqual] at logged
    obtain ⟨pair, member, inside⟩ := List.mem_flatMap.mp logged
    obtain ⟨number, place⟩ := List.mem_iff_getElem?.mp member
    obtain ⟨state, found, numbered⟩ := about place
    exact ⟨number, state, found, numbered conflict inside⟩

/-- For canonical states and lookahead sets for all heads the table exists. -/
theorem build_exists (augmented : grammar.augmented = true)
    (canonical : grammar.Canonical startItem states) (covers : grammar.CoversHeads follow) :
    ∃ table, build grammar states follow = .ok table ∧
      Fills grammar follow (grammar.startOf augmented) states table := by
  obtain ⟨rows, table, built, same, rowsEqual, conflictsEqual⟩ :=
    build_rows augmented canonical covers
  refine ⟨table, built, fun number state found => ?_, ?_⟩
  · obtain ⟨row, conflicts, made, holds⟩ :=
      buildRow_exists canonical covers (List.mem_of_getElem? found)
    have place := (getElem?_of_map_ok same).mpr ⟨state, found, made⟩
    refine ⟨row, by rw [rowsEqual, List.getElem?_map, place]; rfl, holds.goto, holds.sound,
      fun quiet => holds.complete ?_⟩
    rw [conflictsEqual] at quiet
    exact List.flatMap_eq_nil_iff.mp quiet _ (List.mem_of_getElem? place)
  · have lengths := congrArg List.length same
    rw [List.length_map, List.length_map] at lengths
    rw [rowsEqual, List.length_map, lengths]

end Building

end Table

end ShiftReduce
