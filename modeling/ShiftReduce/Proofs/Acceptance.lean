/-
This file proves that a built table has one cell that accepts, and that no conflict displaces it.
The complete start item lies in no state but the one behind the start symbol, because its dot was
moved from the start item, which lies in the first state alone. There it comes first, as the start
item comes first in the first state, so whatever the lookahead sets are, acceptance is the first
entry its cell is asked to hold. A reduction that wants the same cell is logged against it.
-/

import ShiftReduce.Proofs.Conflicts
import ShiftReduce.Proofs.Kernels

namespace ShiftReduce

namespace Grammar

/-! ### The complete start item -/

/-- The item of the start production with its dot at the end. -/
def ended (grammar : Grammar) (start : Symbol) : Item :=
  ⟨grammar.root start, 1, Nat.le_refl 1⟩

section States

variable {grammar augmented : Grammar} {start : Symbol} {states : List State} {number : Nat}
  {state : State}

theorem advanceOver?_start (grammar : Grammar) (start : Symbol) :
    (Item.start (grammar.root start)).advanceOver? start = some (grammar.ended start) :=
  Item.advanceOver?_eq_some_iff.mpr ⟨rfl, rfl, rfl⟩

/-- Only the state behind the start symbol holds the complete start item, and it was found there. -/
theorem Descends.exists_of_ended_mem
    (descends : augmented.Descends (Item.start (grammar.root start)) states)
    (augments : grammar.Augments augmented start) (found : states[number]? = some state)
    (member : grammar.ended start ∈ state.items.items) :
    ∃ first, states[0]? = some first ∧ augmented.goto first.items start = some state.items ∧
      State.next states 0 start = some number := by
  have later : number ≠ 0 := fun first =>
    Nat.one_ne_zero ((descends.dots_eq_zero_iff augments found).mpr first _ member)
  obtain ⟨parent, other, symbol, _, otherFound, made, leads⟩ := descends.exists_next found later
  cases (descends.mem_next otherFound leads found).mp member with
  | given moved =>
    obtain ⟨former, formerMember, crossed⟩ := mem_advanced.mp moved
    obtain ⟨behind, production, dot⟩ := Item.advanceOver?_eq_some_iff.mp crossed
    have begins : former = Item.start (grammar.root start) :=
      Item.ext production.symm (Nat.succ_inj.mp dot).symm
    rw [begins] at formerMember behind
    obtain rfl := (descends.start_mem_iff augments otherFound).mp formerMember
    obtain rfl : start = symbol := Option.some_inj.mp behind
    exact ⟨other, otherFound, made, leads⟩

/-- Behind the start symbol the complete start item comes first. -/
theorem Descends.items_of_ended
    (descends : augmented.Descends (Item.start (grammar.root start)) states)
    (augments : grammar.Augments augmented start) (found : states[number]? = some state)
    (member : grammar.ended start ∈ state.items.items) :
    ∃ after, state.items.items = grammar.ended start :: after := by
  obtain ⟨first, firstFound, made, _⟩ := descends.exists_of_ended_mem augments found member
  obtain ⟨other, otherFound, items⟩ := descends.first
  rw [firstFound, Option.some_inj] at otherFound
  subst otherFound
  obtain ⟨closed, closedShape, _⟩ := (isKernel_start augments).closure_items augments
  obtain ⟨nonempty, target⟩ := goto_eq_some_iff.mp made
  obtain ⟨added, shape, _⟩ := (isKernel_advanced
    (descends.owned first (List.mem_of_getElem? firstFound)) nonempty).closure_items augments
  have front : advanced first.items start =
      grammar.ended start :: closed.filterMap fun item => item.advanceOver? start := by
    rw [advanced, items, closedShape, List.singleton_append]
    exact List.filterMap_cons_some (advanceOver?_start grammar start)
  rw [target, shape, front]
  exact ⟨_, List.cons_append⟩

/-- The start symbol leads from the first state to one that holds the complete start item. -/
theorem Descends.exists_ended
    (descends : augmented.Descends (Item.start (grammar.root start)) states)
    (augments : grammar.Augments augmented start) :
    ∃ number state, State.next states 0 start = some number ∧ states[number]? = some state ∧
      grammar.ended start ∈ state.items.items := by
  obtain ⟨first, firstFound, _⟩ := descends.first
  have begins := (descends.start_mem_iff augments firstFound).mpr rfl
  obtain ⟨number, state, leads, found⟩ :=
    descends.next_exists firstFound begins (show Item.symbol? _ = some start from rfl)
  refine ⟨number, state, leads, found, (descends.mem_next firstFound leads found).mpr (.given ?_)⟩
  exact mem_advanced.mpr ⟨_, begins, advanceOver?_start grammar start⟩

end States

end Grammar

namespace Table

open Grammar

/-! ### The accepting cell -/

/-- A table accepts in the cell of one state at the end marker and nowhere else, turns acceptance
away nowhere, and logs against it what else the items of the state reduce there. -/
structure AcceptsIn (grammar augmented : Grammar) (start : Symbol) (follow : SetMap)
    (target : Nat) (state : State) (table : Table) : Prop where
  cell : ∀ (number : Nat) token, table.action number token = .ok .accept ↔
    number = target ∧ token = Symbol.endMarker
  kept : ∀ conflict ∈ table.conflicts, conflict.attempted ≠ .accept
  rivals : ∀ item ∈ state.items.items, item.isComplete = true →
    item.production ≠ grammar.root start → ∀ set, follow.get? item.production.head = some set →
    Symbol.endMarker ∈ set →
    ⟨target, Symbol.endMarker, .reduceReduce, .accept, .reduce item.production⟩ ∈ table.conflicts

section Cells

variable {grammar augmented : Grammar} {start : Symbol} {states : List State} {follow : SetMap}
  {table : Table} {number : Nat} {state : State} {token : Symbol}

/-- A cell holds what the first item to call for an entry calls for. -/
theorem ExactCell.action_of_foremost {first : Production} {entry : Entry}
    (cell : ExactCell augmented follow first table number state token)
    (foremost : Foremost augmented follow first state token entry) :
    table.action number token = .ok entry := by
  obtain ⟨held, read, _, single⟩ := cell.first ⟨entry, foremost.candidate⟩
  rw [(single entry).mp foremost]
  exact read

/-- A cell holds a candidate, unless it holds an error. -/
theorem ExactCell.candidate_of_action {first : Production} {entry : Entry}
    (cell : ExactCell augmented follow first table number state token)
    (read : table.action number token = .ok entry) (proper : entry ≠ .error) :
    Candidate augmented follow first state token entry := by
  have called : ∃ other, Candidate augmented follow first state token other := by
    by_contra none
    have empty := cell.empty.mpr fun other candidate => none ⟨other, candidate⟩
    exact proper (Except.ok.inj (read.symm.trans empty))
  obtain ⟨held, again, candidate, _⟩ := cell.first called
  rw [Except.ok.inj (read.symm.trans again)]
  exact candidate

theorem lt_of_action_ok {entry : Entry} (read : table.action number token = .ok entry) :
    number < table.rows.length := by
  obtain ⟨row, known, _⟩ := bind_eq_ok_iff.mp read
  rw [Table.row, valueOr_eq_ok_iff, Position.pick?_natCast] at known
  exact (List.getElem?_eq_some_iff.mp known).1

theorem candidate_accept_iff (augments : grammar.Augments augmented start)
    (owns : augmented.Owns state.items.items) :
    Candidate augmented follow (grammar.root start) state token .accept ↔
      grammar.ended start ∈ state.items.items ∧ token = Symbol.endMarker := by
  constructor
  · intro candidate
    cases candidate with
    | @accept item member complete own ending =>
      have production := production_ext (owns item member) augments.root_mem own
      have dot : item.dot = item.production.body.length := beq_iff_eq.mp complete
      rw [production] at dot
      have same : item = grammar.ended start := Item.ext production dot
      exact ⟨same ▸ member, ending⟩
  · rintro ⟨member, ending⟩
    exact .accept member rfl rfl ending

/-- Acceptance is the first entry that its cell is asked to hold. -/
theorem foremost_accept
    (descends : augmented.Descends (Item.start (grammar.root start)) states)
    (augments : grammar.Augments augmented start) (found : states[number]? = some state)
    (candidate : Candidate augmented follow (grammar.root start) state token .accept) :
    Foremost augmented follow (grammar.root start) state token .accept := by
  have owns := descends.owned state (List.mem_of_getElem? found)
  obtain ⟨member, ending⟩ := (candidate_accept_iff augments owns).mp candidate
  obtain ⟨after, items⟩ := descends.items_of_ended augments found member
  exact ⟨[], grammar.ended start, after, items, .accept (State.mem_alone.mpr rfl) rfl rfl ending,
    fun _ none => absurd none List.not_mem_nil⟩

theorem Exact.acceptsIn (exact : Exact augmented follow (grammar.root start) states table)
    (sized : table.rows.length = states.length)
    (descends : augmented.Descends (Item.start (grammar.root start)) states)
    (augments : grammar.Augments augmented start) {target : Nat} {behind : State}
    (leads : State.next states 0 start = some target) (found : states[target]? = some behind)
    (member : grammar.ended start ∈ behind.items.items) :
    AcceptsIn grammar augmented start follow target behind table := by
  have owns {number : Nat} {state : State} (found : states[number]? = some state) :
      augmented.Owns state.items.items := descends.owned state (List.mem_of_getElem? found)
  have held {number : Nat} {state : State} {token : Symbol} (found : states[number]? = some state)
      (candidate : Candidate augmented follow (grammar.root start) state token .accept) :
      table.action number token = .ok .accept :=
    (exact.cells number state found token).action_of_foremost
      (foremost_accept descends augments found candidate)
  have accepts : table.action target Symbol.endMarker = .ok .accept :=
    held found ((candidate_accept_iff augments (owns found)).mpr ⟨member, rfl⟩)
  refine ⟨fun number token => ⟨fun read => ?_, ?_⟩, fun conflict logged rejected => ?_,
    fun item inside complete other set known ahead => ?_⟩
  · have inside : number < states.length := sized ▸ lt_of_action_ok read
    have stateFound := List.getElem?_eq_getElem inside
    have candidate := (exact.cells number states[number] stateFound token).candidate_of_action read
      Entry.noConfusion
    obtain ⟨ended, ending⟩ :=
      (candidate_accept_iff augments (owns stateFound)).mp candidate
    obtain ⟨_, _, _, reached⟩ := descends.exists_of_ended_mem augments stateFound ended
    exact ⟨Option.some_inj.mp (reached.symm.trans leads), ending⟩
  · rintro ⟨rfl, rfl⟩
    exact accepts
  · obtain ⟨number, state, stateFound, numbered, _⟩ := exact.inside conflict logged
    obtain ⟨_, token, kind, existing, attempted⟩ := conflict
    change _ = _ at numbered rejected
    subst numbered
    subst rejected
    obtain ⟨read, candidate, different, _⟩ :=
      ((exact.cells number state stateFound token).logged kind existing .accept).mp logged
    exact different (Except.ok.inj ((held stateFound candidate).symm.trans read))
  · refine ((exact.cells target behind found Symbol.endMarker).logged _ _ _).mpr ⟨accepts, ?_,
      Entry.noConfusion, fun _ => ⟨fun _ => Entry.noConfusion, fun _ => Entry.noConfusion⟩,
      fun _ => rfl⟩
    refine .reduce inside complete (fun own => other ?_) known (mem_columns.mpr (.inr rfl)) ahead
    exact production_ext (owns found item inside) augments.root_mem own

end Cells

/-- The table of the augmentation of a grammar, with any lookahead sets for all heads, accepts in
one cell, and no conflict turns acceptance away. -/
theorem build_acceptsIn (grammar : Grammar) (plain : grammar.augmented = false)
    (nonempty : grammar.productions ≠ []) :
    ∃ augmented start states target state, grammar.augment = .ok augmented ∧
      grammar.startSymbol = some start ∧ augmented.automaton = .ok states ∧
      State.next states 0 start = some target ∧ states[target]? = some state ∧
      ∀ follow, augmented.CoversHeads follow →
        ∃ table, build augmented states follow = .ok table ∧
          AcceptsIn grammar augmented start follow target state table := by
  obtain ⟨augmented, start, augmentedFound, augments⟩ := augment_exists plain nonempty
  obtain ⟨states, statesFound, descends⟩ := automaton_descends augments.flagged
  rw [augments.startOf_eq] at descends
  obtain ⟨target, state, leads, found, member⟩ := descends.exists_ended augments
  refine ⟨augmented, start, states, target, state, augmentedFound, augments.started, statesFound,
    leads, found, fun follow covers => ?_⟩
  obtain ⟨table, built, recorded⟩ :=
    build_recorded augments.flagged descends.toCanonical covers
  obtain ⟨other, otherBuilt, fills⟩ := build_exists augments.flagged descends.toCanonical covers
  obtain rfl := Except.ok.inj (built.symm.trans otherBuilt)
  rw [augments.startOf_eq] at recorded
  exact ⟨table, built, (recorded.exact descends.toCanonical).acceptsIn fills.length descends
    augments leads found member⟩

end Table

namespace Grammar

/-- A start symbol that may stand for itself. -/
def circular : Grammar :=
  ⟨[⟨0, "S", ["S"]⟩, ⟨1, "S", ["a"]⟩], false, (faultOf_eq_none_iff _ _).mp (by decide)⟩

end Grammar

namespace Table

open Grammar

/-- Behind the start symbol its own reduction wants the cell that accepts, and is turned away. -/
theorem build_acceptsIn_circular :
    ∃ augmented states sets table state, circular.augment = .ok augmented ∧
      augmented.automaton = .ok states ∧ augmented.lookaheadSets = .ok sets ∧
      augmented.CoversHeads sets.follow ∧ build augmented states sets.follow = .ok table ∧
      AcceptsIn circular augmented "S" sets.follow 2 state table ∧
      table.conflicts = [⟨2, "$", .reduceReduce, .accept, .reduce ⟨1, "S", ["S"]⟩⟩] := by
  obtain ⟨augmented, start, states, target, state, found, started, statesFound, leads, stateFound,
    general⟩ := build_acceptsIn circular rfl (List.cons_ne_nil _ _)
  obtain ⟨sets, setsFound, closed⟩ := augmented.lookaheadSets_exists
  obtain ⟨table, built, accepts⟩ := general sets.follow closed.covers
  rw [← Option.some_inj.mp started] at accepts leads
  have evaluated : ((Analysis.ofGrammar circular).toOption.map fun analysis =>
      (State.next analysis.states 0 "S", analysis.table.conflicts)) =
      some (some 2, [⟨2, "$", .reduceReduce, .accept, .reduce ⟨1, "S", ["S"]⟩⟩]) := by
    decide +kernel
  rw [Analysis.ofGrammar_of_stages (List.cons_ne_nil _ _) found setsFound statesFound built]
    at evaluated
  obtain ⟨reached, conflicts⟩ := Prod.mk.inj (Option.some_inj.mp evaluated)
  rw [Option.some_inj.mp (leads.symm.trans reached)] at accepts
  exact ⟨augmented, states, sets, table, state, found, statesFound, setsFound, closed.covers, built,
    accepts, conflicts⟩

end Table

end ShiftReduce
