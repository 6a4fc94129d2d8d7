/-
This file proves what the table of an augmented grammar says behind a string that leads to a
state. A terminal is read exactly if the string still leads somewhere with it at its end; a
production is reduced exactly if the string ends in its body, behind what can stand in front
of its head, and the next token follows the head; and the input is accepted exactly behind
the start symbol, at the end marker. A state in front of which a head can stand leads
somewhere by it, so no reduction is ever refused.
-/

import ShiftReduce.Proofs.Cells
import ShiftReduce.Proofs.ViablePrefix
import ShiftReduce.Run.Reach

namespace ShiftReduce

namespace Grammar

/-! ### Left contexts -/

/-- What an item expects can stand behind the string the item is valid for. -/
theorem ValidItem.leftContext {grammar : Grammar} {string : List Symbol} {item : Item}
    {symbol : Symbol} (valid : grammar.ValidItem string item) (behind : item.symbol? = some symbol)
    (nonTerminal : grammar.isNonTerminal symbol = true) : grammar.LeftContext symbol string := by
  obtain ⟨production, headed⟩ := isNonTerminal_iff_exists.mp nonTerminal
  obtain ⟨_, context, outer, same⟩ := valid.predicted behind headed
  have nothing : (Item.start production).production.body.take (Item.start production).dot = [] :=
    List.take_zero
  rw [nothing, List.append_nil] at same
  rw [same, ← (mem_productionsFor.mp headed).2]
  exact outer

/-- Some item expects a body symbol behind what is in front of it. -/
theorem expected_of_split {grammar : Grammar} {production : Production} {symbol : Symbol}
    {context before after : List Symbol} (member : production ∈ grammar.productions)
    (outer : grammar.LeftContext production.head context)
    (split : production.body = before ++ symbol :: after) :
    ∃ item, grammar.ValidItem (context ++ before) item ∧ item.symbol? = some symbol := by
  obtain ⟨inside, front, behind⟩ := exists_item_of_split split
  refine ⟨⟨production, before.length, inside⟩, ⟨member, context, outer, ?_⟩, behind⟩
  show _ = context ++ production.body.take before.length
  rw [front]

section Augmented

variable {grammar augmented : Grammar} {start : Symbol}

/-- Nothing stands in front of the fresh symbol. -/
theorem Augments.leftContext_freshStart (augments : grammar.Augments augmented start)
    {symbol : Symbol} {context : List Symbol} (outer : augmented.LeftContext symbol context)
    (fresh : symbol = grammar.freshStart start) : context = [] := by
  cases outer with
  | start => rfl
  | inside production before after _ _ member split _ =>
    refine absurd ?_ (augments.not_mem_body member)
    rw [split, ← fresh]
    exact List.mem_append_right _ List.mem_cons_self

/-- Some item expects a symbol that can stand behind a string. -/
theorem Augments.expected_of_leftContext (augments : grammar.Augments augmented start)
    {symbol : Symbol} {context : List Symbol} (outer : augmented.LeftContext symbol context)
    (nonTerminal : grammar.isNonTerminal symbol = true) :
    ∃ item, augmented.ValidItem context item ∧ item.symbol? = some symbol := by
  cases outer with
  | start first =>
    rw [augments.startSymbol_eq, Option.some_inj] at first
    obtain ⟨production, headed⟩ := isNonTerminal_iff_exists.mp nonTerminal
    obtain ⟨member, same⟩ := mem_productionsFor.mp headed
    exact absurd (same.trans first.symm) (head_ne_freshStart member)
  | inside production before after _ outer member split _ =>
    exact expected_of_split member outer split

end Augmented

end Grammar

namespace Simulator

open Grammar Table

/-- The simulator runs the table that was built for the augmentation of a grammar. -/
structure Runs (simulator : Simulator) (grammar : Grammar) (start : Symbol)
    (states : List State) (follow : SetMap) : Prop where
  augments : grammar.Augments simulator.grammar start
  canonical : simulator.grammar.Canonical (Item.start (grammar.root start)) states
  fills : Fills simulator.grammar follow (grammar.root start) states simulator.table

/-- A production is to be reduced behind a string and in front of a token. -/
structure Reducible (simulator : Simulator) (grammar : Grammar) (follow : SetMap)
    (string : List Symbol) (token : Symbol) (production : Production) : Prop where
  member : production ∈ grammar.productions
  column : grammar.isTerminal token = true ∨ token = Symbol.endMarker
  handle : ∃ context, simulator.grammar.LeftContext production.head context ∧
    string = context ++ production.body
  ahead : ∃ set, follow.get? production.head = some set ∧ token ∈ set

section Cells

variable {simulator : Simulator} {grammar : Grammar} {start : Symbol} {states : List State}
  {follow : SetMap} {string : List Symbol} {number : Nat} {token : Symbol}

theorem Runs.row (runs : simulator.Runs grammar start states follow)
    (walked : State.walk states 0 string = some number) :
    ∃ state row, states[number]? = some state ∧ simulator.table.row number = .ok row ∧
      RowFor simulator.grammar follow (grammar.root start) state row [] := by
  obtain ⟨state, found⟩ := runs.canonical.getElem?_walk walked
  obtain ⟨row, rowFound, holds⟩ := runs.fills.rows number state found
  rw [simulator.deterministic] at holds
  refine ⟨state, row, found, ?_, holds⟩
  simp [Table.row, rowFound]

theorem Runs.action_exists (runs : simulator.Runs grammar start states follow)
    (walked : State.walk states 0 string = some number) (token : Symbol) :
    ∃ entry, simulator.table.action number token = .ok entry := by
  obtain ⟨_, row, _, read, _⟩ := runs.row walked
  rw [Table.action, read]
  exact ⟨_, rfl⟩

/-- Entries other than errors are the candidates of the state. -/
theorem Runs.action_eq_iff (runs : simulator.Runs grammar start states follow)
    (walked : State.walk states 0 string = some number) {state : State}
    (found : states[number]? = some state) {entry : Entry} (other : entry ≠ .error) :
    simulator.table.action number token = .ok entry ↔
      Candidate simulator.grammar follow (grammar.root start) state token entry := by
  obtain ⟨actual, row, actualFound, read, holds⟩ := runs.row walked
  rw [found, Option.some_inj] at actualFound
  subst actualFound
  have cell : simulator.table.action number token =
      .ok ((row.action.get? token).getD .error) := by
    rw [Table.action, read]
    rfl
  rw [cell]
  constructor
  · intro same
    cases held : row.action.get? token with
    | none =>
      rw [held] at same
      exact absurd (Except.ok.inj same).symm other
    | some entry' =>
      rw [held] at same
      rw [← Except.ok.inj same]
      exact holds.sound token entry' held
  · intro candidate
    rw [holds.complete rfl token entry candidate]
    rfl

/-- A terminal is read where the string still leads somewhere with it at its end. -/
theorem Runs.action_eq_shift_iff (runs : simulator.Runs grammar start states follow)
    (walked : State.walk states 0 string = some number) {next : Int} :
    simulator.table.action number token = .ok (.shift next) ↔
      grammar.isTerminal token = true ∧ ∃ target : Nat,
        State.walk states 0 (string ++ [token]) = some target ∧ (target : Int) = next := by
  obtain ⟨state, row, found, _⟩ := runs.row walked
  rw [runs.action_eq_iff walked found Entry.noConfusion]
  have extended := State.walk_concat_of_found walked found token
  constructor
  · intro candidate
    cases candidate with
    | @shift item target member behind terminal leads =>
      exact ⟨(runs.augments.isTerminal_iff_isTerminal token).mp terminal, target,
        extended.trans leads, rfl⟩
  · rintro ⟨terminal, target, leads, rfl⟩
    rw [extended] at leads
    obtain ⟨set, reached, _⟩ :=
      runs.canonical.leads state (List.mem_of_getElem? found) token target leads
    obtain ⟨item, member, behind⟩ := goto_isSome_iff.mp ⟨set, reached⟩
    exact .shift member behind ((runs.augments.isTerminal_iff_isTerminal token).mpr terminal) leads

/-- The productions that are to be reduced are reduced. -/
theorem Runs.action_eq_reduce_iff (runs : simulator.Runs grammar start states follow)
    (walked : State.walk states 0 string = some number) {named : Production} :
    simulator.table.action number token = .ok (.reduce named) ↔
      ∃ production, moved production = named ∧
        simulator.Reducible grammar follow string token production := by
  obtain ⟨state, row, found, _⟩ := runs.row walked
  rw [runs.action_eq_iff walked found Entry.noConfusion]
  have columns : token ∈ columns simulator.grammar ↔
      grammar.isTerminal token = true ∨ token = Symbol.endMarker := by
    simp [runs.augments.isTerminal_iff_isTerminal]
  constructor
  · intro candidate
    cases candidate with
    | @reduce item lookahead member complete other known column ahead =>
      obtain ⟨owned, context, outer, same⟩ :=
        (mem_state_iff runs.augments runs.canonical walked found).mp member
      rw [beq_iff_eq.mp complete, List.take_length] at same
      rcases runs.augments.mem_productions.mp owned with root | ⟨production, old, equal⟩
      · exact absurd (congrArg Production.id root) other
      · rw [← equal] at outer known same
        exact ⟨production, equal, old, columns.mp column, ⟨context, outer, same⟩,
          lookahead, known, ahead⟩
  · rintro ⟨production, rfl, member, column, ⟨context, outer, same⟩, lookahead, known, ahead⟩
    have valid : simulator.grammar.ValidItem string
        ⟨moved production, production.body.length, Nat.le_refl _⟩ := by
      refine ⟨runs.augments.moved_mem member, context, outer, ?_⟩
      show string = context ++ production.body.take production.body.length
      rw [List.take_length, same]
    exact .reduce ((mem_state_iff runs.augments runs.canonical walked found).mpr valid)
      (beq_self_eq_true _) (Augments.moved_id_ne_zero member) known (columns.mpr column) ahead

/-- The input is accepted behind the start symbol, at the end marker. -/
theorem Runs.action_eq_accept_iff (runs : simulator.Runs grammar start states follow)
    (walked : State.walk states 0 string = some number) :
    simulator.table.action number token = .ok .accept ↔
      token = Symbol.endMarker ∧ string = [start] := by
  obtain ⟨state, row, found, _⟩ := runs.row walked
  rw [runs.action_eq_iff walked found Entry.noConfusion]
  constructor
  · intro candidate
    cases candidate with
    | @accept item member complete own ending =>
      obtain ⟨owned, context, outer, same⟩ :=
        (mem_state_iff runs.augments runs.canonical walked found).mp member
      have root := production_ext owned runs.augments.root_mem own
      rw [beq_iff_eq.mp complete, List.take_length, root] at same
      rw [root] at outer
      rw [runs.augments.leftContext_freshStart outer rfl, List.nil_append] at same
      exact ⟨ending, same⟩
  · rintro ⟨ending, rfl⟩
    have valid : simulator.grammar.ValidItem [start] ⟨grammar.root start, 1, Nat.le_refl 1⟩ :=
      ⟨runs.augments.root_mem, [], .start runs.augments.startSymbol_eq, rfl⟩
    exact .accept ((mem_state_iff runs.augments runs.canonical walked found).mpr valid)
      (beq_self_eq_true _) rfl ending

/-- A state behind which a head can stand leads somewhere by it. -/
theorem Runs.goto_exists (runs : simulator.Runs grammar start states follow)
    (walked : State.walk states 0 string = some number) {symbol : Symbol}
    (outer : simulator.grammar.LeftContext symbol string)
    (nonTerminal : grammar.isNonTerminal symbol = true) :
    ∃ target : Nat, simulator.table.goto number symbol = .ok (some (target : Int)) ∧
      State.walk states 0 (string ++ [symbol]) = some target := by
  obtain ⟨state, row, found, read, holds⟩ := runs.row walked
  obtain ⟨item, valid, behind⟩ := runs.augments.expected_of_leftContext outer nonTerminal
  have member := (mem_state_iff runs.augments runs.canonical walked found).mpr valid
  obtain ⟨target, _, leads, _⟩ := runs.canonical.next_exists found member behind
  have written := leads
  rw [State.next, found, Option.bind_some] at written
  refine ⟨target, ?_, ?_⟩
  · have cell := (holds.goto symbol target).mpr
      ⟨(runs.augments.isNonTerminal_iff_or symbol).mpr (.inr nonTerminal), target, written, rfl⟩
    rw [Table.goto, read]
    exact congrArg Except.ok cell
  · rw [State.walk_concat, walked]
    exact leads

end Cells

end Simulator

end ShiftReduce
