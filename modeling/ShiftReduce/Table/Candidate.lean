/-
This file says which entries the items of a state call for, without regard to the order of
the items, and which of these entries the order of the items puts first. A cell without two
different candidates has no conflict.
-/

import ShiftReduce.Table.Build

namespace ShiftReduce

/-- The state with an item in place of its own items. -/
def State.alone (state : State) (item : Item) : State :=
  { state with items := ItemSet.ofList [item] }

namespace Table

/-- The entries that a cell of a state is called to hold. -/
inductive Candidate (grammar : Grammar) (follow : SetMap) (start : Production) (state : State)
    (token : Symbol) : Entry → Prop
  /-- A terminal behind the dot is read. -/
  | shift {item : Item} {next : Nat} (member : item ∈ state.items.items)
      (behind : item.symbol? = some token) (terminal : grammar.isTerminal token = true)
      (leads : state.transitions.get? token = some next) :
      Candidate grammar follow start state token (.shift next)
  /-- A complete item is reduced where its head may end. -/
  | reduce {item : Item} {lookahead : SymbolSet} (member : item ∈ state.items.items)
      (complete : item.isComplete = true) (other : item.production.id ≠ start.id)
      (known : follow.get? item.production.head = some lookahead)
      (column : token ∈ columns grammar) (ahead : token ∈ lookahead) :
      Candidate grammar follow start state token (.reduce item.production)
  /-- The complete start item accepts at the end. -/
  | accept {item : Item} (member : item ∈ state.items.items) (complete : item.isComplete = true)
      (own : item.production.id = start.id) (ending : token = Symbol.endMarker) :
      Candidate grammar follow start state token .accept

theorem Candidate.ne_error {grammar : Grammar} {follow : SetMap} {start : Production}
    {state : State} {token : Symbol} {entry : Entry}
    (candidate : Candidate grammar follow start state token entry) : entry ≠ .error := by
  cases candidate <;> exact Entry.noConfusion

/-- The requests of an item name candidates only. -/
theorem candidate_of_itemRequests {grammar : Grammar} {follow : SetMap} {start : Production}
    {state : State} {item : Item} {asked : List Request} {token : Symbol} {entry : Entry}
    (member : item ∈ state.items.items)
    (requested : itemRequests grammar follow start state item = .ok asked)
    (inside : (token, entry) ∈ asked) : Candidate grammar follow start state token entry := by
  unfold itemRequests at requested
  split at requested
  · rename_i ended
    have complete := (Item.symbol?_eq_none_iff item).mp ended
    unfold completeRequests at requested
    split at requested
    · rename_i own
      rw [← Except.ok.inj requested, List.mem_singleton, Prod.mk.injEq] at inside
      rw [inside.2]
      exact .accept member complete own inside.1
    · rename_i other
      obtain ⟨lookahead, known, rfl⟩ : ∃ lookahead,
          follow.get? item.production.head = some lookahead ∧
          asked = ((columns grammar).filter fun token => decide (token ∈ lookahead)).map
            fun token => (token, Entry.reduce item.production) := by
        cases read : follow.lookup item.production.head with
        | error fault => rw [read] at requested; cases requested
        | ok lookahead =>
          rw [read] at requested
          exact ⟨lookahead, SymbolMap.lookup_eq_ok_iff.mp read, (Except.ok.inj requested).symm⟩
      obtain ⟨column, kept, equal⟩ := List.mem_map.mp inside
      obtain ⟨listed, ahead⟩ := List.mem_filter.mp kept
      rw [Prod.mk.injEq] at equal
      rw [← equal.1, ← equal.2]
      exact .reduce member complete other known listed (of_decide_eq_true ahead)
  · rename_i symbol behind
    split at requested
    · rename_i terminal
      cases read : state.transitions.lookup symbol with
      | error fault => rw [read] at requested; cases requested
      | ok next =>
        rw [read] at requested
        rw [← Except.ok.inj requested, List.mem_singleton, Prod.mk.injEq] at inside
        rw [inside.1, inside.2]
        exact .shift member behind terminal (SymbolMap.lookup_eq_ok_iff.mp read)
    · rw [← Except.ok.inj requested] at inside
      cases inside

/-- The entry that the first item to call for one calls a cell to hold. -/
def Foremost (grammar : Grammar) (follow : SetMap) (start : Production) (state : State)
    (token : Symbol) (entry : Entry) : Prop :=
  ∃ before item after, state.items.items = before ++ item :: after ∧
    Candidate grammar follow start (state.alone item) token entry ∧
    ∀ earlier ∈ before, ∀ other,
      ¬ Candidate grammar follow start (state.alone earlier) token other

end Table

end ShiftReduce
