/-
This file proves that the automaton of an augmented grammar recognises the viable prefixes
of the grammar, and that the state a string leads to holds exactly the items that are valid
for the string. That a state holds nothing else follows by induction on the string, since
moving a dot and calling for start items keep validity. That it holds everything follows by
induction on the left context: a state with the item in front of a non-terminal has the
start items of the non-terminal, and a state is left by every symbol that one of its items
expects.
-/

import Mathlib.Data.List.Induction
import ShiftReduce.Proofs.Exploration

namespace ShiftReduce

namespace State

/-- A string ends with one more transition. -/
theorem walk_concat (states : List State) (number : Nat) (string : List Symbol)
    (symbol : Symbol) :
    walk states number (string ++ [symbol]) =
      (walk states number string).bind fun middle => next states middle symbol := by
  rw [walk_append]
  congr 1
  funext middle
  exact Option.bind_fun_some _

/-- Behind a string that leads to a state, the transitions of the state decide. -/
theorem walk_concat_of_found {states : List State} {number middle : Nat} {string : List Symbol}
    {state : State} (walked : walk states number string = some middle)
    (found : states[middle]? = some state) (symbol : Symbol) :
    walk states number (string ++ [symbol]) = state.transitions.get? symbol := by
  rw [walk_concat, walked, Option.bind_some, next, found, Option.bind_some]

end State

namespace Grammar

section States

variable {grammar : Grammar} {start : Item} {states : List State}

/-! ### Moving between states -/

theorem Canonical.mem_closure_of_getElem? (canonical : grammar.Canonical start states)
    (owned : start.production ∈ grammar.productions) {state : State}
    (found : states[0]? = some state) {item : Item} :
    item ∈ state.items.items ↔ grammar.InClosure [start] item := by
  obtain ⟨first, firstFound, items⟩ := canonical.first
  rw [firstFound, Option.some_inj] at found
  rw [← found, items]
  exact mem_closure fun other only => List.mem_singleton.mp only ▸ owned

/-- A transition leads to the closure of the items whose dot was moved. -/
theorem Canonical.mem_next (canonical : grammar.Canonical start states) {number target : Nat}
    {symbol : Symbol} {state other : State} (found : states[number]? = some state)
    (leads : State.next states number symbol = some target)
    (otherFound : states[target]? = some other) {item : Item} :
    item ∈ other.items.items ↔ grammar.InClosure (advanced state.items symbol) item := by
  have member := List.mem_of_getElem? found
  have owned := advanced_owned (canonical.owned state member) symbol
  rw [State.next, found, Option.bind_some] at leads
  obtain ⟨set, setLeads, actual, actualFound, same⟩ :=
    canonical.leads state member symbol target leads
  rw [otherFound, Option.some_inj] at actualFound
  subst actualFound
  have items := (goto_eq_some_iff.mp setLeads).2
  have setOwned : grammar.Owns set.items := items ▸ closure_owns owned
  have otherOwned := canonical.owned other (List.mem_of_getElem? otherFound)
  rw [← mem_closure owned, ← items]
  exact ⟨mem_of_sameSet otherOwned setOwned same,
    mem_of_sameSet setOwned otherOwned (sameSet_comm same)⟩

theorem Canonical.next_exists (canonical : grammar.Canonical start states) {number : Nat}
    {symbol : Symbol} {state : State} (found : states[number]? = some state) {item : Item}
    (member : item ∈ state.items.items) (behind : item.symbol? = some symbol) :
    ∃ target other, State.next states number symbol = some target ∧
      states[target]? = some other := by
  obtain ⟨set, setLeads⟩ := goto_isSome_iff.mpr ⟨item, member, behind⟩
  obtain ⟨target, written⟩ :=
    canonical.covers state (List.mem_of_getElem? found) symbol set setLeads
  obtain ⟨_, _, other, otherFound, _⟩ :=
    canonical.leads state (List.mem_of_getElem? found) symbol target written
  exact ⟨target, other, by rw [State.next, found]; exact written, otherFound⟩

theorem Canonical.getElem?_next (canonical : grammar.Canonical start states)
    {number target : Nat} {symbol : Symbol}
    (leads : State.next states number symbol = some target) :
    ∃ state other, states[number]? = some state ∧ states[target]? = some other := by
  obtain ⟨state, found, written⟩ := Option.bind_eq_some_iff.mp leads
  obtain ⟨_, _, other, otherFound, _⟩ :=
    canonical.leads state (List.mem_of_getElem? found) symbol target written
  exact ⟨state, other, found, otherFound⟩

/-- Every walk from the first state ends in a state. -/
theorem Canonical.getElem?_walk (canonical : grammar.Canonical start states)
    {string : List Symbol} {number : Nat} (walked : State.walk states 0 string = some number) :
    ∃ state, states[number]? = some state := by
  cases string using List.reverseRecOn with
  | nil =>
    obtain ⟨state, found, _⟩ := canonical.first
    rw [← Option.some_inj.mp walked]
    exact ⟨state, found⟩
  | append_singleton string symbol =>
    rw [State.walk_concat] at walked
    obtain ⟨middle, _, leads⟩ := Option.bind_eq_some_iff.mp walked
    obtain ⟨_, other, _, found⟩ := canonical.getElem?_next leads
    exact ⟨other, found⟩

/-- A state with an item also has, at the end of what is left of the body, the item with its
dot there. -/
theorem Canonical.walk_body (canonical : grammar.Canonical start states) {string : List Symbol}
    {number : Nat} {state : State} {production : Production}
    (walked : State.walk states 0 string = some number) (found : states[number]? = some state)
    (member : Item.start production ∈ state.items.items) (dot : Nat)
    (inside : dot ≤ production.body.length) :
    ∃ target other, State.walk states 0 (string ++ production.body.take dot) = some target ∧
      states[target]? = some other ∧ (⟨production, dot, inside⟩ : Item) ∈ other.items.items := by
  induction dot with
  | zero =>
    rw [List.take_zero, List.append_nil]
    exact ⟨number, state, walked, found, member⟩
  | succ dot inductionHypothesis =>
    obtain ⟨middle, between, middleWalked, middleFound, middleMember⟩ :=
      inductionHypothesis (Nat.le_of_succ_le inside)
    have behind : (⟨production, dot, Nat.le_of_succ_le inside⟩ : Item).symbol? =
        some production.body[dot] := List.getElem?_eq_getElem inside
    obtain ⟨target, other, leads, otherFound⟩ :=
      canonical.next_exists middleFound middleMember behind
    refine ⟨target, other, ?_, otherFound, ?_⟩
    · rw [List.take_add_one, List.getElem?_eq_getElem inside, Option.toList_some,
        ← List.append_assoc, State.walk_concat, middleWalked, Option.bind_some]
      exact leads
    · exact (canonical.mem_next middleFound leads otherFound).mpr (.given (mem_advanced.mpr
        ⟨_, middleMember, Item.advanceOver?_eq_some_iff.mpr ⟨behind, rfl, rfl⟩⟩))

/-- The items of a state that a walk ends in are a closure of some items. -/
theorem Canonical.closed (canonical : grammar.Canonical start states)
    (owned : start.production ∈ grammar.productions) {string : List Symbol} {number : Nat}
    {state : State} (walked : State.walk states 0 string = some number)
    (found : states[number]? = some state) :
    ∃ given : List Item, given ≠ [] ∧
      ∀ item, item ∈ state.items.items ↔ grammar.InClosure given item := by
  cases string using List.reverseRecOn with
  | nil =>
    rw [← Option.some_inj.mp walked] at found
    exact ⟨[start], List.cons_ne_nil _ _,
      fun _ => canonical.mem_closure_of_getElem? owned found⟩
  | append_singleton string symbol =>
    rw [State.walk_concat] at walked
    obtain ⟨middle, _, leads⟩ := Option.bind_eq_some_iff.mp walked
    obtain ⟨before, beforeFound, written⟩ := Option.bind_eq_some_iff.mp leads
    obtain ⟨set, setLeads, _⟩ :=
      canonical.leads before (List.mem_of_getElem? beforeFound) symbol number written
    exact ⟨advanced before.items symbol, (goto_eq_some_iff.mp setLeads).1,
      fun _ => canonical.mem_next beforeFound leads found⟩

end States

/-! ### Valid items -/

/-- An item stands in front of every symbol of a body. -/
theorem exists_item_of_split {production : Production} {symbol : Symbol}
    {before after : List Symbol} (split : production.body = before ++ symbol :: after) :
    ∃ inside : before.length ≤ production.body.length,
      production.body.take before.length = before ∧
      (⟨production, before.length, inside⟩ : Item).symbol? = some symbol := by
  have inside : before.length ≤ production.body.length := by
    rw [split, List.length_append]
    exact Nat.le_add_right _ _
  refine ⟨inside, by rw [split, List.take_left], ?_⟩
  show production.body[before.length]? = some symbol
  rw [split, List.getElem?_append_right (Nat.le_refl _), Nat.sub_self, List.getElem?_cons_zero]

section Augmented

variable {grammar augmented : Grammar} {start : Symbol} {states : List State}

theorem validItem_of_mem (augments : grammar.Augments augmented start)
    (canonical : augmented.Canonical (Item.start (grammar.root start)) states)
    {string : List Symbol} {number : Nat} {state : State}
    (walked : State.walk states 0 string = some number) (found : states[number]? = some state)
    {item : Item} (member : item ∈ state.items.items) : augmented.ValidItem string item := by
  induction string using List.reverseRecOn generalizing number state item with
  | nil =>
    rw [← Option.some_inj.mp walked] at found
    have closed := (canonical.mem_closure_of_getElem? augments.root_mem found).mp member
    induction closed with
    | given only =>
      rw [List.mem_singleton.mp only]
      exact ⟨augments.root_mem, [], .start augments.startSymbol_eq, rfl⟩
    | predicted closed behind headed inductionHypothesis =>
      exact (inductionHypothesis ((canonical.mem_closure_of_getElem? augments.root_mem
        found).mpr closed)).predicted behind headed
  | append_singleton string symbol inductionHypothesis =>
    rw [State.walk_concat] at walked
    obtain ⟨middle, middleWalked, leads⟩ := Option.bind_eq_some_iff.mp walked
    obtain ⟨before, _, beforeFound, _⟩ := canonical.getElem?_next leads
    have closed := (canonical.mem_next beforeFound leads found).mp member
    clear member
    induction closed with
    | given moved =>
      obtain ⟨former, formerMember, crossed⟩ := mem_advanced.mp moved
      exact (inductionHypothesis middleWalked beforeFound formerMember).advance crossed
    | predicted _ behind headed closedHypothesis =>
      exact closedHypothesis.predicted behind headed

/-- The state that a left context leads to has the start items of its non-terminal. -/
theorem start_mem_of_leftContext (augments : grammar.Augments augmented start)
    (canonical : augmented.Canonical (Item.start (grammar.root start)) states)
    {symbol : Symbol} {context : List Symbol}
    (outer : augmented.LeftContext symbol context) :
    ∃ number state, State.walk states 0 context = some number ∧
      states[number]? = some state ∧
      ∀ production ∈ augmented.productionsFor symbol,
        Item.start production ∈ state.items.items := by
  induction outer with
  | @start symbol first =>
    obtain ⟨state, found, _⟩ := canonical.first
    refine ⟨0, state, rfl, found, fun production headed => ?_⟩
    rw [augments.startSymbol_eq, Option.some_inj] at first
    rw [← first] at headed
    rw [augments.mem_productionsFor_freshStart.mp headed]
    exact (canonical.mem_closure_of_getElem? augments.root_mem found).mpr
      (.given List.mem_cons_self)
  | @inside context production before after symbol outer member split nonTerminal
      inductionHypothesis =>
    obtain ⟨number, state, walked, found, starts⟩ := inductionHypothesis
    obtain ⟨inside, front, behind⟩ := exists_item_of_split split
    obtain ⟨target, other, targetWalked, otherFound, itemMember⟩ := canonical.walk_body walked
      found (starts production (mem_productionsFor.mpr ⟨member, rfl⟩)) before.length inside
    rw [front] at targetWalked
    refine ⟨target, other, targetWalked, otherFound, fun following headed => ?_⟩
    obtain ⟨given, _, closed⟩ := canonical.closed augments.root_mem targetWalked otherFound
    exact (closed _).mpr (.predicted ((closed _).mp itemMember) behind headed)

theorem mem_of_validItem (augments : grammar.Augments augmented start)
    (canonical : augmented.Canonical (Item.start (grammar.root start)) states)
    {string : List Symbol} {item : Item} (valid : augmented.ValidItem string item) :
    ∃ number state, State.walk states 0 string = some number ∧
      states[number]? = some state ∧ item ∈ state.items.items := by
  obtain ⟨member, context, outer, rfl⟩ := valid
  obtain ⟨number, state, walked, found, starts⟩ :=
    start_mem_of_leftContext augments canonical outer
  exact canonical.walk_body walked found
    (starts item.production (mem_productionsFor.mpr ⟨member, rfl⟩)) item.dot item.inside

/-- The state that a string leads to holds exactly the items valid for the string. -/
theorem mem_state_iff (augments : grammar.Augments augmented start)
    (canonical : augmented.Canonical (Item.start (grammar.root start)) states)
    {string : List Symbol} {number : Nat} {state : State}
    (walked : State.walk states 0 string = some number) (found : states[number]? = some state)
    {item : Item} : item ∈ state.items.items ↔ augmented.ValidItem string item := by
  refine ⟨validItem_of_mem augments canonical walked found, fun valid => ?_⟩
  obtain ⟨actual, other, actualWalked, otherFound, member⟩ :=
    mem_of_validItem augments canonical valid
  rw [walked, Option.some_inj] at actualWalked
  rw [← actualWalked, found, Option.some_inj] at otherFound
  rw [otherFound]
  exact member

/-- Exactly the viable prefixes lead to a state. -/
theorem walk_exists_iff (augments : grammar.Augments augmented start)
    (canonical : augmented.Canonical (Item.start (grammar.root start)) states)
    {string : List Symbol} :
    (∃ number, State.walk states 0 string = some number) ↔ augmented.IsViable string := by
  constructor
  · rintro ⟨number, walked⟩
    obtain ⟨state, found⟩ := canonical.getElem?_walk walked
    obtain ⟨given, nonempty, closed⟩ := canonical.closed augments.root_mem walked found
    obtain ⟨item, member⟩ := List.exists_mem_of_ne_nil _ nonempty
    exact ⟨item, validItem_of_mem augments canonical walked found
      ((closed item).mpr (.given member))⟩
  · rintro ⟨item, valid⟩
    obtain ⟨number, _, walked, _⟩ := mem_of_validItem augments canonical valid
    exact ⟨number, walked⟩

end Augmented

end Grammar

end ShiftReduce
