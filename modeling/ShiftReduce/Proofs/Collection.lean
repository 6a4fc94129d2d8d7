/-
This file proves that the automaton of an augmented grammar is its canonical collection of item
sets, complete and without a set too many. The transitions of a state stand in the order of the
alphabet, and every state but the first was found from one with a smaller number, so some string
leads to it. The rounds of exploring are no limit: no set is left unexplored, and more rounds
find nothing more.
-/

import ShiftReduce.Proofs.FirstSets
import ShiftReduce.Proofs.ViablePrefix

namespace ShiftReduce

namespace Grammar

variable {grammar : Grammar}

/-! ### The order of a row -/

/-- Linking a set writes the symbols it leads somewhere by, in their order. -/
theorem keys_link {set : ItemSet} (symbols : List Symbol) {known : List ItemSet}
    {row : SymbolMap Nat} (different : (row.keys ++ symbols).Nodup) :
    (grammar.link set symbols known row).2.keys =
      row.keys ++ symbols.filter fun symbol => (grammar.goto set symbol).isSome := by
  induction symbols generalizing known row with
  | nil => exact (List.append_nil _).symm
  | cons symbol rest inductionHypothesis =>
    cases leads : grammar.goto set symbol with
    | none =>
      rw [link_cons_none leads, List.filter_cons_of_neg (by rw [leads]; exact Bool.false_ne_true)]
      exact inductionHypothesis (different.sublist
        (List.Sublist.append_left (List.sublist_cons_self symbol rest) _))
    | some target =>
      have absent : symbol ∉ row.keys := fun member =>
        (List.nodup_append.mp different).2.2 symbol member symbol List.mem_cons_self rfl
      have written : (row.insert symbol (enroll known target).2).keys = row.keys ++ [symbol] := by
        rw [SymbolMap.keys_insert, if_neg absent]
      rw [link_cons_some leads, List.filter_cons_of_pos (by rw [leads]; rfl),
        inductionHypothesis, written, List.append_assoc, List.singleton_append]
      rw [written, List.append_assoc, List.singleton_append]
      exact different

/-! ### Where sets come from -/

/-- Every known set but the first was found from one before it, and the explored sets have their
transitions in the order of the alphabet. -/
structure Charted (grammar : Grammar) (known : List ItemSet) (rows : List (SymbolMap Nat)) :
    Prop where
  origin : ∀ (number : Nat) (set : ItemSet), known[number]? = some set → number ≠ 0 →
    ∃ (parent : Nat) (other : ItemSet) (symbol : Symbol), parent < number ∧
      known[parent]? = some other ∧ grammar.goto other symbol = some set
  ordered : ∀ (number : Nat) (set : ItemSet) (row : SymbolMap Nat), known[number]? = some set →
    rows[number]? = some row →
    row.keys = grammar.symbols.filter fun symbol => (grammar.goto set symbol).isSome

theorem charted_start (set : ItemSet) : grammar.Charted [set] [] where
  origin number _ found later := by
    have inside := (List.getElem?_eq_some_iff.mp found).1
    exact absurd (Nat.lt_one_iff.mp inside) later
  ordered _ _ _ _ written := by cases written

/-- Linking one more set keeps the account of where the known sets come from: a set that is new is
led to by the set that is being linked. -/
theorem Charted.step {start : Item} {known : List ItemSet} {rows : List (SymbolMap Nat)}
    (charted : grammar.Charted known rows) (explored : grammar.Explored start known rows)
    {set : ItemSet} (next : known[rows.length]? = some set) :
    grammar.Charted (grammar.link set grammar.symbols known ∅).1
      (rows ++ [(grammar.link set grammar.symbols known ∅).2]) := by
  obtain ⟨grown, apart, source, _⟩ :=
    link_spec grammar.symbols [] explored.apart (linked_empty grammar known set)
  obtain ⟨more, shape⟩ := grown
  have stays {number : Nat} (old : number < known.length) :
      (grammar.link set grammar.symbols known ∅).1[number]? = known[number]? := by
    rw [← shape, List.getElem?_append_left old]
  have now : rows.length < known.length := (List.getElem?_eq_some_iff.mp next).1
  constructor
  · intro number other found later
    rcases Nat.lt_or_ge number known.length with old | new
    · rw [stays old] at found
      obtain ⟨parent, before, symbol, below, parentFound, leads⟩ :=
        charted.origin number other found later
      exact ⟨parent, before, symbol, below, (stays (below.trans old)).trans parentFound, leads⟩
    · rcases source other (List.mem_of_getElem? found) with again | ⟨symbol, _, leads⟩
      · obtain ⟨place, placed⟩ := List.getElem?_of_mem again
        have before := (List.getElem?_eq_some_iff.mp placed).1
        rw [← stays before] at placed
        have same := apart.place_eq placed found (sameSet_refl other)
        exact absurd before (same ▸ Nat.not_lt_of_le new)
      · exact ⟨rows.length, set, symbol, Nat.lt_of_lt_of_le now new, (stays now).trans next, leads⟩
  · intro number other row found written
    rcases getElem?_concat_cases written with old | ⟨rfl, rfl⟩
    · rw [stays ((List.getElem?_eq_some_iff.mp old).1.trans now)] at found
      exact charted.ordered number other row found old
    · rw [stays now, next, Option.some_inj] at found
      subst found
      exact keys_link grammar.symbols grammar.nodup_symbols

/-! ### All sets -/

/-- What linking the next set keeps, exploring keeps. -/
theorem explore_keeps {Keeps : List ItemSet → List (SymbolMap Nat) → Prop}
    (linked : ∀ known rows set, Keeps known rows → known[rows.length]? = some set →
      Keeps (grammar.link set grammar.symbols known ∅).1
        (rows ++ [(grammar.link set grammar.symbols known ∅).2]))
    (rounds : Nat) {known : List ItemSet} {rows : List (SymbolMap Nat)} (keeps : Keeps known rows) :
    Keeps (grammar.explore rounds known rows).1 (grammar.explore rounds known rows).2 := by
  induction rounds generalizing known rows with
  | zero => exact keeps
  | succ rounds inductionHypothesis =>
    rw [explore]
    cases next : known[rows.length]? with
    | none => exact keeps
    | some set => exact inductionHypothesis (linked known rows set keeps next)

/-- When all known sets are explored, further rounds change nothing. -/
theorem explore_more {rounds : Nat} (more : Nat) {known : List ItemSet}
    {rows : List (SymbolMap Nat)}
    (full : (grammar.explore rounds known rows).2.length =
      (grammar.explore rounds known rows).1.length) :
    grammar.explore (rounds + more) known rows = grammar.explore rounds known rows := by
  induction rounds generalizing known rows with
  | zero =>
    have finished : known[rows.length]? = none := List.getElem?_eq_none (Nat.le_of_eq full.symm)
    rw [Nat.zero_add]
    cases more with
    | zero => rfl
    | succ more =>
      rw [explore, explore, finished]
  | succ rounds inductionHypothesis =>
    rw [Nat.succ_add, explore, explore]
    rw [explore] at full
    cases next : known[rows.length]? with
    | none => rfl
    | some set =>
      rw [next] at full
      exact inductionHypothesis full

/-! ### The collection -/

/-- The canonical collection of the item sets that an item starts: besides numbers, links and
sets of their own, its states have their transitions in the order of the alphabet, and a string
of the alphabet leads to each of them from the first. -/
structure Collection (grammar : Grammar) (start : Item) (states : List State) : Prop
    extends grammar.Canonical start states where
  ordered : ∀ state ∈ states, state.transitions.keys =
    grammar.symbols.filter fun symbol => (grammar.goto state.items symbol).isSome
  reached : ∀ number < states.length, ∃ string, (∀ symbol ∈ string, symbol ∈ grammar.symbols) ∧
    State.walk states 0 string = some number

/-- States that were found from states before them can be walked to. -/
theorem Canonical.reached {start : Item} {states : List State}
    (canonical : grammar.Canonical start states)
    (origin : ∀ (number : Nat) (state : State), states[number]? = some state → number ≠ 0 →
      ∃ (parent : Nat) (other : State) (symbol : Symbol), parent < number ∧
        states[parent]? = some other ∧ grammar.goto other.items symbol = some state.items)
    (number : Nat) (inside : number < states.length) :
    ∃ string, (∀ symbol ∈ string, symbol ∈ grammar.symbols) ∧
      State.walk states 0 string = some number := by
  induction number using Nat.strongRecOn with
  | ind number inductionHypothesis =>
    by_cases first : number = 0
    · rw [first]
      exact ⟨[], fun _ none => absurd none List.not_mem_nil, rfl⟩
    · have found := List.getElem?_eq_getElem inside
      obtain ⟨parent, other, symbol, below, parentFound, leads⟩ :=
        origin number _ found first
      have member := List.mem_of_getElem? parentFound
      obtain ⟨item, itemMember, behind⟩ := goto_isSome_iff.mp ⟨_, leads⟩
      obtain ⟨target, written⟩ := canonical.covers other member symbol _ leads
      obtain ⟨set, again, state, stateFound, same⟩ :=
        canonical.leads other member symbol target written
      rw [leads, Option.some_inj] at again
      have place := canonical.apart target number state _ stateFound found (again ▸ same)
      obtain ⟨string, listed, walked⟩ := inductionHypothesis parent below (below.trans inside)
      refine ⟨string ++ [symbol], fun one inString => ?_, ?_⟩
      · rcases List.mem_append.mp inString with old | last
        · exact listed one old
        · rw [List.mem_singleton.mp last]
          exact behind_mem_symbols (canonical.owned other member item itemMember) behind
      · rw [State.walk_concat, walked, Option.bind_some, State.next, parentFound,
          Option.bind_some, written, place]

/-- What exploring from an item has come to when all rounds are over. -/
theorem explored_charted {start : Item} (owned : start.production ∈ grammar.productions)
    (rounds : Nat) :
    grammar.Explored start (grammar.explore rounds [grammar.closure [start]] []).1
        (grammar.explore rounds [grammar.closure [start]] []).2 ∧
      grammar.Charted (grammar.explore rounds [grammar.closure [start]] []).1
        (grammar.explore rounds [grammar.closure [start]] []).2 :=
  @explore_keeps _ (fun known rows => grammar.Explored start known rows ∧
      grammar.Charted known rows)
    (fun _ _ _ keeps next => ⟨keeps.1.step next, keeps.2.step keeps.1 next⟩) rounds _ _
    ⟨explored_start owned, charted_start _⟩

/-- Every state but the first holds what a state before it leads to by a symbol. -/
theorem statesFrom_origin {start : Item} (owned : start.production ∈ grammar.productions)
    {number : Nat} {state : State} (found : (grammar.statesFrom start)[number]? = some state)
    (later : number ≠ 0) :
    ∃ (parent : Nat) (other : State) (symbol : Symbol), parent < number ∧
      (grammar.statesFrom start)[parent]? = some other ∧
      grammar.goto other.items symbol = some state.items := by
  obtain ⟨_, full⟩ := (explored_start owned).finish (Nat.le_refl (2 ^ grammar.itemCount))
  obtain ⟨_, charted⟩ := explored_charted owned (2 ^ grammar.itemCount)
  obtain ⟨_, setFound, _⟩ := getElem?_statesOf.mp found
  obtain ⟨parent, other, symbol, below, parentFound, leads⟩ :=
    charted.origin number _ setFound later
  obtain ⟨row, stateFound⟩ := exists_getElem?_statesOf full parentFound
  exact ⟨parent, _, symbol, below, stateFound, leads⟩

theorem statesFrom_collection {start : Item} (owned : start.production ∈ grammar.productions) :
    grammar.Collection start (grammar.statesFrom start) := by
  obtain ⟨_, charted⟩ := explored_charted owned (2 ^ grammar.itemCount)
  have canonical := statesFrom_canonical owned
  refine ⟨canonical, fun state member => ?_,
    canonical.reached fun _ _ found later => statesFrom_origin owned found later⟩
  obtain ⟨number, setFound, rowFound⟩ := exists_of_mem_statesOf member
  exact charted.ordered number _ _ setFound rowFound

theorem collection_exists (augmented : grammar.augmented = true) :
    ∃ states, grammar.automaton = .ok states ∧
      grammar.Collection (Item.start (grammar.startOf augmented)) states :=
  ⟨_, dif_pos augmented, statesFrom_collection (List.head_mem _)⟩

/-- The automaton of an augmented grammar is its canonical collection, and exploring leaves no
set unexplored: more rounds find nothing more. -/
theorem automaton_collection {grammar : Grammar} (augmented : grammar.augmented = true) :
    (∃ states, grammar.automaton = .ok states ∧
      grammar.Collection (Item.start (grammar.startOf augmented)) states) ∧
    ∀ more, grammar.explore (2 ^ grammar.itemCount + more)
        [grammar.closure [Item.start (grammar.startOf augmented)]] [] =
      grammar.explore (2 ^ grammar.itemCount)
        [grammar.closure [Item.start (grammar.startOf augmented)]] [] := by
  have owned : (Item.start (grammar.startOf augmented)).production ∈ grammar.productions :=
    List.head_mem _
  refine ⟨collection_exists augmented, fun more => explore_more more ?_⟩
  exact ((explored_start owned).finish (Nat.le_refl _)).2

/-- An augmented grammar made by hand, whose start symbol recurs. -/
def train : Grammar :=
  ⟨[⟨0, "S", ["A", "S"]⟩, ⟨1, "S", ["b"]⟩, ⟨2, "A", ["a"]⟩], true,
    (faultOf_eq_none_iff _ _).mp (by decide)⟩

/-- A set that is found again gets no second number, and the rows follow the alphabet and not
the items. -/
theorem automaton_collection_train :
    ∃ states, train.automaton = .ok states ∧
      states.map (fun state => state.transitions.entries) =
        [[("a", 1), ("A", 2)], [], [("b", 3), ("a", 1), ("S", 4), ("A", 2)], [], []] ∧
      train.Collection (Item.start (train.startOf rfl)) states ∧
      train.explore (2 ^ train.itemCount + 1) [train.closure [Item.start (train.startOf rfl)]] [] =
        train.explore (2 ^ train.itemCount)
          [train.closure [Item.start (train.startOf rfl)]] [] := by
  obtain ⟨⟨states, found, collection⟩, ended⟩ :=
    automaton_collection (show train.augmented = true from rfl)
  have evaluated : train.automaton.toOption.map (fun states =>
      states.map fun state => state.transitions.entries) =
      some [[("a", 1), ("A", 2)], [], [("b", 3), ("a", 1), ("S", 4), ("A", 2)], [], []] := by
    decide +kernel
  rw [found] at evaluated
  exact ⟨states, found, Option.some_inj.mp evaluated, collection, ended 1⟩

end Grammar

end ShiftReduce
