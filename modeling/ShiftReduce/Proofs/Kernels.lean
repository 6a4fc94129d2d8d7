/-
This file proves that the states of an automaton are told apart by their kernels. A state is
closed from the start item or from items whose dots were moved over one symbol; these are its
kernel, since closing adds nothing but start items of other productions, and adds them behind.
That no start item of the start production is ever added needs its head to be fresh: it stands in
no body, so no item calls for it. Closing the kernel gives a state back, hence states with one
kernel are one state, and all transitions to a state are by the symbol its kernel was moved over.
-/

import ShiftReduce.Proofs.Collection
import ShiftReduce.Proofs.LeastClosure

namespace ShiftReduce

/-- The symbol in front of the dot. -/
def Item.before? (item : Item) : Option Symbol :=
  match item.dot with
  | 0 => none
  | dot + 1 => item.production.body[dot]?

namespace Grammar

/-! ### Kernels -/

/-- Items that a state can be closed from: some, all different, of the grammar, and each with its
dot moved or of the start production. -/
structure IsKernel (grammar : Grammar) (given : List Item) : Prop where
  nonempty : given ≠ []
  owned : grammar.Owns given
  different : (given.map Item.key).Nodup
  front : ∀ item ∈ given, 0 < item.dot ∨ item.production.id = 0

section Moved

variable {grammar : Grammar} {set : ItemSet} {symbol : Symbol} {item : Item}

/-- An item that was moved over a symbol has it in front of its dot. -/
theorem before?_of_mem_advanced (member : item ∈ advanced set symbol) :
    0 < item.dot ∧ item.before? = some symbol := by
  obtain ⟨former, _, moved⟩ := mem_advanced.mp member
  obtain ⟨behind, production, dot⟩ := Item.advanceOver?_eq_some_iff.mp moved
  rw [Item.before?, dot, production]
  exact ⟨Nat.succ_pos _, behind⟩

theorem advanced_keys_nodup (set : ItemSet) (symbol : Symbol) :
    ((advanced set symbol).map Item.key).Nodup := by
  refine List.pairwise_map.mpr (List.pairwise_filterMap.mpr
    ((List.pairwise_map.mp set.distinct).imp fun {first second} apart one oneMoved other
      otherMoved same => apart ?_))
  obtain ⟨_, oneProduction, oneDot⟩ := Item.advanceOver?_eq_some_iff.mp oneMoved
  obtain ⟨_, otherProduction, otherDot⟩ := Item.advanceOver?_eq_some_iff.mp otherMoved
  rw [Item.key, Item.key, oneProduction, otherProduction, oneDot, otherDot,
    Item.Key.mk.injEq, Nat.succ_inj] at same
  exact Item.Key.mk.injEq .. ▸ same

theorem isKernel_advanced (owns : grammar.Owns set.items) (leads : advanced set symbol ≠ []) :
    grammar.IsKernel (advanced set symbol) where
  nonempty := leads
  owned := advanced_owned owns symbol
  different := advanced_keys_nodup set symbol
  front _ member := .inl (before?_of_mem_advanced member).1

end Moved

section Augmented

variable {grammar augmented : Grammar} {start : Symbol} {given : List Item}

theorem isKernel_start (augments : grammar.Augments augmented start) :
    augmented.IsKernel [Item.start (grammar.root start)] where
  nonempty := List.cons_ne_nil _ _
  owned _ only := List.mem_singleton.mp only ▸ augments.root_mem
  different := List.nodup_singleton _
  front _ only := .inr (List.mem_singleton.mp only ▸ rfl)

/-- The start item of the start production is called for by no item. -/
theorem Augments.id_of_predicted (augments : grammar.Augments augmented start)
    {item other : Item} (owned : item.production ∈ augmented.productions)
    (calls : other ∈ augmented.predicted item) : other.dot = 0 ∧ other.production.id ≠ 0 := by
  obtain ⟨symbol, behind, production, headed, rfl⟩ := mem_predicted.mp calls
  refine ⟨rfl, fun first => augments.not_mem_body owned ?_⟩
  obtain ⟨member, head⟩ := mem_productionsFor.mp headed
  rw [production_ext member augments.root_mem first] at head
  rw [show grammar.freshStart start = symbol from head]
  exact List.mem_of_getElem? behind

/-- What a kernel closes to has the kernel in front, in its order. -/
theorem IsKernel.closure_items (isKernel : augmented.IsKernel given)
    (augments : grammar.Augments augmented start) :
    ∃ added, (augmented.closure given).items = given ++ added ∧
      ∀ item ∈ added, item.dot = 0 ∧ item.production.id ≠ 0 := by
  obtain ⟨added, shape, _⟩ := augmented.visit_adds
    ((Item.distinct given).length + augmented.size) [] (Item.distinct given)
  rw [← Grammar.closure_items, List.nil_append, Item.distinct_of_nodup isKernel.different] at shape
  refine ⟨added, shape, fun item member => ?_⟩
  have apart := (augmented.closure given).distinct.of_map
  rw [shape] at apart
  have inClosure : item ∈ (augmented.closure given).items := by
    rw [shape]
    exact List.mem_append_right given member
  cases (mem_closure isKernel.owned).mp inClosure with
  | given inside => exact absurd rfl ((List.nodup_append.mp apart).2.2 item inside item member)
  | predicted closed behind headed =>
    exact augments.id_of_predicted (closed.owned isKernel.owned)
      (mem_predicted.mpr ⟨_, behind, _, headed, rfl⟩)

theorem IsKernel.kernel_closure (isKernel : augmented.IsKernel given)
    (augments : grammar.Augments augmented start) : (augmented.closure given).kernel = given := by
  obtain ⟨added, shape, starts⟩ := isKernel.closure_items augments
  have kept : ∀ item ∈ given, (decide (0 < item.dot) || item.production.id == 0) = true :=
    fun item member => by
      rw [Bool.or_eq_true, decide_eq_true_iff, beq_iff_eq]
      exact isKernel.front item member
  have dropped : ∀ item ∈ added, ¬ (decide (0 < item.dot) || item.production.id == 0) = true :=
    fun item member => by
      rw [Bool.or_eq_true, decide_eq_true_iff, beq_iff_eq, (starts item member).1]
      exact fun either => either.elim (Nat.lt_irrefl 0) (starts item member).2
  rw [ItemSet.kernel, shape, List.filter_append, List.filter_eq_self.mpr kept,
    List.filter_eq_nil_iff.mpr dropped, List.append_nil]

end Augmented

/-! ### The kernels of states -/

/-- The states of an automaton and their kernels. There is a first state, and it alone has no moved
dot, holds the start item and is led to by no transition. All moved dots of any other state, and
all transitions to it, have passed the same symbol. Kernels stand in front and close to their
states, in order, and no two states share a kernel. -/
structure Kerneled (grammar : Grammar) (start : Item) (states : List State) : Prop where
  initial : ∃ first, states[0]? = some first
  unmoved : ∀ (number : Nat) (state : State), states[number]? = some state →
    ((∀ item ∈ state.items.items, item.dot = 0) ↔ number = 0)
  starts : ∀ (number : Nat) (state : State), states[number]? = some state →
    (start ∈ state.items.items ↔ number = 0)
  unentered : ∀ number symbol, State.next states number symbol ≠ some 0
  entered : ∀ (number : Nat) (state : State), states[number]? = some state → number ≠ 0 →
    ∃ symbol, (∃ parent < number, State.next states parent symbol = some number) ∧
      (∀ parent other, State.next states parent other = some number → other = symbol) ∧
      ∀ item ∈ state.items.items, 0 < item.dot → item.before? = some symbol
  front : ∀ state ∈ states, state.items.kernel ≠ [] ∧
    ∃ added, state.items.items = state.items.kernel ++ added ∧
      ∀ item ∈ added, item.dot = 0 ∧ item.production.id ≠ 0
  closed : ∀ state ∈ states, grammar.closure state.items.kernel = state.items
  apart : ∀ (first second : Nat) (one other : State), states[first]? = some one →
    states[second]? = some other →
    (∀ item, item ∈ one.items.kernel ↔ item ∈ other.items.kernel) → first = second

section States

variable {grammar augmented : Grammar} {start : Symbol} {states : List State}

/-- A transition leads to a state whose moved dots have passed its symbol, and some have. -/
theorem Canonical.before?_of_next {start : Item} (canonical : grammar.Canonical start states)
    {parent number : Nat} {symbol : Symbol} {state : State}
    (leads : State.next states parent symbol = some number)
    (found : states[number]? = some state) :
    (∃ item ∈ state.items.items, 0 < item.dot) ∧
      ∀ item ∈ state.items.items, 0 < item.dot → item.before? = some symbol := by
  obtain ⟨other, otherFound, written⟩ := Option.bind_eq_some_iff.mp leads
  obtain ⟨set, setLeads, _⟩ :=
    canonical.leads other (List.mem_of_getElem? otherFound) symbol number written
  obtain ⟨first, member⟩ := List.exists_mem_of_ne_nil _ (goto_eq_some_iff.mp setLeads).1
  refine ⟨⟨first, (canonical.mem_next otherFound leads found).mpr (.given member),
    (before?_of_mem_advanced member).1⟩, fun item inside moved => ?_⟩
  cases (canonical.mem_next otherFound leads found).mp inside with
  | given among => exact (before?_of_mem_advanced among).2
  | predicted _ _ _ => exact absurd moved (Nat.lt_irrefl 0)

/-- States that are found from the start item: every one but the first holds what a state before
it leads to by a symbol. -/
structure Descends (grammar : Grammar) (start : Item) (states : List State) : Prop
    extends grammar.Canonical start states where
  origin : ∀ (number : Nat) (state : State), states[number]? = some state → number ≠ 0 →
    ∃ (parent : Nat) (other : State) (symbol : Symbol), parent < number ∧
      states[parent]? = some other ∧ grammar.goto other.items symbol = some state.items

theorem automaton_descends {grammar : Grammar} (flagged : grammar.augmented = true) :
    ∃ states, grammar.automaton = .ok states ∧
      grammar.Descends (Item.start (grammar.startOf flagged)) states :=
  have owned : grammar.startOf flagged ∈ grammar.productions := List.head_mem _
  ⟨_, dif_pos flagged, statesFrom_canonical owned,
    fun _ _ found later => statesFrom_origin owned found later⟩

/-- What a state is found by is a transition to it. -/
theorem Descends.exists_next {start : Item} (descends : grammar.Descends start states)
    {number : Nat} {state : State} (found : states[number]? = some state) (later : number ≠ 0) :
    ∃ (parent : Nat) (other : State) (symbol : Symbol), parent < number ∧
      states[parent]? = some other ∧ grammar.goto other.items symbol = some state.items ∧
      State.next states parent symbol = some number := by
  obtain ⟨parent, other, symbol, below, otherFound, leads⟩ :=
    descends.origin number state found later
  obtain ⟨target, written⟩ :=
    descends.covers other (List.mem_of_getElem? otherFound) symbol _ leads
  obtain ⟨set, again, actual, actualFound, same⟩ :=
    descends.leads other (List.mem_of_getElem? otherFound) symbol target written
  rw [leads, Option.some_inj] at again
  rw [← again] at same
  rw [descends.apart target number actual state actualFound found same] at written
  refine ⟨parent, other, symbol, below, otherFound, leads, ?_⟩
  rw [State.next, otherFound, Option.bind_some, written]

/-- Every state is closed from a kernel. -/
theorem Descends.exists_isKernel
    (descends : augmented.Descends (Item.start (grammar.root start)) states)
    (augments : grammar.Augments augmented start) {state : State} (member : state ∈ states) :
    ∃ given, augmented.IsKernel given ∧ state.items = augmented.closure given := by
  obtain ⟨number, found⟩ := List.getElem?_of_mem member
  by_cases first : number = 0
  · obtain ⟨other, otherFound, items⟩ := descends.first
    rw [first, otherFound, Option.some_inj] at found
    rw [found] at items
    exact ⟨_, isKernel_start augments, items⟩
  · obtain ⟨_, other, symbol, _, otherFound, leads⟩ := descends.origin number state found first
    obtain ⟨nonempty, items⟩ := goto_eq_some_iff.mp leads
    exact ⟨_, isKernel_advanced (descends.owned other (List.mem_of_getElem? otherFound)) nonempty,
      items⟩

/-- The start item has been moved to no state but the first. -/
theorem Descends.start_mem_iff
    (descends : augmented.Descends (Item.start (grammar.root start)) states)
    (augments : grammar.Augments augmented start) {number : Nat} {state : State}
    (found : states[number]? = some state) :
    Item.start (grammar.root start) ∈ state.items.items ↔ number = 0 := by
  constructor
  · intro member
    by_contra later
    obtain ⟨_, other, symbol, _, otherFound, _, leads⟩ := descends.exists_next found later
    cases (descends.mem_next otherFound leads found).mp member with
    | given moved => exact Nat.lt_irrefl 0 (before?_of_mem_advanced moved).1
    | predicted closed behind headed =>
      refine (augments.id_of_predicted (closed.owned (advanced_owned
        (descends.owned other (List.mem_of_getElem? otherFound)) symbol))
        (mem_predicted.mpr ⟨_, behind, _, headed, rfl⟩)).2 rfl
  · rintro rfl
    exact (descends.mem_closure_of_getElem? augments.root_mem found).mpr (.given List.mem_cons_self)

theorem Descends.dots_eq_zero_iff
    (descends : augmented.Descends (Item.start (grammar.root start)) states)
    (augments : grammar.Augments augmented start) {number : Nat} {state : State}
    (found : states[number]? = some state) :
    (∀ item ∈ state.items.items, item.dot = 0) ↔ number = 0 := by
  constructor
  · intro unmoved
    by_contra later
    obtain ⟨_, _, _, _, _, _, leads⟩ := descends.exists_next found later
    obtain ⟨⟨item, member, moved⟩, _⟩ := descends.before?_of_next leads found
    rw [unmoved item member] at moved
    exact Nat.lt_irrefl 0 moved
  · rintro rfl item member
    cases (descends.mem_closure_of_getElem? augments.root_mem found).mp member with
    | given only =>
      rw [List.mem_singleton.mp only]
      rfl
    | predicted _ _ _ => rfl

theorem Descends.kerneled
    (descends : augmented.Descends (Item.start (grammar.root start)) states)
    (augments : grammar.Augments augmented start) :
    augmented.Kerneled (Item.start (grammar.root start)) states where
  initial := descends.first.imp fun _ both => both.1
  unmoved _ _ found := descends.dots_eq_zero_iff augments found
  starts _ _ found := descends.start_mem_iff augments found
  unentered number symbol leads := by
    obtain ⟨_, state, _, found⟩ := descends.getElem?_next leads
    obtain ⟨⟨item, member, moved⟩, _⟩ := descends.before?_of_next leads found
    rw [(descends.dots_eq_zero_iff augments found).mpr rfl item member] at moved
    exact Nat.lt_irrefl 0 moved
  entered number state found later := by
    obtain ⟨parent, _, symbol, below, _, _, leads⟩ := descends.exists_next found later
    obtain ⟨⟨item, member, moved⟩, passed⟩ := descends.before?_of_next leads found
    refine ⟨symbol, ⟨parent, below, leads⟩, fun _ other otherLeads => ?_, passed⟩
    have both := (descends.before?_of_next otherLeads found).2 item member moved
    rw [passed item member moved] at both
    exact (Option.some_inj.mp both).symm
  front state member := by
    obtain ⟨given, isKernel, items⟩ := descends.exists_isKernel augments member
    rw [items, isKernel.kernel_closure augments]
    exact ⟨isKernel.nonempty, isKernel.closure_items augments⟩
  closed state member := by
    obtain ⟨given, isKernel, items⟩ := descends.exists_isKernel augments member
    rw [items, isKernel.kernel_closure augments]
  apart first second one other oneFound otherFound same := by
    obtain ⟨given, isKernel, items⟩ :=
      descends.exists_isKernel augments (List.mem_of_getElem? oneFound)
    obtain ⟨otherGiven, otherKernel, otherItems⟩ :=
      descends.exists_isKernel augments (List.mem_of_getElem? otherFound)
    refine descends.apart first second one other oneFound otherFound ?_
    rw [items, otherItems, isKernel.kernel_closure augments,
      otherKernel.kernel_closure augments] at same
    rw [items, otherItems]
    exact closure_sameSet isKernel.owned otherKernel.owned same

end States

/-- The states of the automaton of an augmented grammar are told apart by their kernels, and all
but the first are entered by one symbol. -/
theorem automaton_kerneled {grammar augmented : Grammar}
    (found : grammar.augment = .ok augmented) :
    ∃ start states, grammar.startSymbol = some start ∧
      augmented.startProduction = .ok (grammar.root start) ∧ augmented.automaton = .ok states ∧
      augmented.Kerneled (Item.start (grammar.root start)) states := by
  obtain ⟨start, augments⟩ := augments_of_augment found
  obtain ⟨states, statesFound, descends⟩ := automaton_descends augments.flagged
  rw [augments.startOf_eq] at descends
  refine ⟨start, states, augments.started, ?_, statesFound, descends.kerneled augments⟩
  rw [startProduction, dif_pos augments.flagged, augments.startOf_eq]

/-- Behind the sign the kernel is one item, although four more are closed in; the states behind a
sum differ by the start item alone. -/
theorem automaton_kerneled_looping :
    ∃ augmented states, looping.augment = .ok augmented ∧ augmented.automaton = .ok states ∧
      augmented.Kerneled (Item.start (looping.root "E")) states ∧
      states.map (fun state => state.items.kernel.map Item.key) =
        [[⟨0, 0⟩], [⟨4, 1⟩], [⟨0, 1⟩, ⟨1, 1⟩, ⟨3, 1⟩], [⟨2, 1⟩], [⟨1, 2⟩], [⟨3, 1⟩, ⟨1, 1⟩],
          [⟨1, 3⟩, ⟨2, 1⟩]] ∧
      states.map (fun state => state.items.size) = [5, 1, 3, 1, 5, 2, 2] := by
  obtain ⟨augmented, _, found, _⟩ :=
    augment_exists (show looping.augmented = false from rfl) (List.cons_ne_nil _ _)
  obtain ⟨start, states, started, _, statesFound, kerneled⟩ := automaton_kerneled found
  rw [← Option.some_inj.mp started] at kerneled
  have evaluated : ((looping.augment.toOption.bind fun augmented =>
      augmented.automaton.toOption).map fun states =>
        (states.map fun state => state.items.kernel.map Item.key,
          states.map fun state => state.items.size)) =
      some ([[⟨0, 0⟩], [⟨4, 1⟩], [⟨0, 1⟩, ⟨1, 1⟩, ⟨3, 1⟩], [⟨2, 1⟩], [⟨1, 2⟩],
        [⟨3, 1⟩, ⟨1, 1⟩], [⟨1, 3⟩, ⟨2, 1⟩]], [5, 1, 3, 1, 5, 2, 2]) := by
    decide +kernel
  rw [found] at evaluated
  change (augmented.automaton.toOption.map _) = _ at evaluated
  rw [statesFound] at evaluated
  obtain ⟨kernels, sizes⟩ := Prod.mk.inj (Option.some_inj.mp evaluated)
  exact ⟨augmented, states, found, statesFound, kerneled, kernels, sizes⟩

end Grammar

end ShiftReduce
