/-
This file proves what exploring the item sets of a grammar gives: the states of the
automaton are numbered in order, no two of them have the same items, and a state leads to
another by a symbol exactly when the dots of its items moved over the symbol give the items
of the other. Exploration ends with all sets explored, because sets that are pairwise
different are told apart by the items of the grammar they hold, and there are no more such
sets than the rounds it is given.
-/

import Mathlib.Data.Finset.Powerset
import Mathlib.Data.List.Sort
import ShiftReduce.Proofs.Augmentation
import ShiftReduce.Proofs.Lists

namespace ShiftReduce

namespace ItemSet

/-- The key of a set is the set of keys. -/
theorem sameSet_iff {first second : ItemSet} :
    first.sameSet second = true ↔
      ∀ key, key ∈ first.items.map Item.key ↔ key ∈ second.items.map Item.key := by
  rw [sameSet, beq_iff_eq]
  constructor
  · intro same key
    rw [← mem_key, ← mem_key, same]
  · intro same
    refine first.key_ascending.eq_of_mem_iff second.key_ascending fun key => ?_
    simpa using same key

end ItemSet

namespace Grammar

/-! ### The number of a set -/

theorem stateNumber_eq_none_iff {known : List ItemSet} {set : ItemSet} :
    stateNumber known set = none ↔ ∀ other ∈ known, other.sameSet set = false := by
  rw [stateNumber, List.findIdx?_eq_none_iff]

theorem getElem?_of_stateNumber {known : List ItemSet} {set : ItemSet} {number : Nat}
    (found : stateNumber known set = some number) :
    ∃ other, known[number]? = some other ∧ other.sameSet set = true := by
  obtain ⟨inside, same, _⟩ := List.findIdx?_eq_some_iff_getElem.mp found
  exact ⟨known[number], List.getElem?_eq_getElem inside, same⟩

theorem stateNumber_append {known : List ItemSet} {set : ItemSet} {number : Nat}
    (found : stateNumber known set = some number) (more : List ItemSet) :
    stateNumber (known ++ more) set = some number := by
  rw [stateNumber, List.findIdx?_append, show List.findIdx? _ known = some number from found]
  rfl

@[simp] theorem sameSet_refl (set : ItemSet) : set.sameSet set = true :=
  ItemSet.sameSet_iff.mpr fun _ => Iff.rfl

theorem sameSet_trans {first second third : ItemSet} (one : first.sameSet second = true)
    (other : third.sameSet second = true) : first.sameSet third = true :=
  ItemSet.sameSet_iff.mpr fun key =>
    (ItemSet.sameSet_iff.mp one key).trans (ItemSet.sameSet_iff.mp other key).symm

theorem sameSet_comm {first second : ItemSet} (same : first.sameSet second = true) :
    second.sameSet first = true :=
  sameSet_trans (sameSet_refl second) same

/-- Sets of a grammar that are the same set hold the same items. -/
theorem mem_of_sameSet {grammar : Grammar} {first second : ItemSet}
    (firstOwned : grammar.Owns first.items) (secondOwned : grammar.Owns second.items)
    (same : first.sameSet second = true) {item : Item} (member : item ∈ first.items) :
    item ∈ second.items :=
  (secondOwned.mem_iff (firstOwned item member)).mpr
    ((ItemSet.sameSet_iff.mp same _).mp (List.mem_map_of_mem member))

/-! ### One symbol -/

/-- The known sets with a set that may be new, and the number of that set. -/
def enroll (known : List ItemSet) (set : ItemSet) : List ItemSet × Nat :=
  match stateNumber known set with
  | some number => (known, number)
  | none => (known ++ [set], known.length)

theorem link_cons_none {grammar : Grammar} {set : ItemSet} {symbol : Symbol}
    (nowhere : grammar.goto set symbol = none) (rest : List Symbol) (known : List ItemSet)
    (row : SymbolMap Nat) :
    grammar.link set (symbol :: rest) known row = grammar.link set rest known row := by
  rw [link, nowhere]

theorem link_cons_some {grammar : Grammar} {set target : ItemSet} {symbol : Symbol}
    (leads : grammar.goto set symbol = some target) (rest : List Symbol) (known : List ItemSet)
    (row : SymbolMap Nat) :
    grammar.link set (symbol :: rest) known row =
      grammar.link set rest (enroll known target).1
        (row.insert symbol (enroll known target).2) := by
  simp only [link, leads, enroll]
  cases stateNumber known target with
  | none => rfl
  | some number => rfl

theorem prefix_enroll (known : List ItemSet) (set : ItemSet) :
    known <+: (enroll known set).1 := by
  unfold enroll
  cases stateNumber known set with
  | none => exact List.prefix_append known [set]
  | some number => exact List.prefix_rfl

theorem mem_enroll {known : List ItemSet} {set other : ItemSet}
    (member : other ∈ (enroll known set).1) : other ∈ known ∨ other = set := by
  unfold enroll at member
  cases found : stateNumber known set with
  | none =>
    rw [found] at member
    exact (List.mem_append.mp member).imp_right List.mem_singleton.mp
  | some number =>
    rw [found] at member
    exact .inl member

@[simp] theorem stateNumber_enroll (known : List ItemSet) (set : ItemSet) :
    stateNumber (enroll known set).1 set = some (enroll known set).2 := by
  unfold enroll
  cases found : stateNumber known set with
  | none =>
    have absent : List.findIdx? (fun other => other.sameSet set) known = none := found
    show List.findIdx? _ (known ++ [set]) = some known.length
    simp [absent]
  | some number => exact found

theorem enroll_le (known : List ItemSet) (set : ItemSet) :
    (enroll known set).2 ≤ known.length := by
  unfold enroll
  cases found : stateNumber known set with
  | none => exact Nat.le_refl _
  | some number =>
    obtain ⟨_, placed, _⟩ := getElem?_of_stateNumber found
    exact Nat.le_of_lt (List.getElem?_eq_some_iff.mp placed).1

theorem length_enroll (known : List ItemSet) (set : ItemSet) :
    (enroll known set).1.length = max known.length ((enroll known set).2 + 1) := by
  unfold enroll
  cases found : stateNumber known set with
  | none =>
    rw [List.length_append, List.length_singleton]
    exact (max_eq_right (Nat.le_succ _)).symm
  | some number =>
    obtain ⟨_, placed, _⟩ := getElem?_of_stateNumber found
    exact (max_eq_left (List.getElem?_eq_some_iff.mp placed).1).symm

/-- No two sets of a list are the same set. -/
def Apart (known : List ItemSet) : Prop :=
  known.Pairwise fun first second => first.sameSet second = false

theorem enroll_apart {known : List ItemSet} (apart : Apart known) (set : ItemSet) :
    Apart (enroll known set).1 := by
  unfold enroll
  cases found : stateNumber known set with
  | none =>
    refine List.pairwise_append.mpr ⟨apart, List.pairwise_singleton _ _, ?_⟩
    intro first member second only
    rw [List.mem_singleton.mp only]
    exact stateNumber_eq_none_iff.mp found first member
  | some number => exact apart

theorem Apart.place_eq {known : List ItemSet} (apart : Apart known) {first second : Nat}
    {one other : ItemSet} (firstFound : known[first]? = some one)
    (secondFound : known[second]? = some other) (same : one.sameSet other = true) :
    first = second := by
  obtain ⟨firstInside, rfl⟩ := List.getElem?_eq_some_iff.mp firstFound
  obtain ⟨secondInside, rfl⟩ := List.getElem?_eq_some_iff.mp secondFound
  rcases Nat.lt_trichotomy first second with below | equal | above
  · rw [List.pairwise_iff_getElem.mp apart first second firstInside secondInside below] at same
    cases same
  · exact equal
  · have back := sameSet_comm same
    rw [List.pairwise_iff_getElem.mp apart second first secondInside firstInside above] at back
    cases back

/-! ### One set -/

/-- A row holds the numbers of the sets that a set leads to by the given symbols, and
nothing else. -/
structure Linked (grammar : Grammar) (known : List ItemSet) (set : ItemSet)
    (row : SymbolMap Nat) (symbols : List Symbol) : Prop where
  numbered : ∀ symbol ∈ symbols, ∀ target, grammar.goto set symbol = some target →
    ∃ number, stateNumber known target = some number ∧ row.get? symbol = some number
  only : ∀ symbol number, row.get? symbol = some number →
    ∃ target, grammar.goto set symbol = some target ∧ stateNumber known target = some number

theorem Linked.grow {grammar : Grammar} {known larger : List ItemSet} {set : ItemSet}
    {row : SymbolMap Nat} {symbols : List Symbol}
    (linked : grammar.Linked known set row symbols) (grown : known <+: larger) :
    grammar.Linked larger set row symbols := by
  obtain ⟨more, rfl⟩ := grown
  constructor
  · intro symbol member target leads
    obtain ⟨number, found, written⟩ := linked.numbered symbol member target leads
    exact ⟨number, stateNumber_append found more, written⟩
  · intro symbol number written
    obtain ⟨target, leads, found⟩ := linked.only symbol number written
    exact ⟨target, leads, stateNumber_append found more⟩

theorem linked_insert {grammar : Grammar} {known : List ItemSet} {set target : ItemSet}
    {row : SymbolMap Nat} {symbols : List Symbol} {symbol : Symbol}
    (linked : grammar.Linked known set row symbols)
    (leads : grammar.goto set symbol = some target) :
    grammar.Linked (enroll known target).1 set (row.insert symbol (enroll known target).2)
      (symbols ++ [symbol]) := by
  have grown := linked.grow (prefix_enroll known target)
  constructor
  · intro other member otherTarget otherLeads
    by_cases same : other = symbol
    · subst same
      rw [leads, Option.some_inj] at otherLeads
      subst otherLeads
      exact ⟨_, stateNumber_enroll known target, SymbolMap.get?_insert_self _ _ _⟩
    · have old : other ∈ symbols :=
        (List.mem_append.mp member).resolve_right fun new => same (List.mem_singleton.mp new)
      obtain ⟨number, found, written⟩ := grown.numbered other old otherTarget otherLeads
      exact ⟨number, found, (SymbolMap.get?_insert_other row same _).trans written⟩
  · intro other number written
    rcases SymbolMap.get?_insert_eq_some_iff.mp written with ⟨rfl, rfl⟩ | ⟨_, written⟩
    · exact ⟨target, leads, stateNumber_enroll known target⟩
    · exact grown.only other number written

/-- What linking a set over some symbols keeps and what it adds. -/
theorem link_spec {grammar : Grammar} {set : ItemSet} (symbols done : List Symbol)
    {known : List ItemSet} {row : SymbolMap Nat} (apart : Apart known)
    (linked : grammar.Linked known set row done) :
    known <+: (grammar.link set symbols known row).1 ∧
      Apart (grammar.link set symbols known row).1 ∧
      (∀ other ∈ (grammar.link set symbols known row).1,
        other ∈ known ∨ ∃ symbol ∈ symbols, grammar.goto set symbol = some other) ∧
      grammar.Linked (grammar.link set symbols known row).1 set
        (grammar.link set symbols known row).2 (done ++ symbols) := by
  induction symbols generalizing done known row with
  | nil =>
    rw [link, List.append_nil]
    exact ⟨List.prefix_rfl, apart, fun other member => .inl member, linked⟩
  | cons symbol rest inductionHypothesis =>
    have shift : done ++ symbol :: rest = done ++ [symbol] ++ rest := by simp
    rw [shift]
    cases leads : grammar.goto set symbol with
    | none =>
      rw [link_cons_none leads]
      have wider : grammar.Linked known set row (done ++ [symbol]) := by
        refine ⟨fun other member target otherLeads => ?_, linked.only⟩
        refine linked.numbered other ((List.mem_append.mp member).resolve_right ?_) target
          otherLeads
        intro new
        rw [List.mem_singleton.mp new, leads] at otherLeads
        cases otherLeads
      obtain ⟨grown, stillApart, origin, final⟩ := inductionHypothesis _ apart wider
      refine ⟨grown, stillApart, fun other member => ?_, final⟩
      exact (origin other member).imp_right fun ⟨through, listed, reached⟩ =>
        ⟨through, List.mem_cons_of_mem _ listed, reached⟩
    | some target =>
      rw [link_cons_some leads]
      obtain ⟨grown, stillApart, origin, final⟩ :=
        inductionHypothesis _ (enroll_apart apart target) (linked_insert linked leads)
      refine ⟨(prefix_enroll known target).trans grown, stillApart, fun other member => ?_,
        final⟩
      rcases origin other member with enrolled | ⟨through, listed, reached⟩
      · rcases mem_enroll enrolled with old | rfl
        · exact .inl old
        · exact .inr ⟨symbol, List.mem_cons_self, leads⟩
      · exact .inr ⟨through, List.mem_cons_of_mem _ listed, reached⟩

theorem linked_empty (grammar : Grammar) (known : List ItemSet) (set : ItemSet) :
    grammar.Linked known set ∅ [] :=
  ⟨fun _ member => absurd member List.not_mem_nil, fun _ _ written => by cases written⟩

/-! ### All sets -/

/-- The keys of all items of a grammar. -/
def itemKeys (grammar : Grammar) : List Item.Key :=
  grammar.productions.flatMap fun production =>
    (List.range (production.body.length + 1)).map fun dot => ⟨production.id, dot⟩

@[simp] theorem length_itemKeys (grammar : Grammar) :
    grammar.itemKeys.length = grammar.itemCount := by
  unfold itemKeys itemCount
  induction grammar.productions with
  | nil => rfl
  | cons production rest inductionHypothesis =>
    rw [List.flatMap_cons, List.length_append, List.length_map, List.length_range,
      inductionHypothesis, List.foldr_cons]

theorem Owns.keys_subset {grammar : Grammar} {set : ItemSet} (owns : grammar.Owns set.items) :
    set.key ⊆ grammar.itemKeys := by
  intro key member
  obtain ⟨item, itemMember, rfl⟩ := List.mem_map.mp (ItemSet.mem_key.mp member)
  exact List.mem_flatMap.mpr ⟨item.production, owns item itemMember, List.mem_map.mpr
    ⟨item.dot, List.mem_range.mpr (Nat.lt_succ_of_le item.inside), rfl⟩⟩

/-- There are at most as many different sets of items as sets of keys. -/
theorem Apart.length_le {grammar : Grammar} {known : List ItemSet} (apart : Apart known)
    (owned : ∀ set ∈ known, grammar.Owns set.items) :
    known.length ≤ 2 ^ grammar.itemCount := by
  have different : (known.map fun set => set.key.toFinset).Nodup := by
    refine List.Pairwise.map _ (fun first second other same => ?_) apart
    have equal : first.sameSet second = true := ItemSet.sameSet_iff.mpr fun key => by
      rw [← ItemSet.mem_key, ← ItemSet.mem_key, ← List.mem_toFinset, same, List.mem_toFinset]
    rw [other] at equal
    cases equal
  have inside : (known.map fun set => set.key.toFinset).toFinset ⊆
      grammar.itemKeys.toFinset.powerset := by
    intro keys member
    obtain ⟨set, setMember, rfl⟩ := List.mem_map.mp (List.mem_toFinset.mp member)
    rw [Finset.mem_powerset]
    intro key keyMember
    exact List.mem_toFinset.mpr ((owned set setMember).keys_subset (List.mem_toFinset.mp keyMember))
  calc known.length = (known.map fun set => set.key.toFinset).toFinset.card := by
        rw [List.toFinset_card_of_nodup different, List.length_map]
    _ ≤ 2 ^ grammar.itemKeys.toFinset.card := by
        rw [← Finset.card_powerset]
        exact Finset.card_le_card inside
    _ ≤ 2 ^ grammar.itemCount := by
        rw [← length_itemKeys]
        exact Nat.pow_le_pow_right Nat.two_pos (List.toFinset_card_le _)

/-- What holds of the known sets and of the rows of the explored ones, at any time. -/
structure Explored (grammar : Grammar) (start : Item) (known : List ItemSet)
    (rows : List (SymbolMap Nat)) : Prop where
  first : known[0]? = some (grammar.closure [start])
  owned : ∀ set ∈ known, grammar.Owns set.items
  apart : Apart known
  ahead : rows.length ≤ known.length
  linked : ∀ (number : Nat) (set : ItemSet) (row : SymbolMap Nat), known[number]? = some set →
    rows[number]? = some row → grammar.Linked known set row grammar.symbols

theorem Explored.step {grammar : Grammar} {start : Item} {known : List ItemSet}
    {rows : List (SymbolMap Nat)} (explored : grammar.Explored start known rows) {set : ItemSet}
    (next : known[rows.length]? = some set) :
    grammar.Explored start (grammar.link set grammar.symbols known ∅).1
      (rows ++ [(grammar.link set grammar.symbols known ∅).2]) := by
  obtain ⟨grown, apart, origin, linked⟩ :=
    link_spec grammar.symbols [] explored.apart (linked_empty grammar known set)
  rw [List.nil_append] at linked
  have setOwned := explored.owned set (List.mem_of_getElem? next)
  have stays {number : Nat} {other : ItemSet} (found : known[number]? = some other) :
      (grammar.link set grammar.symbols known ∅).1[number]? = some other := by
    obtain ⟨more, shape⟩ := grown
    rw [← shape, List.getElem?_append_left (List.getElem?_eq_some_iff.mp found).1]
    exact found
  refine ⟨stays explored.first, fun other member => ?_, apart, ?_, fun number other row => ?_⟩
  · rcases origin other member with old | ⟨symbol, _, leads⟩
    · exact explored.owned other old
    · rw [(goto_eq_some_iff.mp leads).2]
      exact closure_owns (advanced_owned setOwned symbol)
  · rw [List.length_append, List.length_singleton]
    exact Nat.lt_of_lt_of_le (List.getElem?_eq_some_iff.mp next).1 grown.length_le
  · intro found written
    rcases getElem?_concat_cases written with old | ⟨rfl, rfl⟩
    · have inside : number < known.length :=
        Nat.lt_of_lt_of_le (List.getElem?_eq_some_iff.mp old).1 explored.ahead
      have before := List.getElem?_eq_getElem inside
      rw [stays before, Option.some_inj] at found
      subst found
      exact (explored.linked number _ row before old).grow grown
    · rw [stays next, Option.some_inj] at found
      subst found
      exact linked

/-- With enough rounds all known sets are explored in the end. -/
theorem Explored.finish {grammar : Grammar} {start : Item} {rounds : Nat}
    {known : List ItemSet} {rows : List (SymbolMap Nat)}
    (explored : grammar.Explored start known rows)
    (enough : 2 ^ grammar.itemCount ≤ rounds + rows.length) :
    grammar.Explored start (grammar.explore rounds known rows).1
        (grammar.explore rounds known rows).2 ∧
      (grammar.explore rounds known rows).2.length =
        (grammar.explore rounds known rows).1.length := by
  induction rounds generalizing known rows with
  | zero =>
    have bound := explored.apart.length_le explored.owned
    rw [Nat.zero_add] at enough
    exact ⟨explored, Nat.le_antisymm explored.ahead (Nat.le_trans bound enough)⟩
  | succ rounds inductionHypothesis =>
    rw [explore]
    cases next : known[rows.length]? with
    | none =>
      exact ⟨explored, Nat.le_antisymm explored.ahead (List.getElem?_eq_none_iff.mp next)⟩
    | some set =>
      refine inductionHypothesis (explored.step next) ?_
      rw [List.length_append, List.length_singleton]
      omega

theorem explored_start {grammar : Grammar} {start : Item}
    (owned : start.production ∈ grammar.productions) :
    grammar.Explored start [grammar.closure [start]] [] where
  first := rfl
  owned set member := by
    rw [List.mem_singleton.mp member]
    exact closure_owns fun item only => List.mem_singleton.mp only ▸ owned
  apart := List.pairwise_singleton _ _
  ahead := Nat.zero_le _
  linked _ _ _ _ written := by cases written

/-! ### The states -/

/-- The states of an automaton that starts from an item: numbered in order, each with items
of its own, and linked by moving dots. -/
structure Canonical (grammar : Grammar) (start : Item) (states : List State) : Prop where
  numbered : ∀ (number : Nat) (state : State), states[number]? = some state → state.id = number
  first : ∃ state, states[0]? = some state ∧ state.items = grammar.closure [start]
  owned : ∀ state ∈ states, grammar.Owns state.items.items
  apart : ∀ (first second : Nat) (one other : State), states[first]? = some one →
    states[second]? = some other → one.items.sameSet other.items = true → first = second
  leads : ∀ state ∈ states, ∀ symbol number, state.transitions.get? symbol = some number →
    ∃ target, grammar.goto state.items symbol = some target ∧
      ∃ other, states[number]? = some other ∧ other.items.sameSet target = true
  covers : ∀ state ∈ states, ∀ symbol target, grammar.goto state.items symbol = some target →
    ∃ number, state.transitions.get? symbol = some number

theorem behind_mem_symbols {grammar : Grammar} {item : Item} {symbol : Symbol}
    (owned : item.production ∈ grammar.productions) (behind : item.symbol? = some symbol) :
    symbol ∈ grammar.symbols :=
  mem_symbols_iff.mpr (body_symbol owned (List.mem_of_getElem? behind))

/-- The states that sets and their rows make up. -/
def statesOf (sets : List ItemSet) (rows : List (SymbolMap Nat)) : List State :=
  (sets.zip rows).zipIdx.map fun ((set, row), number) => ⟨number, set, row⟩

theorem getElem?_statesOf {sets : List ItemSet} {rows : List (SymbolMap Nat)} {number : Nat}
    {state : State} :
    (statesOf sets rows)[number]? = some state ↔
      state.id = number ∧ sets[number]? = some state.items ∧
        rows[number]? = some state.transitions := by
  rw [statesOf, List.getElem?_map, List.getElem?_zipIdx, Option.map_map, Option.map_eq_some_iff]
  constructor
  · rintro ⟨⟨set, row⟩, zipped, rfl⟩
    obtain ⟨one, other⟩ := List.getElem?_zip_eq_some.mp zipped
    exact ⟨Nat.zero_add number, one, other⟩
  · rintro ⟨rfl, one, other⟩
    refine ⟨(state.items, state.transitions), List.getElem?_zip_eq_some.mpr ⟨one, other⟩, ?_⟩
    show State.mk (0 + state.id) state.items state.transitions = state
    rw [Nat.zero_add]

/-- If all sets have rows, every set is the set of a state. -/
theorem exists_getElem?_statesOf {sets : List ItemSet} {rows : List (SymbolMap Nat)}
    (full : rows.length = sets.length) {number : Nat} {set : ItemSet}
    (found : sets[number]? = some set) :
    ∃ row, (statesOf sets rows)[number]? = some ⟨number, set, row⟩ := by
  have inside : number < rows.length := by
    rw [full]
    exact (List.getElem?_eq_some_iff.mp found).1
  exact ⟨rows[number], getElem?_statesOf.mpr ⟨rfl, found, List.getElem?_eq_getElem inside⟩⟩

theorem length_statesOf {sets : List ItemSet} {rows : List (SymbolMap Nat)}
    (full : rows.length = sets.length) : (statesOf sets rows).length = sets.length := by
  rw [statesOf, List.length_map, List.length_zipIdx, List.length_zip, full, Nat.min_self]

/-- A state has the set and the row of some number. -/
theorem exists_of_mem_statesOf {sets : List ItemSet} {rows : List (SymbolMap Nat)}
    {state : State} (member : state ∈ statesOf sets rows) :
    ∃ number : Nat, sets[number]? = some state.items ∧
      rows[number]? = some state.transitions := by
  obtain ⟨number, found⟩ := List.getElem?_of_mem member
  exact ⟨number, (getElem?_statesOf.mp found).2⟩

theorem Explored.canonical {grammar : Grammar} {start : Item} {sets : List ItemSet}
    {rows : List (SymbolMap Nat)} (explored : grammar.Explored start sets rows)
    (full : rows.length = sets.length) : grammar.Canonical start (statesOf sets rows) where
  numbered number state found := (getElem?_statesOf.mp found).1
  first := by
    obtain ⟨row, found⟩ := exists_getElem?_statesOf full explored.first
    exact ⟨_, found, rfl⟩
  owned state member := by
    obtain ⟨_, setFound, _⟩ := exists_of_mem_statesOf member
    exact explored.owned _ (List.mem_of_getElem? setFound)
  apart first second one other firstFound secondFound same :=
    explored.apart.place_eq (getElem?_statesOf.mp firstFound).2.1
      (getElem?_statesOf.mp secondFound).2.1 same
  leads state member symbol number written := by
    obtain ⟨place, setFound, rowFound⟩ := exists_of_mem_statesOf member
    obtain ⟨target, leads, known⟩ :=
      (explored.linked place _ _ setFound rowFound).only symbol number written
    obtain ⟨other, otherFound, same⟩ := getElem?_of_stateNumber known
    obtain ⟨row, otherState⟩ := exists_getElem?_statesOf full otherFound
    exact ⟨target, leads, _, otherState, same⟩
  covers state member symbol target leads := by
    obtain ⟨place, setFound, rowFound⟩ := exists_of_mem_statesOf member
    obtain ⟨item, itemMember, behind⟩ := goto_isSome_iff.mp ⟨target, leads⟩
    have listed := behind_mem_symbols
      (explored.owned _ (List.mem_of_getElem? setFound) item itemMember) behind
    obtain ⟨number, _, written⟩ :=
      (explored.linked place _ _ setFound rowFound).numbered symbol listed target leads
    exact ⟨number, written⟩

theorem statesFrom_canonical {grammar : Grammar} {start : Item}
    (owned : start.production ∈ grammar.productions) :
    grammar.Canonical start (grammar.statesFrom start) := by
  obtain ⟨explored, full⟩ := (explored_start owned).finish (Nat.le_refl (2 ^ grammar.itemCount))
  exact explored.canonical full

/-- The automaton of an augmented grammar exists and is canonical. -/
theorem automaton_exists {grammar : Grammar} (augmented : grammar.augmented = true) :
    ∃ states, grammar.automaton = .ok states ∧
      grammar.Canonical (Item.start (grammar.startOf augmented)) states :=
  ⟨_, dif_pos augmented, statesFrom_canonical (List.head_mem _)⟩

end Grammar

end ShiftReduce
