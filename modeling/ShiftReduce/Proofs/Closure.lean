/-
This file proves what closing a list of items gives. Within one grammar the key of an item
tells it apart, so lists of its items may be compared by keys. The rounds that a closure is
given are enough: a visit takes one item off the waiting ones and adds a start item only
for a production that had none, so the waiting items and the productions without a start
item shrink together. The closure is therefore closed, and it holds no item that the least
closed set does not hold. The items that a state leads to by a symbol follow from it.
-/

import Mathlib.Tactic.Set
import ShiftReduce.Automaton
import ShiftReduce.Item.Valid

namespace ShiftReduce

/-! ### Items of one grammar -/

theorem Item.ext {first second : Item} (production : first.production = second.production)
    (dot : first.dot = second.dot) : first = second := by
  cases first
  cases second
  cases production
  cases dot
  rfl

theorem Item.advanceOver?_eq_some_iff {item next : Item} {symbol : Symbol} :
    item.advanceOver? symbol = some next ↔
      item.symbol? = some symbol ∧ next.production = item.production ∧
        next.dot = item.dot + 1 := by
  unfold advanceOver? symbol?
  constructor
  · intro moved
    split at moved
    · rename_i behind
      rw [← Option.some_inj.mp moved]
      exact ⟨behind, rfl, rfl⟩
    · cases moved
  · rintro ⟨behind, production, dot⟩
    rw [dif_pos behind]
    exact congrArg some (Item.ext production.symm dot.symm)

theorem Item.mem_distinct_of_mem {items : List Item} {item : Item} (member : item ∈ items) :
    ∃ other ∈ Item.distinct items, other.key = item.key :=
  List.mem_map.mp (Item.mem_distinct_keys.mpr (List.mem_map_of_mem member))

namespace Grammar

/-- All items of a list belong to productions of the grammar. -/
def Owns (grammar : Grammar) (items : List Item) : Prop :=
  ∀ item ∈ items, item.production ∈ grammar.productions

/-- Productions of a grammar are told apart by their ids. -/
theorem production_ext {grammar : Grammar} {first second : Production}
    (firstMember : first ∈ grammar.productions) (secondMember : second ∈ grammar.productions)
    (same : first.id = second.id) : first = second := by
  obtain ⟨firstPlace, firstFound⟩ := List.getElem?_of_mem firstMember
  obtain ⟨secondPlace, secondFound⟩ := List.getElem?_of_mem secondMember
  have firstId := grammar.wellFormed.dense firstPlace first firstFound
  have secondId := grammar.wellFormed.dense secondPlace second secondFound
  have place : firstPlace = secondPlace := by omega
  rw [place, secondFound] at firstFound
  exact (Option.some_inj.mp firstFound).symm

theorem nodup_productions (grammar : Grammar) : grammar.productions.Nodup := by
  refine List.pairwise_iff_getElem.mpr fun first second firstIn secondIn below same => ?_
  have firstId := grammar.wellFormed.dense first _ (List.getElem?_eq_getElem firstIn)
  have secondId := grammar.wellFormed.dense second _ (List.getElem?_eq_getElem secondIn)
  rw [same, secondId] at firstId
  omega

/-- Items of a grammar are told apart by their keys. -/
theorem item_ext {grammar : Grammar} {first second : Item}
    (firstMember : first.production ∈ grammar.productions)
    (secondMember : second.production ∈ grammar.productions) (same : first.key = second.key) :
    first = second :=
  Item.ext (production_ext firstMember secondMember (congrArg Item.Key.id same))
    (congrArg Item.Key.dot same)

theorem Owns.mem_iff {grammar : Grammar} {items : List Item} {item : Item}
    (owns : grammar.Owns items) (member : item.production ∈ grammar.productions) :
    item ∈ items ↔ item.key ∈ items.map Item.key := by
  constructor
  · exact List.mem_map_of_mem
  · intro listed
    obtain ⟨other, otherMember, same⟩ := List.mem_map.mp listed
    rw [← item_ext (owns other otherMember) member same]
    exact otherMember

@[simp] theorem mem_productionsFor {grammar : Grammar} {symbol : Symbol} {production : Production} :
    production ∈ grammar.productionsFor symbol ↔
      production ∈ grammar.productions ∧ production.head = symbol := by
  rw [productionsFor, List.mem_filter, beq_iff_eq]

theorem isNonTerminal_iff_exists {grammar : Grammar} {symbol : Symbol} :
    grammar.isNonTerminal symbol = true ↔
      ∃ production, production ∈ grammar.productionsFor symbol := by
  rw [isNonTerminal, List.any_eq_true]
  refine exists_congr fun production => ?_
  simp

theorem mem_predicted {grammar : Grammar} {item other : Item} :
    other ∈ grammar.predicted item ↔ ∃ symbol, item.symbol? = some symbol ∧
      ∃ production ∈ grammar.productionsFor symbol, Item.start production = other := by
  unfold predicted
  cases item.symbol? with
  | none => simp
  | some symbol => simp

/-! ### Visiting the waiting items -/

/-- The productions whose start item is not among the known ones. -/
def unseen (grammar : Grammar) (known : List Item.Key) : List Production :=
  grammar.productions.filter fun production => !known.contains (Item.start production).key

/-- The start items that an item calls for and that are new. -/
def fresh (grammar : Grammar) (known : List Item.Key) (item : Item) : List Item :=
  (grammar.predicted item).filter fun other => !known.contains other.key

theorem visit_cons (grammar : Grammar) (rounds : Nat) (visited : List Item) (item : Item)
    (waiting : List Item) :
    grammar.visit (rounds + 1) visited (item :: waiting) =
      grammar.visit rounds (visited ++ [item])
        (waiting ++ grammar.fresh ((visited ++ item :: waiting).map Item.key) item) := rfl

@[simp] theorem mem_fresh {grammar : Grammar} {known : List Item.Key} {item other : Item} :
    other ∈ grammar.fresh known item ↔ other ∈ grammar.predicted item ∧ other.key ∉ known := by
  simp [fresh, List.mem_filter]

/-- Every new start item uses up a production. -/
theorem unseen_append_fresh (grammar : Grammar) (known : List Item.Key) (item : Item) :
    (grammar.unseen (known ++ (grammar.fresh known item).map Item.key)).length +
      (grammar.fresh known item).length ≤ (grammar.unseen known).length := by
  cases behind : item.symbol? with
  | none => simp [fresh, predicted, behind]
  | some symbol =>
    have added : (grammar.fresh known item).length =
        grammar.productions.countP fun production =>
          !known.contains (Item.start production).key && production.head == symbol := by
      simp only [fresh, predicted, behind, productionsFor, List.filter_map, List.length_map,
        List.filter_filter, List.countP_eq_length_filter, Function.comp_def]
    have kept : (grammar.unseen (known ++ (grammar.fresh known item).map Item.key)).length ≤
        grammar.productions.countP fun production =>
          !known.contains (Item.start production).key && !(production.head == symbol) := by
      rw [unseen, ← List.countP_eq_length_filter]
      refine List.countP_mono_left fun production member absent => ?_
      simp only [Bool.not_eq_true', List.contains_eq_mem, decide_eq_false_iff_not,
        List.mem_append, not_or, List.mem_map, not_exists, not_and] at absent
      have unknown := absent.1
      have other : production.head ≠ symbol := fun same =>
        absent.2 (Item.start production) (mem_fresh.mpr ⟨mem_predicted.mpr ⟨symbol, behind,
          production, mem_productionsFor.mpr ⟨member, same⟩, rfl⟩, unknown⟩) rfl
      simp [unknown, other]
    have split : (grammar.unseen known).length = _ :=
      List.countP_eq_length_filter.symm.trans
        (List.countP_eq_countP_filter_add _ _ fun production => production.head == symbol)
    rw [List.countP_filter, List.countP_filter] at split
    omega

/-- An item moves from the waiting ones to the visited ones, and new items come behind. -/
theorem visited_append (visited waiting found : List Item) (item : Item) :
    visited ++ [item] ++ (waiting ++ found) = visited ++ item :: waiting ++ found := by
  simp only [List.append_assoc, List.cons_append, List.nil_append]

/-- The waiting items, and the productions that may still add one. -/
def outstanding (grammar : Grammar) (visited waiting : List Item) : Nat :=
  waiting.length + (grammar.unseen ((visited ++ waiting).map Item.key)).length

theorem outstanding_visited (grammar : Grammar) (visited waiting : List Item) (item : Item) :
    grammar.outstanding (visited ++ [item])
        (waiting ++ grammar.fresh ((visited ++ item :: waiting).map Item.key) item) <
      grammar.outstanding visited (item :: waiting) := by
  have used := grammar.unseen_append_fresh ((visited ++ item :: waiting).map Item.key) item
  rw [← List.map_append] at used
  rw [outstanding, outstanding, visited_append, List.length_append, List.length_cons]
  omega

/-- The items that visiting adds come behind the others, with their dots in front. -/
theorem visit_adds (grammar : Grammar) (rounds : Nat) (visited waiting : List Item) :
    ∃ added, grammar.visit rounds visited waiting = visited ++ waiting ++ added ∧
      ∀ item ∈ added, item.dot = 0 := by
  induction rounds generalizing visited waiting with
  | zero => exact ⟨[], (List.append_nil _).symm, fun _ none => absurd none List.not_mem_nil⟩
  | succ rounds inductionHypothesis =>
    cases waiting with
    | nil =>
      refine ⟨[], ?_, fun _ none => absurd none List.not_mem_nil⟩
      rw [visit, List.append_nil, List.append_nil]
    | cons item waiting =>
      obtain ⟨added, shape, dots⟩ := inductionHypothesis (visited ++ [item])
        (waiting ++ grammar.fresh ((visited ++ item :: waiting).map Item.key) item)
      rw [visited_append, List.append_assoc] at shape
      refine ⟨_, (visit_cons ..).trans shape, fun other member => ?_⟩
      rcases List.mem_append.mp member with new | later
      · obtain ⟨_, _, production, _, rfl⟩ := mem_predicted.mp (mem_fresh.mp new).1
        rfl
      · exact dots other later

theorem visit_grows (grammar : Grammar) (rounds : Nat) (visited waiting : List Item) :
    visited ++ waiting <+: grammar.visit rounds visited waiting := by
  obtain ⟨added, shape, _⟩ := grammar.visit_adds rounds visited waiting
  exact ⟨added, shape.symm⟩

/-- With enough rounds every item has the start items it calls for beside it. -/
theorem visit_closed {grammar : Grammar} {rounds : Nat} {visited waiting : List Item}
    (enough : grammar.outstanding visited waiting ≤ rounds)
    (closed : ∀ item ∈ visited, ∀ other ∈ grammar.predicted item,
      other.key ∈ (visited ++ waiting).map Item.key) :
    ∀ item ∈ grammar.visit rounds visited waiting, ∀ other ∈ grammar.predicted item,
      other.key ∈ (grammar.visit rounds visited waiting).map Item.key := by
  induction rounds generalizing visited waiting with
  | zero =>
    have nothing : waiting = [] :=
      List.eq_nil_of_length_eq_zero (Nat.eq_zero_of_add_eq_zero (Nat.le_zero.mp enough)).1
    subst nothing
    rw [visit]
    simpa only [List.append_nil] using closed
  | succ rounds inductionHypothesis =>
    cases waiting with
    | nil =>
      rw [visit]
      simpa only [List.append_nil] using closed
    | cons item waiting =>
      rw [visit_cons]
      refine inductionHypothesis (Nat.le_of_lt_succ
        (Nat.lt_of_lt_of_le (grammar.outstanding_visited visited waiting item) enough)) ?_
      rw [visited_append, List.map_append]
      set known := (visited ++ item :: waiting).map Item.key
      intro former member other calls
      rcases List.mem_append.mp member with old | new
      · exact List.mem_append_left _ (closed former old other calls)
      · rw [List.mem_singleton.mp new] at calls
        by_cases here : other.key ∈ known
        · exact List.mem_append_left _ here
        · exact List.mem_append_right _ (List.mem_map_of_mem (mem_fresh.mpr ⟨calls, here⟩))

/-- Visiting items ends by itself, because every production adds at most one item. -/
theorem visit_more {grammar : Grammar} {rounds : Nat} {visited waiting : List Item}
    (enough : grammar.outstanding visited waiting ≤ rounds) (more : Nat) :
    grammar.visit (rounds + more) visited waiting = grammar.visit rounds visited waiting := by
  induction rounds generalizing visited waiting with
  | zero =>
    have nothing : waiting = [] :=
      List.eq_nil_of_length_eq_zero (Nat.eq_zero_of_add_eq_zero (Nat.le_zero.mp enough)).1
    subst nothing
    rw [Nat.zero_add, visit, List.append_nil]
    cases more with
    | zero => exact List.append_nil visited
    | succ more => rfl
  | succ rounds inductionHypothesis =>
    rw [Nat.succ_add]
    cases waiting with
    | nil => rfl
    | cons item waiting =>
      rw [visit_cons, visit_cons]
      exact inductionHypothesis (Nat.le_of_lt_succ
        (Nat.lt_of_lt_of_le (grammar.outstanding_visited visited waiting item) enough))

theorem visit_sound {grammar : Grammar} {given : List Item} {rounds : Nat}
    {visited waiting : List Item}
    (sound : ∀ item ∈ visited ++ waiting, grammar.InClosure given item) :
    ∀ item ∈ grammar.visit rounds visited waiting, grammar.InClosure given item := by
  induction rounds generalizing visited waiting with
  | zero => exact sound
  | succ rounds inductionHypothesis =>
    cases waiting with
    | nil =>
      rw [visit]
      simpa only [List.append_nil] using sound
    | cons item waiting =>
      rw [visit_cons]
      refine inductionHypothesis fun other member => ?_
      rw [visited_append] at member
      rcases List.mem_append.mp member with old | new
      · exact sound other old
      · obtain ⟨symbol, behind, production, headed, rfl⟩ :=
          mem_predicted.mp (mem_fresh.mp new).1
        exact .predicted (sound item (List.mem_append_right _ List.mem_cons_self)) behind headed

/-! ### The closure of a list of items -/

theorem InClosure.owned {grammar : Grammar} {given : List Item} {item : Item}
    (owns : grammar.Owns given) (closed : grammar.InClosure given item) :
    item.production ∈ grammar.productions := by
  cases closed with
  | given member => exact owns item member
  | predicted _ _ member => exact (mem_productionsFor.mp member).1

theorem outstanding_start (grammar : Grammar) (items : List Item) :
    grammar.outstanding [] items ≤ items.length + grammar.size :=
  Nat.add_le_add_left (List.length_filter_le _ _) _

/-- Closing a list of items ends by itself: more rounds than it is given change nothing. -/
theorem closure_ends (grammar : Grammar) (items : List Item) (more : Nat) :
    grammar.visit ((Item.distinct items).length + grammar.size + more) [] (Item.distinct items) =
      grammar.visit ((Item.distinct items).length + grammar.size) [] (Item.distinct items) :=
  visit_more (grammar.outstanding_start _) more

/-- The closure holds exactly the items of the least closed set. -/
theorem mem_closure {grammar : Grammar} {given : List Item} (owns : grammar.Owns given)
    {item : Item} : item ∈ (grammar.closure given).items ↔ grammar.InClosure given item := by
  have kept : ∀ other ∈ Item.distinct given, grammar.InClosure given other := fun other member =>
    .given (Item.mem_of_mem_distinct member)
  have sound : ∀ other ∈ (grammar.closure given).items, grammar.InClosure given other :=
    fun other member => visit_sound kept other (Item.mem_of_mem_distinct member)
  have owned : grammar.Owns (grammar.closure given).items := fun other member =>
    (sound other member).owned owns
  have keys : ∀ key, key ∈ (grammar.closure given).items.map Item.key ↔
      key ∈ (grammar.visit ((Item.distinct given).length + grammar.size) []
        (Item.distinct given)).map Item.key := fun key => Item.mem_distinct_keys
  refine ⟨sound item, fun closed => ?_⟩
  induction closed with
  | @given item member =>
    obtain ⟨other, otherMember, same⟩ := Item.mem_distinct_of_mem member
    rw [owned.mem_iff (owns item member), keys, ← same]
    exact List.mem_map_of_mem ((visit_grows grammar _ [] _).subset otherMember)
  | @predicted item symbol production closed behind member inductionHypothesis =>
    rw [owned.mem_iff (mem_productionsFor.mp member).1, keys]
    exact visit_closed (grammar.outstanding_start _) (fun _ none => absurd none List.not_mem_nil)
      item (Item.mem_of_mem_distinct inductionHypothesis) _
      (mem_predicted.mpr ⟨symbol, behind, production, member, rfl⟩)

theorem closure_owns {grammar : Grammar} {given : List Item} (owns : grammar.Owns given) :
    grammar.Owns (grammar.closure given).items :=
  fun _ member => ((mem_closure owns).mp member).owned owns

/-! ### Moving the dot of a set -/

/-- The items of a set that expect a symbol, with their dots moved over it. -/
def advanced (set : ItemSet) (symbol : Symbol) : List Item :=
  set.items.filterMap fun item => item.advanceOver? symbol

@[simp] theorem mem_advanced {set : ItemSet} {symbol : Symbol} {next : Item} :
    next ∈ advanced set symbol ↔ ∃ item ∈ set.items, item.advanceOver? symbol = some next :=
  List.mem_filterMap

theorem advanced_owned {grammar : Grammar} {set : ItemSet} (owns : grammar.Owns set.items)
    (symbol : Symbol) : grammar.Owns (advanced set symbol) := by
  intro next member
  obtain ⟨item, itemMember, moved⟩ := mem_advanced.mp member
  rw [(Item.advanceOver?_eq_some_iff.mp moved).2.1]
  exact owns item itemMember

theorem goto_eq_some_iff {grammar : Grammar} {set target : ItemSet} {symbol : Symbol} :
    grammar.goto set symbol = some target ↔
      advanced set symbol ≠ [] ∧ target = grammar.closure (advanced set symbol) := by
  unfold goto
  rw [← advanced]
  cases advanced set symbol with
  | nil => simp
  | cons first rest => simp [eq_comm]

/-- A set leads somewhere by the symbols its items expect, and by no others. -/
theorem goto_isSome_iff {grammar : Grammar} {set : ItemSet} {symbol : Symbol} :
    (∃ target, grammar.goto set symbol = some target) ↔
      ∃ item ∈ set.items, item.symbol? = some symbol := by
  constructor
  · rintro ⟨target, leads⟩
    obtain ⟨next, member⟩ := List.exists_mem_of_ne_nil _ (goto_eq_some_iff.mp leads).1
    obtain ⟨item, itemMember, moved⟩ := mem_advanced.mp member
    exact ⟨item, itemMember, (Item.advanceOver?_eq_some_iff.mp moved).1⟩
  · rintro ⟨item, member, behind⟩
    obtain ⟨inside, _⟩ := List.getElem?_eq_some_iff.mp behind
    have moved : item.advanceOver? symbol = some ⟨item.production, item.dot + 1, inside⟩ :=
      Item.advanceOver?_eq_some_iff.mpr ⟨behind, rfl, rfl⟩
    exact ⟨_, goto_eq_some_iff.mpr ⟨List.ne_nil_of_mem (mem_advanced.mpr ⟨item, member, moved⟩),
      rfl⟩⟩

end Grammar

end ShiftReduce
