/-
This file proves that the key of a set of items is canonical. Within one grammar, lists with the
same items make sets with the same key, whatever the order and the repetitions, while the items of a
set stand where they first occur in its list. Exploring enrolls a set only if it is not known, so
the known sets are told apart by their keys, and a set is found among them exactly if one with the
same items is there.
-/

import Mathlib.Data.Finset.Dedup
import Mathlib.Data.Prod.Lex
import ShiftReduce.Proofs.Collection

namespace ShiftReduce

namespace Item

/-! ### The order of keys and items -/

/-- Keys are ordered as pairs, the id before the dot. -/
theorem Key.lt_iff_toLex {first second : Key} :
    first < second ↔ toLex (first.id, first.dot) < toLex (second.id, second.dot) := by
  rw [Key.lt_def, Prod.Lex.toLex_lt_toLex]

theorem distinct_nodup (items : List Item) : (distinct items).Nodup :=
  List.Nodup.of_map key (distinct_keys_nodup items)

/-- The distinct items of a list stand in the order in which they first occur. -/
theorem pairwise_distinct (items : List Item) :
    (distinct items).Pairwise fun first second => items.idxOf first < items.idxOf second := by
  induction items with
  | nil => exact List.Pairwise.nil
  | cons item rest inductionHypothesis =>
    have apart {other : Item}
        (member : other ∈ (distinct rest).filter fun other => decide (other.key ≠ item.key)) :
        item ≠ other := by
      rintro rfl
      exact of_decide_eq_true (List.mem_filter.mp member).2 rfl
    rw [distinct, List.pairwise_cons]
    constructor
    · intro other member
      rw [List.idxOf_cons_self, List.idxOf_cons_ne _ (apart member)]
      exact Nat.succ_pos _
    · refine (inductionHypothesis.filter _).imp_of_mem fun {first second} one other before => ?_
      rw [List.idxOf_cons_ne _ (apart one), List.idxOf_cons_ne _ (apart other)]
      exact Nat.succ_lt_succ before

end Item

namespace Grammar

variable {grammar : Grammar}

/-! ### Sets of items of a grammar -/

/-- How a set presents the items of a list: its key is the ascending list of their keys, and the
items stand in it once each, in the order in which they first occur. -/
structure Presents (items : List Item) (set : ItemSet) : Prop where
  keys : set.key.Perm (set.items.map Item.key)
  ascending : set.key.Pairwise fun first second =>
    toLex (first.id, first.dot) < toLex (second.id, second.dot)
  members : ∀ item, item ∈ set.items ↔ item ∈ items
  once : set.items.Nodup
  order : set.items.Pairwise fun first second => items.idxOf first < items.idxOf second
  size : set.size = items.toFinset.card

theorem Owns.mem_distinct_iff {items : List Item} (owns : grammar.Owns items) {item : Item} :
    item ∈ Item.distinct items ↔ item ∈ items := by
  refine ⟨Item.mem_of_mem_distinct, fun member => ?_⟩
  obtain ⟨other, kept, same⟩ := Item.mem_distinct_of_mem member
  have otherMember := Item.mem_of_mem_distinct kept
  rw [← item_ext (owns other otherMember) (owns item member) same]
  exact kept

theorem Owns.presents {items : List Item} (owns : grammar.Owns items) :
    Presents items (ItemSet.ofList items) where
  keys := (List.perm_ext_iff_of_nodup (ItemSet.key_ascending _).nodup
    (Item.distinct_keys_nodup items)).mpr fun _ => ItemSet.mem_key
  ascending := (ItemSet.key_ascending _).imp Item.Key.lt_iff_toLex.mp
  members _ := owns.mem_distinct_iff
  once := Item.distinct_nodup items
  order := Item.pairwise_distinct items
  size := by
    have same : (Item.distinct items).toFinset = items.toFinset := by
      ext item
      rw [List.mem_toFinset, List.mem_toFinset, owns.mem_distinct_iff]
    rw [← same, List.toFinset_card_of_nodup (Item.distinct_nodup items)]
    rfl

/-- Sets of items of a grammar are the same set exactly if they hold the same items. -/
theorem sameSet_iff_mem {first second : ItemSet} (firstOwned : grammar.Owns first.items)
    (secondOwned : grammar.Owns second.items) :
    first.sameSet second = true ↔ ∀ item, item ∈ first.items ↔ item ∈ second.items := by
  constructor
  · intro same item
    exact ⟨mem_of_sameSet firstOwned secondOwned same,
      mem_of_sameSet secondOwned firstOwned (sameSet_comm same)⟩
  · intro same
    refine ItemSet.sameSet_iff.mpr fun key => ?_
    rw [List.mem_map, List.mem_map]
    exact exists_congr fun item => and_congr_left' (same item)

theorem Owns.ofList {items : List Item} (owns : grammar.Owns items) :
    grammar.Owns (ItemSet.ofList items).items :=
  fun item member => owns item (Item.mem_of_mem_distinct member)

/-! ### Sets that are known -/

/-- The sets that are known at some time of exploring from an item: the first one, and all that were
enrolled when a known set was moved over a symbol. -/
inductive Known (grammar : Grammar) (start : Item) : List ItemSet → Prop
  | first : Known grammar start [grammar.closure [start]]
  | enrolled {known : List ItemSet} {set target : ItemSet} {symbol : Symbol}
      (earlier : Known grammar start known) (member : set ∈ known)
      (leads : grammar.goto set symbol = some target) :
      Known grammar start (enroll known target).1

section Knowing

variable {start : Item} {known : List ItemSet} {set : ItemSet}

theorem Known.apart (stored : grammar.Known start known) : Apart known := by
  induction stored with
  | first => exact List.pairwise_singleton _ _
  | enrolled _ _ _ apart => exact enroll_apart apart _

theorem Known.owned (stored : grammar.Known start known)
    (owned : start.production ∈ grammar.productions) :
    ∀ set ∈ known, grammar.Owns set.items := by
  induction stored with
  | first =>
    intro set member
    rw [List.mem_singleton.mp member]
    exact closure_owns fun item only => List.mem_singleton.mp only ▸ owned
  | @enrolled known other target symbol _ otherMember leads inductionHypothesis =>
    intro set member
    rcases mem_enroll member with old | rfl
    · exact inductionHypothesis set old
    · rw [(goto_eq_some_iff.mp leads).2]
      exact closure_owns (advanced_owned (inductionHypothesis other otherMember) symbol)

/-- Linking a known set enrolls sets one after another. -/
theorem Known.link (stored : grammar.Known start known) (member : set ∈ known)
    (symbols : List Symbol) (row : SymbolMap Nat) :
    grammar.Known start (grammar.link set symbols known row).1 := by
  induction symbols generalizing known row with
  | nil => exact stored
  | cons symbol rest inductionHypothesis =>
    cases leads : grammar.goto set symbol with
    | none =>
      rw [link_cons_none leads]
      exact inductionHypothesis stored member row
    | some target =>
      rw [link_cons_some leads]
      exact inductionHypothesis (stored.enrolled member leads)
        ((prefix_enroll known target).subset member) _

theorem Known.explore (stored : grammar.Known start known) (rounds : Nat)
    (rows : List (SymbolMap Nat)) :
    grammar.Known start (grammar.explore rounds known rows).1 := by
  induction rounds generalizing known rows with
  | zero => exact stored
  | succ rounds inductionHypothesis =>
    rw [Grammar.explore]
    cases next : known[rows.length]? with
    | none => exact stored
    | some set => exact inductionHypothesis (stored.link (List.mem_of_getElem? next) _ _) _

/-- Among the known sets, one with the items of a given set is found under its number, and if there
is none then nothing is found. -/
structure Finds (known : List ItemSet) (target : ItemSet) : Prop where
  number : ∀ number, stateNumber known target = some number ↔ ∃ set, known[number]? = some set ∧
    ∀ item, item ∈ set.items ↔ item ∈ target.items
  nothing : stateNumber known target = none ↔
    ∀ set ∈ known, ¬ ∀ item, item ∈ set.items ↔ item ∈ target.items

theorem Known.finds {target : ItemSet} (stored : grammar.Known start known)
    (owned : start.production ∈ grammar.productions) (targetOwned : grammar.Owns target.items) :
    Finds known target where
  number number := by
    constructor
    · intro found
      obtain ⟨set, placed, same⟩ := getElem?_of_stateNumber found
      have setOwned := stored.owned owned set (List.mem_of_getElem? placed)
      exact ⟨set, placed, (sameSet_iff_mem setOwned targetOwned).mp same⟩
    · rintro ⟨set, placed, same⟩
      have member := List.mem_of_getElem? placed
      have alike := (sameSet_iff_mem (stored.owned owned set member) targetOwned).mpr same
      cases found : stateNumber known target with
      | none =>
        rw [stateNumber_eq_none_iff.mp found set member] at alike
        cases alike
      | some other =>
        obtain ⟨again, otherPlaced, otherAlike⟩ := getElem?_of_stateNumber found
        rw [stored.apart.place_eq otherPlaced placed (sameSet_trans otherAlike alike)]
  nothing := by
    rw [stateNumber_eq_none_iff]
    refine forall₂_congr fun set member => ?_
    rw [← sameSet_iff_mem (stored.owned owned set member) targetOwned, Bool.not_eq_true]

end Knowing

/-! ### Canonical keys -/

/-- Within one grammar, the key of a set of items is the ascending list of the keys of its items,
and sets are equal exactly if they are made from lists with the same items; the items of a set are
those of its list, in the order of their first occurrence. At every time of exploring, a set is
found among the known ones exactly if one with the same items was enrolled. -/
theorem keys_canonical (grammar : Grammar) :
    (∀ items, grammar.Owns items → Presents items (ItemSet.ofList items)) ∧
    (∀ first second, grammar.Owns first → grammar.Owns second →
      ((ItemSet.ofList first).sameSet (ItemSet.ofList second) = true ↔
        ∀ item, item ∈ first ↔ item ∈ second)) ∧
    ∀ start : Item, start.production ∈ grammar.productions →
      (∀ rounds set front,
        (grammar.explore rounds [grammar.closure [start]] []).1[
          (grammar.explore rounds [grammar.closure [start]] []).2.length]? = some set →
        grammar.Known start
          (grammar.link set front (grammar.explore rounds [grammar.closure [start]] []).1 ∅).1) ∧
      ∀ known target, grammar.Known start known → grammar.Owns target.items →
        Finds known target := by
  refine ⟨fun items owns => owns.presents, fun first second firstOwned secondOwned => ?_,
    fun start owned => ⟨fun rounds set front next => ?_,
      fun known target stored targetOwned => stored.finds owned targetOwned⟩⟩
  · rw [sameSet_iff_mem firstOwned.ofList secondOwned.ofList]
    exact forall_congr' fun item =>
      iff_congr firstOwned.mem_distinct_iff secondOwned.mem_distinct_iff
  · exact (Known.first.explore rounds []).link (List.mem_of_getElem? next) front ∅

/-- The items that a train starts from. -/
def ahead : List Item :=
  [Item.start ⟨0, "S", ["A", "S"]⟩, Item.start ⟨2, "A", ["a"]⟩]

/-- The same items in another order, one of them twice. -/
def shuffled : List Item :=
  [Item.start ⟨2, "A", ["a"]⟩, Item.start ⟨0, "S", ["A", "S"]⟩, Item.start ⟨2, "A", ["a"]⟩]

/-- Both lists make one set, which is found as the first state though its items stand in another
order. -/
theorem keys_canonical_train :
    (ItemSet.ofList shuffled).sameSet (ItemSet.ofList ahead) = true ∧
    (ItemSet.ofList shuffled).items = ahead.reverse ∧
    (ItemSet.ofList shuffled).key = [⟨0, 0⟩, ⟨2, 0⟩] ∧ (ItemSet.ofList shuffled).size = 2 ∧
    stateNumber [train.closure [Item.start ⟨0, "S", ["A", "S"]⟩]] (ItemSet.ofList shuffled) =
      some 0 := by
  obtain ⟨presents, same, explores⟩ := keys_canonical train
  have aheadOwned : train.Owns ahead := by
    rintro item (_ | ⟨_, _ | ⟨_, none⟩⟩)
    · exact List.mem_cons_self
    · exact List.mem_cons_of_mem _ (List.mem_cons_of_mem _ List.mem_cons_self)
    · cases none
  have members : ∀ item, item ∈ shuffled ↔ item ∈ ahead := by
    intro item
    simp only [shuffled, ahead, List.mem_cons, List.not_mem_nil, or_false]
    tauto
  have owned : train.Owns shuffled := fun item member =>
    aheadOwned item ((members item).mp member)
  have closed : (train.closure [Item.start ⟨0, "S", ["A", "S"]⟩]).items = ahead := by decide
  refine ⟨(same _ _ owned aheadOwned).mpr members, by decide, by decide,
    (presents _ owned).size, ?_⟩
  obtain ⟨_, finds⟩ := explores (Item.start ⟨0, "S", ["A", "S"]⟩) List.mem_cons_self
  refine ((finds _ _ .first owned.ofList).number 0).mpr ⟨_, rfl, fun item => ?_⟩
  rw [closed, (presents _ owned).members item, members]

end Grammar

end ShiftReduce
