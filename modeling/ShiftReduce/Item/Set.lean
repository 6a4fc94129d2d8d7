/-
This file builds sets of items. The items stay in the order in which they were first given,
which is the order of display and of table filling, while the set is known by its key, the
ascending list of the keys of its items. Two sets are the same set when their keys agree,
whatever their orders.
-/

import ShiftReduce.Ascending
import ShiftReduce.Item.Basic

namespace ShiftReduce

namespace Item

/-- The items of a list, each key once, where it first occurs. -/
def distinct : List Item → List Item
  | [] => []
  | item :: rest => item :: (distinct rest).filter fun other => decide (other.key ≠ item.key)

theorem distinct_keys_nodup (items : List Item) : ((distinct items).map key).Nodup := by
  induction items with
  | nil => exact List.nodup_nil
  | cons item rest inductionHypothesis =>
    rw [distinct, List.map_cons, List.nodup_cons]
    constructor
    · intro member
      obtain ⟨other, kept, same⟩ := List.mem_map.mp member
      exact of_decide_eq_true (List.mem_filter.mp kept).2 same
    · exact inductionHypothesis.sublist (List.filter_sublist.map key)

theorem mem_distinct_keys {items : List Item} {wanted : Key} :
    wanted ∈ (distinct items).map key ↔ wanted ∈ items.map key := by
  induction items with
  | nil => rfl
  | cons item rest inductionHypothesis =>
    rw [distinct, List.map_cons, List.map_cons, List.mem_cons, List.mem_cons,
      ← inductionHypothesis]
    by_cases same : wanted = item.key
    · simp [same]
    · simp only [same, false_or, List.mem_map, List.mem_filter, decide_eq_true_eq]
      constructor
      · rintro ⟨other, ⟨member, _⟩, equal⟩
        exact ⟨other, member, equal⟩
      · rintro ⟨other, member, equal⟩
        exact ⟨other, ⟨member, equal ▸ same⟩, equal⟩

theorem mem_of_mem_distinct {items : List Item} {item : Item} (member : item ∈ distinct items) :
    item ∈ items := by
  induction items with
  | nil => cases member
  | cons first rest inductionHypothesis =>
    rcases List.mem_cons.mp member with rfl | kept
    · exact List.mem_cons_self
    · exact List.mem_cons_of_mem _ (inductionHypothesis (List.mem_filter.mp kept).1)

end Item

/-- A set of items, in order, with the key it is known by. -/
structure ItemSet where
  items : List Item
  key : List Item.Key
  distinct : (items.map Item.key).Nodup
  sorted : key = Ascending.ofList (items.map Item.key)

namespace ItemSet

/-- The set of the items of a list. -/
def ofList (items : List Item) : ItemSet :=
  let kept := Item.distinct items
  ⟨kept, Ascending.ofList (kept.map Item.key), Item.distinct_keys_nodup items, rfl⟩

/-- Whether two sets are the same set. -/
def sameSet (first second : ItemSet) : Bool :=
  first.key == second.key

/-- Whether an item is in a set. -/
def contains (set : ItemSet) (item : Item) : Bool :=
  set.items.any fun member => member.key == item.key

/-- The number of items. -/
def size (set : ItemSet) : Nat :=
  set.items.length

/-- The items that were there before the set was closed: the dot has moved, or the
production is the start production. -/
def kernel (set : ItemSet) : List Item :=
  set.items.filter fun item => decide (0 < item.dot) || item.production.id == 0

/-- The items in order, in round brackets. -/
def text (set : ItemSet) : String :=
  "ItemSet(" ++ Text.joined ", " (set.items.map Item.text) ++ ")"

/-- A set of items is determined by its items in their order. -/
theorem eq_of_items {first second : ItemSet} (same : first.items = second.items) :
    first = second := by
  obtain ⟨items, key, distinct, sorted⟩ := first
  obtain ⟨others, otherKey, otherDistinct, otherSorted⟩ := second
  subst same
  subst sorted
  subst otherSorted
  rfl

theorem key_ascending (set : ItemSet) : set.key.Pairwise (· < ·) := by
  rw [set.sorted]
  exact Ascending.ofList_ascending _

@[simp] theorem mem_key {set : ItemSet} {key : Item.Key} :
    key ∈ set.key ↔ key ∈ set.items.map Item.key := by
  rw [set.sorted]
  exact Ascending.mem_ofList

@[simp] theorem contains_iff {set : ItemSet} {item : Item} :
    set.contains item = true ↔ item.key ∈ set.key := by
  rw [mem_key, contains, List.any_eq_true, List.mem_map]
  simp only [beq_iff_eq]

end ItemSet

end ShiftReduce
