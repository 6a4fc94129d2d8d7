/-
This file states what the automaton of an augmented grammar is for: a string leads somewhere
from the first state exactly if some item is valid for it, and the state it leads to holds the
items valid for it and no others. Two strings lead to the same state exactly if the same items
are valid for both, so the states are the classes of viable strings that no item tells apart.
-/

import ShiftReduce.Proofs.Soundness

namespace ShiftReduce

namespace Grammar

/-! ### States and strings -/

section Augmented

variable {grammar augmented : Grammar} {start : Symbol} {states : List State}

/-- Strings for which the same items are valid lead to the same state. -/
theorem walk_eq_walk_iff (augments : grammar.Augments augmented start)
    (canonical : augmented.Canonical (Item.start (grammar.root start)) states)
    {first second : List Symbol} (viable : augmented.IsViable first) :
    State.walk states 0 first = State.walk states 0 second ↔
      ∀ item, augmented.ValidItem first item ↔ augmented.ValidItem second item := by
  obtain ⟨number, walked⟩ := (walk_exists_iff augments canonical).mpr viable
  obtain ⟨state, found⟩ := canonical.getElem?_walk walked
  have items : ∀ item, item ∈ state.items.items ↔ augmented.ValidItem first item :=
    fun _ => mem_state_iff augments canonical walked found
  rw [walked]
  constructor
  · intro same item
    rw [← items]
    exact mem_state_iff augments canonical same.symm found
  · intro same
    obtain ⟨item, valid⟩ := viable
    obtain ⟨other, otherWalked⟩ :=
      (walk_exists_iff augments canonical).mpr ⟨item, (same item).mp valid⟩
    obtain ⟨otherState, otherFound⟩ := canonical.getElem?_walk otherWalked
    have equal : state.items.sameSet otherState.items = true := by
      refine ItemSet.sameSet_iff.mpr fun key => ?_
      simp only [List.mem_map, items, same,
        mem_state_iff augments canonical otherWalked otherFound]
    rw [otherWalked, canonical.apart number other state otherState found otherFound equal]

end Augmented

/-- The automaton of an augmented grammar recognises the viable strings, and the state that a
string leads to holds exactly the items valid for the string. -/
theorem automaton_recognises {grammar augmented : Grammar}
    (found : grammar.augment = .ok augmented) :
    ∃ states, augmented.automaton = .ok states ∧ ∀ string,
      ((∃ number, State.walk states 0 string = some number) ↔
        ∃ item, augmented.ValidItem string item) ∧
      ∀ number, State.walk states 0 string = some number →
        ∃ state, states[number]? = some state ∧
          ∀ item, item ∈ state.items.items ↔ augmented.ValidItem string item := by
  obtain ⟨start, augments⟩ := augments_of_augment found
  obtain ⟨states, statesFound, canonical⟩ := automaton_exists augments.flagged
  rw [augments.startOf_eq] at canonical
  refine ⟨states, statesFound, fun string =>
    ⟨walk_exists_iff augments canonical, fun number walked => ?_⟩⟩
  obtain ⟨state, stateFound⟩ := canonical.getElem?_walk walked
  exact ⟨state, stateFound, fun item => mem_state_iff augments canonical walked stateFound⟩

/-- Behind two openings a pair can be inside or begin, and a closing cannot come at once. -/
theorem automaton_recognises_nested :
    ∃ augmented states number state, nested.augment = .ok augmented ∧
      augmented.automaton = .ok states ∧ State.walk states 0 ["a", "a"] = some number ∧
      states[number]? = some state ∧
      state.items.items.map Item.key = [⟨1, 1⟩, ⟨1, 0⟩, ⟨2, 0⟩] ∧
      (∀ item, item ∈ state.items.items ↔ augmented.ValidItem ["a", "a"] item) ∧
      ∀ item, ¬ augmented.ValidItem ["a", "b"] item := by
  obtain ⟨augmented, _, augmentedFound, _⟩ :=
    augment_exists (show nested.augmented = false from rfl) (by decide)
  obtain ⟨states, statesFound, recognises⟩ := automaton_recognises augmentedFound
  have evaluated : (nested.augment.toOption.bind fun augmented =>
      augmented.automaton.toOption.map fun states =>
        (((State.walk states 0 ["a", "a"]).bind fun number =>
          states[number]?.map fun state => state.items.items.map Item.key),
          State.walk states 0 ["a", "b"])) =
      some (some [⟨1, 1⟩, ⟨1, 0⟩, ⟨2, 0⟩], none) := by
    decide +kernel
  rw [augmentedFound] at evaluated
  change (augmented.automaton.toOption.map _) = _ at evaluated
  rw [statesFound] at evaluated
  obtain ⟨behind, nowhere⟩ := Prod.mk.inj (Option.some_inj.mp evaluated)
  obtain ⟨number, walked, read⟩ := Option.bind_eq_some_iff.mp behind
  obtain ⟨state, stateFound, items⟩ := (recognises ["a", "a"]).2 number walked
  rw [stateFound] at read
  refine ⟨augmented, states, number, state, augmentedFound, statesFound, walked, stateFound,
    Option.some_inj.mp read, items, fun item valid => ?_⟩
  obtain ⟨other, otherWalked⟩ := (recognises ["a", "b"]).1.mpr ⟨item, valid⟩
  rw [nowhere] at otherWalked
  cases otherWalked

end Grammar

end ShiftReduce
