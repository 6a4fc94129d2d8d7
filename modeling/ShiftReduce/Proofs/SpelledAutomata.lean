/-
This file proves that the automaton goes along with a change of spelling. Items and sets of items
are told apart by their keys, which hold numbers only, and a set is explored over the alphabet in
its order; so the same sets are found at the same moment and get the same numbers.
-/

import ShiftReduce.Proofs.SpelledSymbols

namespace ShiftReduce

/-! ### Items -/

namespace Item

section Items

variable (spelling : Spelling)

theorem start_respell (production : Production) :
    (start production).respell spelling = start (production.respell spelling) := rfl

@[simp] theorem symbol?_respell (item : Item) :
    (item.respell spelling).symbol? = item.symbol?.map spelling :=
  List.getElem?_map

@[simp] theorem advanceOver?_respell (item : Item) (symbol : Symbol) :
    (item.respell spelling).advanceOver? (spelling symbol) =
      (item.advanceOver? symbol).map (respell spelling) := by
  have image : (item.respell spelling).production.body[(item.respell spelling).dot]? =
      (item.production.body[item.dot]?).map spelling := List.getElem?_map
  unfold advanceOver?
  by_cases behind : item.production.body[item.dot]? = some symbol
  · rw [dif_pos behind, dif_pos (by rw [image, behind]; rfl)]
    rfl
  · have apart : ¬ (item.respell spelling).production.body[(item.respell spelling).dot]? =
        some (spelling symbol) := by
      rw [image]
      intro found
      obtain ⟨other, here, same⟩ := Option.map_eq_some_iff.mp found
      exact behind (here.trans (congrArg some (spelling.injective same)))
    rw [dif_neg behind, dif_neg apart]
    rfl

theorem keys_respell (items : List Item) :
    (items.map (respell spelling)).map key = items.map key := by
  rw [List.map_map]
  rfl

theorem distinct_respell (items : List Item) :
    distinct (items.map (respell spelling)) = (distinct items).map (respell spelling) := by
  induction items with
  | nil => rfl
  | cons item rest inductionHypothesis =>
    rw [List.map_cons, distinct, distinct, inductionHypothesis, List.map_cons, List.filter_map]
    rfl

end Items

end Item

/-! ### Sets of items -/

namespace ItemSet

theorem ofList_respell (spelling : Spelling) (items : List Item) :
    ofList (items.map (Item.respell spelling)) = (ofList items).respell spelling :=
  eq_of_items (Item.distinct_respell spelling items)

end ItemSet

namespace Grammar

section Automata

variable (spelling : Spelling) (grammar : Grammar)

/-! ### Closure and goto -/

theorem predicted_respell (item : Item) :
    (grammar.respell spelling).predicted (item.respell spelling) =
      (grammar.predicted item).map (Item.respell spelling) := by
  rw [predicted, predicted, Item.symbol?_respell]
  cases item.symbol? with
  | none => rfl
  | some symbol =>
    show ((grammar.respell spelling).productionsFor (spelling symbol)).map Item.start = _
    rw [productionsFor_respell, List.map_map, List.map_map]
    rfl

theorem visit_respell (rounds : Nat) (visited waiting : List Item) :
    (grammar.respell spelling).visit rounds (visited.map (Item.respell spelling))
        (waiting.map (Item.respell spelling)) =
      (grammar.visit rounds visited waiting).map (Item.respell spelling) := by
  induction rounds generalizing visited waiting with
  | zero => exact List.map_append.symm
  | succ rounds inductionHypothesis =>
    cases waiting with
    | nil => rfl
    | cons item waiting =>
      have known : (visited.map (Item.respell spelling) ++
            item.respell spelling :: waiting.map (Item.respell spelling)).map Item.key =
          (visited ++ item :: waiting).map Item.key := by
        rw [← List.map_cons, ← List.map_append, Item.keys_respell]
      have front : visited.map (Item.respell spelling) ++ [item.respell spelling] =
          (visited ++ [item]).map (Item.respell spelling) := by
        rw [List.map_append, List.map_singleton]
      rw [List.map_cons, visit, visit, known, predicted_respell, List.filter_map, front,
        ← List.map_append, inductionHypothesis]
      rfl

theorem closure_respell (items : List Item) :
    (grammar.respell spelling).closure (items.map (Item.respell spelling)) =
      (grammar.closure items).respell spelling := by
  have visited := grammar.visit_respell spelling
    ((Item.distinct items).length + grammar.size) [] (Item.distinct items)
  rw [List.map_nil] at visited
  simp [closure, Item.distinct_respell, visited, ItemSet.ofList_respell]

theorem goto_respell (set : ItemSet) (symbol : Symbol) :
    (grammar.respell spelling).goto (set.respell spelling) (spelling symbol) =
      (grammar.goto set symbol).map (ItemSet.respell spelling) := by
  have moved : (set.respell spelling).items.filterMap
      (fun item => item.advanceOver? (spelling symbol)) =
      (set.items.filterMap fun item => item.advanceOver? symbol).map (Item.respell spelling) := by
    show (set.items.map (Item.respell spelling)).filterMap _ = _
    rw [List.filterMap_map, List.map_filterMap]
    exact List.filterMap_congr fun item _ => Item.advanceOver?_respell spelling item symbol
  rw [goto, goto, moved]
  cases set.items.filterMap fun item => item.advanceOver? symbol with
  | nil => rfl
  | cons item rest => exact congrArg some (grammar.closure_respell spelling (item :: rest))

/-! ### Exploration -/

theorem stateNumber_respell (known : List ItemSet) (set : ItemSet) :
    stateNumber (known.map (ItemSet.respell spelling)) (set.respell spelling) =
      stateNumber known set :=
  List.findIdx?_map

theorem link_respell (set : ItemSet) (symbols : List Symbol) (known : List ItemSet)
    (row : SymbolMap Nat) :
    (grammar.respell spelling).link (set.respell spelling) (symbols.map spelling)
        (known.map (ItemSet.respell spelling)) (row.respell spelling fun target => target) =
      ((grammar.link set symbols known row).1.map (ItemSet.respell spelling),
        (grammar.link set symbols known row).2.respell spelling fun target => target) := by
  induction symbols generalizing known row with
  | nil => rfl
  | cons symbol rest inductionHypothesis =>
    rw [List.map_cons, link, link, goto_respell]
    cases grammar.goto set symbol with
    | none => exact inductionHypothesis known row
    | some target =>
      simp only [Option.map_some, stateNumber_respell]
      cases stateNumber known target with
      | some number =>
        have later := inductionHypothesis known (row.insert symbol number)
        rw [SymbolMap.insert_respell] at later
        exact later
      | none =>
        have later := inductionHypothesis (known ++ [target]) (row.insert symbol known.length)
        rw [SymbolMap.insert_respell, List.map_append] at later
        simp only [List.length_map]
        exact later

theorem explore_respell (rounds : Nat) (known : List ItemSet) (rows : List (SymbolMap Nat)) :
    (grammar.respell spelling).explore rounds (known.map (ItemSet.respell spelling))
        (rows.map (SymbolMap.respell spelling fun target => target)) =
      ((grammar.explore rounds known rows).1.map (ItemSet.respell spelling),
        (grammar.explore rounds known rows).2.map
          (SymbolMap.respell spelling fun target => target)) := by
  induction rounds generalizing known rows with
  | zero => rfl
  | succ rounds inductionHypothesis =>
    rw [explore, explore, List.length_map, List.getElem?_map]
    cases known[rows.length]? with
    | none => rfl
    | some set =>
      have linked := grammar.link_respell spelling set grammar.symbols known ∅
      have later := inductionHypothesis (grammar.link set grammar.symbols known ∅).1
        (rows ++ [(grammar.link set grammar.symbols known ∅).2])
      rw [List.map_append] at later
      have start : (∅ : SymbolMap Nat) =
          (∅ : SymbolMap Nat).respell spelling fun target => target := rfl
      simp only [Option.map_some, symbols_respell]
      rw [start, linked]
      exact later

theorem statesFrom_respell (start : Item) :
    (grammar.respell spelling).statesFrom (start.respell spelling) =
      (grammar.statesFrom start).map (State.respell spelling) := by
  have opened := grammar.closure_respell spelling [start]
  have explored := grammar.explore_respell spelling (Nat.pow 2 grammar.itemCount)
    [grammar.closure [start]] []
  rw [List.map_singleton] at opened
  rw [List.map_singleton, List.map_nil] at explored
  rw [statesFrom, statesFrom, itemCount_respell, opened, explored]
  simp only [List.zip_map, List.zipIdx_map, List.map_map]
  rfl

theorem automaton_respell {states : List State} (found : grammar.automaton = .ok states) :
    (grammar.respell spelling).automaton = .ok (states.map (State.respell spelling)) := by
  unfold automaton at found ⊢
  split at found
  · rename_i augmented
    rw [dif_pos (show (grammar.respell spelling).augmented = true from augmented),
      startOf_respell, ← Item.start_respell, statesFrom_respell, ← Except.ok.inj found]
  · cases found

end Automata

end Grammar

end ShiftReduce
