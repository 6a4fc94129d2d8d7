/-
This file proves that sets and maps of symbols, and what a grammar says of its symbols, go along
with a change of spelling. Different symbols stay different, so a map is written and read in the
same places, and symbols are listed in the same order. Sets are the exception: their members are
in the order of their spelling, so that only membership goes along.
-/

import ShiftReduce.Proofs.Lists
import ShiftReduce.Proofs.Settling
import ShiftReduce.Spelling

namespace ShiftReduce

/-! ### Maps -/

namespace SymbolMap

section Maps

variable {Value Result : Type} {spelling : Spelling} {change : Value → Result}

theorem eq_of_entries {first second : SymbolMap Value} (same : first.entries = second.entries) :
    first = second := by
  cases first
  cases second
  cases same
  rfl

theorem put_respell (symbol : Symbol) (value : Value) (entries : List (Symbol × Value)) :
    put (spelling symbol) (change value)
        (entries.map fun pair => (spelling pair.1, change pair.2)) =
      (put symbol value entries).map fun pair => (spelling pair.1, change pair.2) := by
  induction entries with
  | nil => rfl
  | cons entry rest inductionHypothesis =>
    obtain ⟨key, old⟩ := entry
    rw [List.map_cons, put, put]
    by_cases same : key = symbol
    · rw [if_pos (congrArg spelling.map same), if_pos same]
      rfl
    · rw [if_neg (fun equal => same (spelling.injective equal)), if_neg same, inductionHypothesis]
      rfl

variable (spelling change)

theorem insert_respell (map : SymbolMap Value) (symbol : Symbol) (value : Value) :
    (map.insert symbol value).respell spelling change =
      (map.respell spelling change).insert (spelling symbol) (change value) :=
  eq_of_entries (put_respell symbol value map.entries).symm

theorem ofList_respell (pairs : List (Symbol × Value)) :
    (ofList pairs).respell spelling change =
      ofList (pairs.map fun pair => (spelling pair.1, change pair.2)) := by
  have written (map : SymbolMap Value) :
      (pairs.foldl (fun map pair => map.insert pair.1 pair.2) map).respell spelling change =
        (pairs.map fun pair => (spelling pair.1, change pair.2)).foldl
          (fun map pair => map.insert pair.1 pair.2) (map.respell spelling change) := by
    induction pairs generalizing map with
    | nil => rfl
    | cons pair rest inductionHypothesis =>
      rw [List.foldl_cons, inductionHypothesis, insert_respell]
      rfl
  exact written empty

@[simp] theorem get?_respell (map : SymbolMap Value) (symbol : Symbol) :
    (map.respell spelling change).get? (spelling symbol) = (map.get? symbol).map change := by
  obtain ⟨entries, distinct⟩ := map
  show (entries.map fun pair => (spelling pair.1, change pair.2)).lookup (spelling symbol) =
    (entries.lookup symbol).map change
  clear distinct
  induction entries with
  | nil => rfl
  | cons entry rest inductionHypothesis =>
    rw [List.map_cons, List.lookup_cons, List.lookup_cons, spelling.injective.beq_eq,
      inductionHypothesis]
    cases symbol == entry.1 <;> rfl

@[simp] theorem keys_respell (map : SymbolMap Value) :
    (map.respell spelling change).keys = map.keys.map spelling := by
  show (map.entries.map fun pair => (spelling pair.1, change pair.2)).map Prod.fst =
    (map.entries.map Prod.fst).map spelling
  rw [List.map_map, List.map_map]
  rfl

@[simp] theorem values_respell (map : SymbolMap Value) :
    (map.respell spelling change).values = map.values.map change := by
  show (map.entries.map fun pair => (spelling pair.1, change pair.2)).map Prod.snd =
    (map.entries.map Prod.snd).map change
  rw [List.map_map, List.map_map]
  rfl

variable {spelling change}

theorem lookup_respell {map : SymbolMap Value} {symbol : Symbol} {value : Value}
    (found : map.lookup symbol = .ok value) :
    (map.respell spelling change).lookup (spelling symbol) = .ok (change value) := by
  rw [lookup_eq_ok_iff] at found ⊢
  simp [found]

theorem respell_injective (injective : Function.Injective change) :
    Function.Injective (SymbolMap.respell spelling change) := by
  intro first second same
  refine eq_of_entries (List.map_injective_iff.mpr ?_ (congrArg entries same))
  intro one other equal
  obtain ⟨symbols, values⟩ := Prod.mk.inj equal
  exact Prod.ext (spelling.injective symbols) (injective values)

/-- Changes that agree on the pairs of a map change it in the same way. -/
theorem respell_congr {map : SymbolMap Value} {other : Spelling} {otherChange : Value → Result}
    (agree : ∀ symbol value, map.get? symbol = some value →
      spelling symbol = other symbol ∧ change value = otherChange value) :
    map.respell spelling change = map.respell other otherChange := by
  refine eq_of_entries (List.map_congr_left fun pair inside => ?_)
  obtain ⟨symbols, values⟩ := agree pair.1 pair.2 ((map.get?_eq_some_iff _ _).mpr inside)
  rw [symbols, values]

end Maps

end SymbolMap

/-! ### Sets -/

namespace SymbolSet

section Sets

variable {spelling : Spelling} {set : SymbolSet} {symbol : Symbol}

theorem mem_respell : symbol ∈ set.respell spelling ↔ ∃ member ∈ set, spelling member = symbol := by
  rw [respell, mem_ofList, List.mem_map]
  rfl

@[simp] theorem image_mem_respell : spelling symbol ∈ set.respell spelling ↔ symbol ∈ set := by
  rw [mem_respell]
  constructor
  · rintro ⟨member, inside, same⟩
    rw [← spelling.injective same]
    exact inside
  · exact fun inside => ⟨symbol, inside, rfl⟩

theorem respell_injective : Function.Injective (SymbolSet.respell spelling) := by
  intro first second same
  refine ext fun symbol => ?_
  have image (set : SymbolSet) : spelling symbol ∈ set.respell spelling ↔ symbol ∈ set :=
    image_mem_respell
  rw [← image, same, image]

/-- A different spelling has as many members. -/
@[simp] theorem size_respell : (set.respell spelling).size = set.size := by
  have different : (set.members.map spelling).Nodup :=
    List.Pairwise.map spelling.map (fun _ _ other same => other (spelling.injective same)) set.nodup
  have same : (set.respell spelling).members.Perm (set.members.map spelling) :=
    (List.perm_ext_iff_of_nodup (nodup _) different).mpr fun _ => mem_ofList
  rw [size, same.length_eq, List.length_map, size]

variable (spelling)

theorem ofList_respell (symbols : List Symbol) :
    (ofList symbols).respell spelling = ofList (symbols.map spelling) := by
  refine ext fun symbol => ?_
  rw [mem_respell, mem_ofList, List.mem_map]
  simp only [mem_ofList]

theorem only_respell (symbol : Symbol) :
    (only symbol).respell spelling = only (spelling symbol) := rfl

theorem union_respell (first second : SymbolSet) :
    (first ∪ second).respell spelling = first.respell spelling ∪ second.respell spelling := by
  refine ext fun symbol => ?_
  simp only [mem_union, mem_respell, or_and_right, exists_or]

theorem erase_respell (set : SymbolSet) (symbol : Symbol) :
    (set.erase symbol).respell spelling = (set.respell spelling).erase (spelling symbol) := by
  refine ext fun other => ?_
  rw [mem_erase, mem_respell, mem_respell]
  constructor
  · rintro ⟨member, inside, rfl⟩
    obtain ⟨kept, apart⟩ := mem_erase.mp inside
    exact ⟨⟨member, kept, rfl⟩, fun same => apart (spelling.injective same)⟩
  · rintro ⟨⟨member, inside, rfl⟩, apart⟩
    exact ⟨member, mem_erase.mpr ⟨inside, fun same => apart (congrArg spelling.map same)⟩, rfl⟩

end Sets

end SymbolSet

/-! ### Grammars -/

namespace Grammar

section Grammars

variable (spelling : Spelling) (grammar : Grammar)

@[simp] theorem nonTerminals_respell :
    (grammar.respell spelling).nonTerminals = grammar.nonTerminals.map spelling := by
  have heads : (grammar.respell spelling).productions.map Production.head =
      (grammar.productions.map Production.head).map spelling := by
    show (grammar.productions.map (Production.respell spelling)).map Production.head = _
    rw [List.map_map, List.map_map]
    rfl
  rw [nonTerminals, heads, eraseDups_map spelling.injective]
  rfl

@[simp] theorem isNonTerminal_respell (symbol : Symbol) :
    (grammar.respell spelling).isNonTerminal (spelling symbol) = grammar.isNonTerminal symbol := by
  show (grammar.productions.map (Production.respell spelling)).any _ = _
  rw [List.any_map]
  exact List.any_congr rfl fun production =>
    spelling.injective.beq_eq

@[simp] theorem terminals_respell :
    (grammar.respell spelling).terminals = grammar.terminals.map spelling := by
  have bodies : (grammar.respell spelling).productions.flatMap Production.body =
      (grammar.productions.flatMap Production.body).map spelling := by
    show (grammar.productions.map (Production.respell spelling)).flatMap Production.body = _
    rw [List.flatMap_map, List.map_flatMap]
    rfl
  have kept : ((grammar.productions.flatMap Production.body).map spelling).filter
      (fun symbol => !(grammar.respell spelling).isNonTerminal symbol) =
      ((grammar.productions.flatMap Production.body).filter
        fun symbol => !grammar.isNonTerminal symbol).map spelling := by
    rw [List.filter_map]
    refine congrArg (List.map spelling) (List.filter_congr fun symbol _ => ?_)
    exact congrArg Bool.not (grammar.isNonTerminal_respell spelling symbol)
  rw [terminals, bodies, kept, eraseDups_map spelling.injective]
  rfl

@[simp] theorem isTerminal_respell (symbol : Symbol) :
    (grammar.respell spelling).isTerminal (spelling symbol) = grammar.isTerminal symbol := by
  rw [isTerminal, isTerminal, isNonTerminal_respell]
  refine congrArg _ ?_
  show (grammar.productions.map (Production.respell spelling)).any _ = _
  rw [List.any_map]
  exact List.any_congr rfl fun production =>
    contains_map spelling.injective production.body symbol

@[simp] theorem symbols_respell :
    (grammar.respell spelling).symbols = grammar.symbols.map spelling := by
  simp [symbols, ← List.map_append]

@[simp] theorem startSymbol_respell :
    (grammar.respell spelling).startSymbol = grammar.startSymbol.map spelling := by
  show ((grammar.productions.map (Production.respell spelling)).head?).map Production.head = _
  rw [List.head?_map, Option.map_map, startSymbol, Option.map_map]
  rfl

@[simp] theorem productionsFor_respell (symbol : Symbol) :
    (grammar.respell spelling).productionsFor (spelling symbol) =
      (grammar.productionsFor symbol).map (Production.respell spelling) := by
  show (grammar.productions.map (Production.respell spelling)).filter _ = _
  rw [List.filter_map, productionsFor]
  refine congrArg (List.map _) (List.filter_congr fun production _ => ?_)
  exact spelling.injective.beq_eq

theorem startOf_respell (augmented : grammar.augmented = true) :
    (grammar.respell spelling).startOf augmented =
      (grammar.startOf augmented).respell spelling :=
  List.head_map _

@[simp] theorem size_respell : (grammar.respell spelling).size = grammar.size :=
  List.length_map _

@[simp] theorem itemCount_respell : (grammar.respell spelling).itemCount = grammar.itemCount := by
  show (grammar.productions.map (Production.respell spelling)).foldr _ 0 = _
  rw [List.foldr_map, itemCount]
  refine congrArg (fun count => grammar.productions.foldr count 0) ?_
  funext production count
  show (production.body.map spelling).length + 1 + count = _
  rw [List.length_map]

variable {spelling grammar}

theorem startProduction_respell {start : Production} (found : grammar.startProduction = .ok start) :
    (grammar.respell spelling).startProduction = .ok (start.respell spelling) := by
  unfold startProduction at found ⊢
  split at found
  · rename_i augmented
    rw [dif_pos (show (grammar.respell spelling).augmented = true from augmented),
      startOf_respell, Except.ok.inj found]
  · cases found

end Grammars

end Grammar

namespace Table

@[simp] theorem columns_respell (spelling : Spelling) (grammar : Grammar) :
    columns (grammar.respell spelling) = (columns grammar).map spelling := by
  simp [columns, spelling.fixes _ Symbol.endMarker_reserved]

end Table

end ShiftReduce
