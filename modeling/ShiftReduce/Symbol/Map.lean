/-
This file builds maps from symbols that remember the order in which their symbols came.
A map is a list of pairs in which no symbol occurs twice. Writing a symbol that is present
replaces its value where it stands; a new symbol goes to the end. Two maps agree when they
give every symbol the same value, whatever their orders.
-/

import ShiftReduce.Fault

namespace ShiftReduce

/-- A map from symbols, in the order in which the symbols were first written. -/
structure SymbolMap (Value : Type) where
  entries : List (Symbol × Value)
  distinct : (entries.map Prod.fst).Nodup
  deriving DecidableEq

namespace SymbolMap

variable {Value : Type}

/-! ### Writing into the list of pairs -/

/-- Replaces the value of a symbol, or adds the pair at the end. -/
def put (symbol : Symbol) (value : Value) : List (Symbol × Value) → List (Symbol × Value)
  | [] => [(symbol, value)]
  | (key, old) :: rest =>
      if key = symbol then (key, value) :: rest else (key, old) :: put symbol value rest

theorem keys_put (symbol : Symbol) (value : Value) (entries : List (Symbol × Value)) :
    (put symbol value entries).map Prod.fst =
      if symbol ∈ entries.map Prod.fst then entries.map Prod.fst
      else entries.map Prod.fst ++ [symbol] := by
  induction entries with
  | nil => simp [put]
  | cons entry rest inductionHypothesis =>
    obtain ⟨key, old⟩ := entry
    unfold put
    by_cases same : key = symbol
    · subst same
      simp
    · have other : symbol ≠ key := fun equal => same equal.symm
      rw [if_neg same, List.map_cons, inductionHypothesis]
      by_cases present : symbol ∈ rest.map Prod.fst
      · rw [if_pos present, List.map_cons, if_pos (List.mem_cons_of_mem _ present)]
      · have absent : symbol ∉ (key, old).fst :: rest.map Prod.fst := by
          rw [List.mem_cons]
          exact fun either => either.elim other present
        rw [if_neg present, List.map_cons, if_neg absent, List.cons_append]

theorem put_distinct {symbol : Symbol} {value : Value} {entries : List (Symbol × Value)}
    (distinct : (entries.map Prod.fst).Nodup) :
    ((put symbol value entries).map Prod.fst).Nodup := by
  rw [keys_put]
  split
  · exact distinct
  · rename_i absent
    refine List.nodup_append.mpr ⟨distinct, by simp, fun first member second only => ?_⟩
    rw [List.mem_singleton.mp only]
    rintro rfl
    exact absent member

@[simp] theorem lookup_put_self (symbol : Symbol) (value : Value)
    (entries : List (Symbol × Value)) : (put symbol value entries).lookup symbol = some value := by
  induction entries with
  | nil => simp [put]
  | cons entry rest inductionHypothesis =>
    obtain ⟨key, old⟩ := entry
    unfold put
    split
    · rename_i same
      simp [same]
    · rename_i different
      have other : (symbol == key) = false := by
        simpa using fun equal : symbol = key => different equal.symm
      simp only [List.lookup_cons, other, inductionHypothesis]

@[simp] theorem lookup_put_other {symbol other : Symbol} (different : other ≠ symbol)
    (value : Value) (entries : List (Symbol × Value)) :
    (put symbol value entries).lookup other = entries.lookup other := by
  have apart : (other == symbol) = false := by simpa using different
  induction entries with
  | nil => simp [put, List.lookup_cons, apart]
  | cons entry rest inductionHypothesis =>
    obtain ⟨key, old⟩ := entry
    unfold put
    split
    · rename_i same
      subst same
      simp only [List.lookup_cons, apart]
    · simp only [List.lookup_cons]
      split
      · rfl
      · exact inductionHypothesis

/-! ### Operations -/

/-- The map without symbols. -/
def empty : SymbolMap Value :=
  ⟨[], List.nodup_nil⟩

instance : EmptyCollection (SymbolMap Value) := ⟨empty⟩

instance : Inhabited (SymbolMap Value) := ⟨empty⟩

/-- The map with a value written for a symbol. -/
def insert (map : SymbolMap Value) (symbol : Symbol) (value : Value) : SymbolMap Value :=
  ⟨put symbol value map.entries, put_distinct map.distinct⟩

/-- The pairs of a list, written from first to last. -/
def ofList (pairs : List (Symbol × Value)) : SymbolMap Value :=
  pairs.foldl (fun map pair => map.insert pair.1 pair.2) empty

/-- The value of a symbol. -/
def get? (map : SymbolMap Value) (symbol : Symbol) : Option Value :=
  map.entries.lookup symbol

/-- The value of a symbol that has to have one. -/
def lookup (map : SymbolMap Value) (symbol : Symbol) : Except Fault Value :=
  valueOr (.missingSymbol symbol) (map.get? symbol)

/-- The symbols of a map, in order. -/
def keys (map : SymbolMap Value) : List Symbol :=
  map.entries.map Prod.fst

/-- The values of a map, in the order of their symbols. -/
def values (map : SymbolMap Value) : List Value :=
  map.entries.map Prod.snd

/-- Two maps agree when the pairs of each are all in the other. -/
def agrees [DecidableEq Value] (first second : SymbolMap Value) : Bool :=
  (first.entries.all fun pair => second.get? pair.1 == some pair.2) &&
    second.entries.all fun pair => first.get? pair.1 == some pair.2

/-! ### What is read after a write -/

@[simp] theorem get?_empty (symbol : Symbol) : (empty : SymbolMap Value).get? symbol = none := rfl

@[simp] theorem get?_insert_self (map : SymbolMap Value) (symbol : Symbol) (value : Value) :
    (map.insert symbol value).get? symbol = some value :=
  lookup_put_self symbol value map.entries

@[simp] theorem get?_insert_other (map : SymbolMap Value) {symbol other : Symbol}
    (different : other ≠ symbol) (value : Value) :
    (map.insert symbol value).get? other = map.get? other :=
  lookup_put_other different value map.entries

/-- What is found after a write is the value written, or stood there under another symbol. -/
theorem get?_insert_eq_some_iff {map : SymbolMap Value} {symbol other : Symbol}
    {value found : Value} :
    (map.insert symbol value).get? other = some found ↔
      (other = symbol ∧ value = found) ∨ (other ≠ symbol ∧ map.get? other = some found) := by
  by_cases same : other = symbol
  · simp [same]
  · simp [same]

theorem keys_insert (map : SymbolMap Value) (symbol : Symbol) (value : Value) :
    (map.insert symbol value).keys =
      if symbol ∈ map.keys then map.keys else map.keys ++ [symbol] :=
  keys_put symbol value map.entries

theorem get?_eq_some_iff (map : SymbolMap Value) (symbol : Symbol) (value : Value) :
    map.get? symbol = some value ↔ (symbol, value) ∈ map.entries := by
  obtain ⟨entries, distinct⟩ := map
  show entries.lookup symbol = some value ↔ (symbol, value) ∈ entries
  induction entries with
  | nil => simp
  | cons entry rest inductionHypothesis =>
    obtain ⟨key, old⟩ := entry
    obtain ⟨absent, distinctRest⟩ := List.nodup_cons.mp distinct
    by_cases same : symbol = key
    · subst same
      have found : List.lookup symbol ((symbol, old) :: rest) = some old := by
        simp
      rw [found, List.mem_cons, Prod.mk.injEq, Option.some.injEq]
      constructor
      · rintro rfl
        exact .inl ⟨rfl, rfl⟩
      · rintro (⟨_, equal⟩ | member)
        · exact equal.symm
        · exact absurd (List.mem_map_of_mem member) absent
    · have passed : List.lookup symbol ((key, old) :: rest) = rest.lookup symbol := by
        have apart : (symbol == key) = false := by simpa using same
        simp only [List.lookup_cons, apart]
      rw [passed, inductionHypothesis distinctRest, List.mem_cons, Prod.mk.injEq]
      exact ⟨.inr, fun either => either.resolve_left fun equal => same equal.1⟩

@[simp] theorem isSome_get?_iff (map : SymbolMap Value) (symbol : Symbol) :
    (map.get? symbol).isSome ↔ symbol ∈ map.keys := by
  rw [Option.isSome_iff_exists, keys, List.mem_map]
  constructor
  · rintro ⟨value, found⟩
    exact ⟨(symbol, value), (map.get?_eq_some_iff symbol value).mp found, rfl⟩
  · rintro ⟨⟨key, value⟩, member, rfl⟩
    exact ⟨value, (map.get?_eq_some_iff key value).mpr member⟩

/-- Maps agree exactly when they give every symbol the same value. -/
theorem agrees_iff [DecidableEq Value] {first second : SymbolMap Value} :
    first.agrees second = true ↔ ∀ symbol, first.get? symbol = second.get? symbol := by
  simp only [agrees, Bool.and_eq_true, List.all_eq_true, beq_iff_eq]
  constructor
  · rintro ⟨forth, back⟩ symbol
    cases found : first.get? symbol with
    | some value => exact (forth _ ((first.get?_eq_some_iff symbol value).mp found)).symm
    | none =>
      cases other : second.get? symbol with
      | none => rfl
      | some value =>
        rw [← found]
        exact back _ ((second.get?_eq_some_iff symbol value).mp other)
  · intro same
    constructor
    · rintro ⟨symbol, value⟩ member
      rw [← same]
      exact (first.get?_eq_some_iff symbol value).mpr member
    · rintro ⟨symbol, value⟩ member
      rw [same]
      exact (second.get?_eq_some_iff symbol value).mpr member

@[simp] theorem lookup_eq_ok_iff {map : SymbolMap Value} {symbol : Symbol} {value : Value} :
    map.lookup symbol = .ok value ↔ map.get? symbol = some value :=
  valueOr_eq_ok_iff

end SymbolMap

end ShiftReduce
