/-
This file builds finite sets of symbols. A set is its strictly ascending list of members,
in the order of code points, and carries the proof; two sets with the same members are
therefore equal, and the list is also the written order.
-/

import ShiftReduce.Ascending
import ShiftReduce.Symbol.Basic

namespace ShiftReduce

/-- A finite set of symbols. -/
structure SymbolSet where
  members : List Symbol
  ascending : members.Pairwise (· < ·)
  deriving DecidableEq

namespace SymbolSet

instance : Membership Symbol SymbolSet :=
  ⟨fun set symbol => symbol ∈ set.members⟩

instance (symbol : Symbol) (set : SymbolSet) : Decidable (symbol ∈ set) :=
  inferInstanceAs (Decidable (symbol ∈ set.members))

/-! ### Operations -/

instance : EmptyCollection SymbolSet :=
  ⟨⟨[], List.Pairwise.nil⟩⟩

instance : Inhabited SymbolSet := ⟨∅⟩

/-- The set with one member. -/
def only (symbol : Symbol) : SymbolSet :=
  ⟨[symbol], List.pairwise_singleton _ _⟩

/-- The members of a list. -/
def ofList (symbols : List Symbol) : SymbolSet :=
  ⟨Ascending.ofList symbols, Ascending.ofList_ascending symbols⟩

/-- The set without a symbol. -/
def erase (set : SymbolSet) (symbol : Symbol) : SymbolSet :=
  ⟨set.members.filter fun member => member != symbol, set.ascending.filter _⟩

/-- The members of either set. -/
def union (first second : SymbolSet) : SymbolSet :=
  ⟨second.members.foldr Ascending.place first.members,
    Ascending.foldr_place_ascending first.ascending⟩

instance : Union SymbolSet := ⟨union⟩

/-- The number of members. -/
def size (set : SymbolSet) : Nat :=
  set.members.length

/-- The members in ascending order between commas. -/
def text (set : SymbolSet) : String :=
  ", ".intercalate set.members

/-! ### Membership -/

theorem mem_def {symbol : Symbol} {set : SymbolSet} : symbol ∈ set ↔ symbol ∈ set.members :=
  Iff.rfl

@[simp] theorem not_mem_empty (symbol : Symbol) : symbol ∉ (∅ : SymbolSet) :=
  List.not_mem_nil

@[simp] theorem mem_only {symbol other : Symbol} : other ∈ only symbol ↔ other = symbol :=
  List.mem_singleton

@[simp] theorem mem_ofList {other : Symbol} {symbols : List Symbol} :
    other ∈ ofList symbols ↔ other ∈ symbols :=
  Ascending.mem_ofList

@[simp] theorem mem_erase {symbol other : Symbol} {set : SymbolSet} :
    other ∈ set.erase symbol ↔ other ∈ set ∧ other ≠ symbol := by
  simp only [mem_def, erase, List.mem_filter, bne_iff_ne]

@[simp] theorem mem_union {other : Symbol} {first second : SymbolSet} :
    other ∈ first ∪ second ↔ other ∈ first ∨ other ∈ second :=
  Ascending.mem_foldr_place.trans or_comm

end SymbolSet

end ShiftReduce
