/-
This file introduces items. An item is a production with a dot in its body; what stands in
front of the dot has been matched. Items are told apart, compared and sorted by their key,
the id of the production and the place of the dot.
-/

import ShiftReduce.Fault

namespace ShiftReduce

/-- A production with a dot in its body. -/
structure Item where
  production : Production
  dot : Nat
  inside : dot ≤ production.body.length
  deriving DecidableEq

namespace Item

/-! ### Keys -/

/-- What tells items apart. -/
structure Key where
  id : Int
  dot : Nat
  deriving DecidableEq, Inhabited

/-- Keys are ordered by id, and by dot under one id. -/
instance : LT Key :=
  ⟨fun first second => first.id < second.id ∨ first.id = second.id ∧ first.dot < second.dot⟩

instance (first second : Key) : Decidable (first < second) :=
  inferInstanceAs (Decidable (first.id < second.id ∨ first.id = second.id ∧ first.dot < second.dot))

theorem Key.lt_def {first second : Key} : first < second ↔
    first.id < second.id ∨ first.id = second.id ∧ first.dot < second.dot := Iff.rfl

instance : Trans (· < · : Key → Key → Prop) (· < ·) (· < ·) :=
  ⟨fun first second => by
    rw [Key.lt_def] at first second ⊢
    omega⟩

instance : Std.Irrefl (· < · : Key → Key → Prop) :=
  ⟨fun key below => by
    rw [Key.lt_def] at below
    omega⟩

instance : Std.Antisymm (· < · : Key → Key → Prop) :=
  ⟨fun first second below above => by
    rw [Key.lt_def] at below above
    omega⟩

instance : Std.Trichotomous (· < · : Key → Key → Prop) :=
  ⟨fun first second notBelow notAbove => by
    rw [Key.lt_def] at notBelow notAbove
    obtain ⟨firstId, firstDot⟩ := first
    obtain ⟨secondId, secondDot⟩ := second
    simp only [Key.mk.injEq] at *
    omega⟩

/-- The key of an item. -/
def key (item : Item) : Key :=
  ⟨item.production.id, item.dot⟩

/-! ### Placing and moving the dot -/

/-- The item of a production with its dot in front of the body. -/
def start (production : Production) : Item :=
  ⟨production, 0, Nat.zero_le _⟩

/-- The item of a production with its dot at a place, which has to lie in the body. -/
def ofDot (production : Production) (dot : Int) : Except Fault Item :=
  if inside : 0 ≤ dot ∧ dot.toNat ≤ production.body.length then
    .ok ⟨production, dot.toNat, inside.2⟩
  else .error (.dotOutOfRange dot production)

/-- The symbol behind the dot. -/
def symbol? (item : Item) : Option Symbol :=
  item.production.body[item.dot]?

/-- The dot of a complete item stands behind the body. -/
def isComplete (item : Item) : Bool :=
  item.dot == item.production.body.length

/-- The item with its dot one place on. -/
def advance (item : Item) : Except Fault Item :=
  ofDot item.production (item.dot + 1)

/-- The item with its dot moved over a symbol, if that symbol is behind the dot. -/
def advanceOver? (item : Item) (symbol : Symbol) : Option Item :=
  if behind : item.production.body[item.dot]? = some symbol then
    some ⟨item.production, item.dot + 1, (List.getElem?_eq_some_iff.mp behind).1⟩
  else none

theorem symbol?_eq_none_iff (item : Item) : item.symbol? = none ↔ item.isComplete = true := by
  rw [symbol?, isComplete, List.getElem?_eq_none_iff, beq_iff_eq]
  exact ⟨fun past => Nat.le_antisymm item.inside past, Nat.le_of_eq ∘ Eq.symm⟩

@[simp] theorem ofDot_natCast (item : Item) : ofDot item.production item.dot = .ok item := by
  unfold ofDot
  rw [dif_pos ⟨Int.natCast_nonneg _, by rw [Int.toNat_natCast]; exact item.inside⟩]
  simp only [Int.toNat_natCast]

/-- The dot of an item that is not complete can be advanced. -/
theorem advance_of_advanceOver? {item next : Item} {symbol : Symbol}
    (moved : item.advanceOver? symbol = some next) : item.advance = .ok next := by
  unfold advanceOver? at moved
  split at moved
  · rw [← Option.some_inj.mp moved]
    exact ofDot_natCast ⟨item.production, item.dot + 1, _⟩
  · cases moved

/-! ### Text -/

/-- The head, and the body with the dot in it, in square brackets. -/
def text (item : Item) : String :=
  let spaced := fun symbol : Symbol => " " ++ symbol
  "[" ++ item.production.head ++ " ->" ++
    String.join ((item.production.body.take item.dot).map spaced) ++ " •" ++
    String.join ((item.production.body.drop item.dot).map spaced) ++ "]"

end Item

end ShiftReduce
