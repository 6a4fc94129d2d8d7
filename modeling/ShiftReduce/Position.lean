/-
This file fixes how a signed position picks from a sequence. Positions `0` to `n - 1` count
from the front, `-1` to `-n` from the back, and every other position picks nothing. The
same rule serves rules, states, table rows, steps of a run, nodes and the parse stack. A
slice cuts a sequence between two signed bounds with a stride; its bounds never fail,
because they are moved to the nearest end.
-/

namespace ShiftReduce.Position

/-! ### One position -/

/-- The place, counted from the front, that a signed position names in a sequence of the
given length. -/
def resolve (length : Nat) (position : Int) : Option Nat :=
  if 0 ≤ position then
    if position < length then some position.toNat else none
  else if 0 ≤ length + position then some (length + position).toNat
  else none

/-- The element a signed position names. -/
def pick? {Element : Type} (elements : List Element) (position : Int) : Option Element :=
  (resolve elements.length position).bind fun place => elements[place]?

theorem resolve_lt {length place : Nat} {position : Int}
    (named : resolve length position = some place) : place < length := by
  unfold resolve at named
  split at named
  · split at named
    · rw [← Option.some_inj.mp named]
      omega
    · cases named
  · split at named
    · rw [← Option.some_inj.mp named]
      omega
    · cases named

@[simp] theorem resolve_natCast (length place : Nat) :
    resolve length (place : Int) = if place < length then some place else none := by
  unfold resolve
  rw [if_pos (Int.natCast_nonneg place)]
  by_cases inside : place < length
  · rw [if_pos inside, if_pos (by omega), Int.toNat_natCast]
  · rw [if_neg inside, if_neg (by omega)]

/-- Counting from the front is ordinary lookup. -/
@[simp] theorem pick?_natCast {Element : Type} (elements : List Element) (place : Nat) :
    pick? elements (place : Int) = elements[place]? := by
  unfold pick?
  rw [resolve_natCast]
  by_cases inside : place < elements.length
  · rw [if_pos inside, Option.bind_some]
  · rw [if_neg inside, Option.bind_none, List.getElem?_eq_none (by omega)]

@[simp] theorem pick?_map {Element Result : Type} (change : Element → Result)
    (elements : List Element) (position : Int) :
    pick? (elements.map change) position = (pick? elements position).map change := by
  rw [pick?, pick?, List.length_map]
  cases resolve elements.length position with
  | none => rfl
  | some place => exact List.getElem?_map

/-- Nothing is picked exactly outside the two runs of positions. -/
theorem pick?_eq_none_iff {Element : Type} (elements : List Element) (position : Int) :
    pick? elements position = none ↔
      position < -(elements.length : Int) ∨ (elements.length : Int) ≤ position := by
  unfold pick? resolve
  by_cases front : 0 ≤ position
  · rw [if_pos front]
    by_cases inside : position < elements.length
    · rw [if_pos inside, Option.bind_some, List.getElem?_eq_none_iff]
      omega
    · rw [if_neg inside, Option.bind_none]
      simp only [true_iff]
      omega
  · rw [if_neg front]
    by_cases inside : 0 ≤ elements.length + position
    · rw [if_pos inside, Option.bind_some, List.getElem?_eq_none_iff]
      omega
    · rw [if_neg inside, Option.bind_none]
      simp only [true_iff]
      omega

/-! ### Bounds and slices -/

/-- A signed bound moved into the closed range from `low` to `high`; a negative bound
counts from the end of the sequence. -/
def clamp (length : Nat) (low high bound : Int) : Int :=
  let counted := if bound < 0 then bound + length else bound
  max low (min high counted)

/-- The elements in front of a signed bound. -/
def upTo {Element : Type} (elements : List Element) (bound : Int) : List Element :=
  elements.take (clamp elements.length 0 elements.length bound).toNat

/-- Two bounds and a stride; an absent bound is the end of the sequence that the stride
leaves from or runs to, and an absent stride is one. -/
structure Slice where
  start : Option Int
  stop : Option Int
  stride : Option Int

/-- The places a slice visits in a sequence of the given length; there are none to name
when the stride is zero. -/
def Slice.places (slice : Slice) (length : Nat) : Option (List Nat) :=
  let stride := slice.stride.getD 1
  if 0 < stride then
    let start := (slice.start.map (clamp length 0 length)).getD 0
    let stop := (slice.stop.map (clamp length 0 length)).getD length
    let count := (stop - start + stride - 1).toNat / stride.toNat
    some ((List.range count).map fun (turn : Nat) => (start + stride * turn).toNat)
  else if stride < 0 then
    let start := (slice.start.map (clamp length (-1) (length - 1))).getD (length - 1)
    let stop := (slice.stop.map (clamp length (-1) (length - 1))).getD (-1)
    let count := (start - stop - stride - 1).toNat / (-stride).toNat
    some ((List.range count).map fun (turn : Nat) => (start + stride * turn).toNat)
  else none

/-- The elements a slice visits, in the order of the visit. -/
def Slice.cut? {Element : Type} (slice : Slice) (elements : List Element) :
    Option (List Element) :=
  (slice.places elements.length).map fun places => places.filterMap fun place => elements[place]?

@[simp] theorem upTo_length {Element : Type} (elements : List Element) :
    upTo elements elements.length = elements := by
  have bound : clamp elements.length 0 elements.length elements.length = elements.length := by
    simp only [clamp]
    split <;> omega
  unfold upTo
  rw [bound, Int.toNat_natCast, List.take_length]

/-- A slice fails only by a stride of zero. -/
theorem Slice.cut?_eq_none_iff {Element : Type} (slice : Slice) (elements : List Element) :
    slice.cut? elements = none ↔ slice.stride = some 0 := by
  unfold Slice.cut? Slice.places
  rw [Option.map_eq_none_iff]
  rcases strideEq : slice.stride with _ | stride
  · simp
  · simp only [Option.getD_some, Option.some.injEq]
    constructor
    · intro nothing
      split at nothing
      · cases nothing
      · split at nothing
        · cases nothing
        · omega
    · rintro rfl
      simp

end ShiftReduce.Position
