/-
This file describes how an arena is filled: by calls that add a leaf or an inner node. A call whose
children do not come before the new node is refused, and the arena is as it was.
-/

import ShiftReduce.Forest.Arena

namespace ShiftReduce

/-- A request for a new node. -/
inductive Call
  | leaf (label : Symbol) (value : Option Symbol)
  | internal (label : Symbol) (children : List Int) (value : Option Symbol)

/-- The ids that a call gives for children. -/
def Call.children : Call → List Int
  | leaf _ _ => []
  | internal _ children _ => children

namespace Arena

/-- The arena after a call. -/
def call (arena : Arena) : Call → Arena
  | .leaf label value => arena.leaf label value
  | .internal label children value =>
      match arena.internal label children value with
      | .ok next => next
      | .error _ => arena

/-- The arena after calls one after another. -/
def after (arena : Arena) (calls : List Call) : Arena :=
  calls.foldl call arena

/-- One arena becomes another by calls whose children are all counted from the front. -/
def GrowsTo (arena other : Arena) : Prop :=
  ∃ calls : List Call, (∀ call ∈ calls, ∀ child ∈ call.children, 0 ≤ child) ∧
    other = arena.after calls

theorem GrowsTo.refl (arena : Arena) : arena.GrowsTo arena :=
  ⟨[], fun _ member => absurd member List.not_mem_nil, rfl⟩

theorem GrowsTo.trans {first second third : Arena} (one : first.GrowsTo second)
    (other : second.GrowsTo third) : first.GrowsTo third := by
  obtain ⟨calls, forward, rfl⟩ := one
  obtain ⟨more, moreForward, rfl⟩ := other
  exact ⟨calls ++ more, List.forall_mem_append.mpr ⟨forward, moreForward⟩,
    List.foldl_append.symm⟩

/-- A call whose children all come before the new node is not refused. -/
theorem call_internal {arena : Arena} {children : List Int}
    (earlier : ∀ child ∈ children, child < arena.size) (label : Symbol) (value : Option Symbol) :
    arena.call (.internal label children value) = arena.add label value children := by
  rw [call, internal_eq_ok_iff.mpr ⟨earlier, rfl⟩]

/-- A call adds a node with its children, all of which come before it, or changes nothing. -/
theorem call_cases (arena : Arena) (call : Call) :
    arena.call call = arena ∨ ∃ label value, (∀ child ∈ call.children, child < arena.size) ∧
      arena.call call = arena.add label value call.children := by
  cases call with
  | leaf label value =>
    exact .inr ⟨label, value, fun _ member => absurd member List.not_mem_nil, rfl⟩
  | internal label children value =>
    cases outcome : arena.internal label children value with
    | error fault => exact .inl (by rw [Arena.call, outcome])
    | ok next =>
      obtain ⟨earlier, rfl⟩ := internal_eq_ok_iff.mp outcome
      exact .inr ⟨label, value, earlier, call_internal earlier label value⟩

end Arena

end ShiftReduce
