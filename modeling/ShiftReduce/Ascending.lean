/-
This file builds strictly ascending lists, the written form of finite sets of ordered
things. Insertion keeps the list ascending and leaves a present member alone.
-/

namespace ShiftReduce.Ascending

variable {Element : Type} [LT Element]

theorem lt_of_not_lt [Std.Trichotomous (· < · : Element → Element → Prop)]
    {first second : Element} (notBelow : ¬ first < second) (different : first ≠ second) :
    second < first :=
  Classical.byContradiction fun notAbove =>
    different (Std.Trichotomous.trichotomous (r := (· < ·)) _ _ notBelow notAbove)

/-! ### Insertion -/

variable [DecidableLT Element] [DecidableEq Element]

/-- Puts an element at its place, unless it is there. -/
def place (element : Element) : List Element → List Element
  | [] => [element]
  | first :: rest =>
      if element < first then element :: first :: rest
      else if element = first then first :: rest
      else first :: place element rest

/-- The elements of a list in ascending order, each of them once. -/
def ofList (elements : List Element) : List Element :=
  elements.foldr place []

@[simp] theorem mem_place {element other : Element} {list : List Element} :
    other ∈ place element list ↔ other = element ∨ other ∈ list := by
  induction list with
  | nil => simp [place]
  | cons first rest inductionHypothesis =>
    unfold place
    split
    · simp
    · split
      · rename_i same
        simp [same]
      · simp only [List.mem_cons, inductionHypothesis]
        exact or_left_comm

theorem mem_foldr_place {other : Element} {elements start : List Element} :
    other ∈ elements.foldr place start ↔ other ∈ elements ∨ other ∈ start := by
  induction elements with
  | nil => simp
  | cons first rest inductionHypothesis =>
    simp [inductionHypothesis, or_assoc]

@[simp] theorem mem_ofList {other : Element} {elements : List Element} :
    other ∈ ofList elements ↔ other ∈ elements :=
  mem_foldr_place.trans (or_iff_left List.not_mem_nil)

theorem place_ascending [Trans (· < · : Element → Element → Prop) (· < ·) (· < ·)]
    [Std.Trichotomous (· < · : Element → Element → Prop)] {element : Element}
    {list : List Element} (ascending : list.Pairwise (· < ·)) :
    (place element list).Pairwise (· < ·) := by
  induction list with
  | nil => simp [place]
  | cons first rest inductionHypothesis =>
    obtain ⟨below, ascendingRest⟩ := List.pairwise_cons.mp ascending
    unfold place
    split
    · rename_i smaller
      refine List.pairwise_cons.mpr ⟨fun other member => ?_, ascending⟩
      rcases List.mem_cons.mp member with rfl | inRest
      · exact smaller
      · exact Trans.trans smaller (below other inRest)
    · split
      · exact ascending
      · rename_i notSmaller different
        refine List.pairwise_cons.mpr ⟨fun other member => ?_, inductionHypothesis ascendingRest⟩
        rcases mem_place.mp member with rfl | inRest
        · exact lt_of_not_lt notSmaller different
        · exact below other inRest

theorem foldr_place_ascending [Trans (· < · : Element → Element → Prop) (· < ·) (· < ·)]
    [Std.Trichotomous (· < · : Element → Element → Prop)] {elements start : List Element}
    (ascending : start.Pairwise (· < ·)) : (elements.foldr place start).Pairwise (· < ·) := by
  induction elements with
  | nil => exact ascending
  | cons first rest inductionHypothesis => exact place_ascending inductionHypothesis

theorem ofList_ascending [Trans (· < · : Element → Element → Prop) (· < ·) (· < ·)]
    [Std.Trichotomous (· < · : Element → Element → Prop)] (elements : List Element) :
    (ofList elements).Pairwise (· < ·) :=
  foldr_place_ascending List.Pairwise.nil

end ShiftReduce.Ascending
