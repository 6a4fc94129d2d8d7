/-
This file proves how the lines of a text lie in it. A text that is not empty is its first line, or
that line with a break behind it and the text of the other lines; so the lines in front of any one
of them can be cut off. Two texts with a line feed between them have the lines of both and at most
one empty line more: the line feed may complete a break that a carriage return has begun.
-/

import ShiftReduce.Proofs.Words

namespace ShiftReduce.Text

section Lines

variable {text line ending rest : List Char} {lines before after : List (List Char)}

/-! ### The first line -/

theorem prepend_ne_nil (character : Char) (lines : List (List Char)) :
    prepend character lines ≠ [] := by
  cases lines <;> exact List.cons_ne_nil _ _

@[simp] theorem splitLines_eq_nil_iff : splitLines text = [] ↔ text = [] := by
  refine ⟨fun none => ?_, fun empty => empty ▸ rfl⟩
  cases text using splitLines.induct with
  | case1 => rfl
  | case2 rest _ => cases none
  | case3 character rest whole breaks _ =>
    rw [splitLines.eq_3 character rest whole, if_pos breaks] at none
    cases none
  | case4 character rest whole solid _ =>
    rw [splitLines_solid (Bool.eq_false_iff.mpr solid)] at none
    exact absurd none (prepend_ne_nil character _)

/-- A first line is unbroken. It is the whole text, or stands in front of a break. -/
theorem exists_first_line (cut : splitLines text = line :: lines) :
    (∀ character ∈ line, isLineBreak character = false) ∧
      (text = line ∧ line ≠ [] ∧ lines = [] ∨
        ∃ ending rest, text = line ++ (ending ++ rest) ∧ Breaks ending rest ∧
          splitLines rest = lines) := by
  induction text using splitLines.induct generalizing line with
  | case1 => cases cut
  | case2 rest _ =>
    obtain ⟨rfl, same⟩ := List.cons.inj cut
    exact ⟨fun _ none => absurd none List.not_mem_nil, .inr ⟨_, rest, rfl, .pair rest, same⟩⟩
  | case3 character rest whole breaks _ =>
    rw [splitLines.eq_3 character rest whole, if_pos breaks] at cut
    obtain ⟨rfl, same⟩ := List.cons.inj cut
    refine ⟨fun _ none => absurd none List.not_mem_nil,
      .inr ⟨[character], rest, rfl, .single breaks fun carriage feed => ?_, same⟩⟩
    obtain ⟨later, rfl⟩ := List.head?_eq_some_iff.mp feed
    exact whole later carriage rfl
  | case4 character rest whole broken inductionHypothesis =>
    have solid := Bool.eq_false_iff.mpr broken
    rw [splitLines_solid solid] at cut
    cases others : splitLines rest with
    | nil =>
      rw [others] at cut
      obtain ⟨rfl, same⟩ := List.cons.inj cut
      rw [splitLines_eq_nil_iff.mp others]
      exact ⟨List.forall_mem_singleton.mpr solid,
        .inl ⟨rfl, List.cons_ne_nil _ _, same.symm⟩⟩
    | cons first later =>
      rw [others] at cut
      obtain ⟨rfl, rfl⟩ := List.cons.inj cut
      obtain ⟨unbroken, place⟩ := inductionHypothesis others
      refine ⟨List.forall_mem_cons.mpr ⟨solid, unbroken⟩, ?_⟩
      rcases place with ⟨rfl, _, none⟩ | ⟨ending, rest, rfl, breaks, same⟩
      · exact .inl ⟨rfl, List.cons_ne_nil _ _, none⟩
      · exact .inr ⟨ending, rest, rfl, breaks, same⟩

/-! ### A line feed between two texts -/

/-- A break is still one in a longer text, unless the text ends with it. -/
theorem Breaks.append {more : List Char} (breaks : Breaks ending rest) (nonempty : rest ≠ []) :
    Breaks ending (rest ++ more) := by
  obtain ⟨first, others, rfl⟩ := List.exists_cons_of_ne_nil nonempty
  cases breaks with
  | pair => exact .pair _
  | single breaks whole => exact .single breaks whole

/-- A line feed behind a break opens an empty line, unless it completes the break. -/
theorem Breaks.exists_gap (breaks : Breaks ending []) (second : List Char) :
    ∃ gap, splitLines (ending ++ '\n' :: second) = [] :: (gap ++ splitLines second) ∧
      ∀ line ∈ gap, line = [] := by
  have empty : ∀ line ∈ [([] : List Char)], line = [] := List.forall_mem_singleton.mpr rfl
  cases breaks with
  | pair => exact ⟨[[]], rfl, empty⟩
  | @single character _ breaks =>
    by_cases carriage : character = '\r'
    · subst carriage
      exact ⟨[], rfl, fun _ none => absurd none List.not_mem_nil⟩
    · exact ⟨[[]], (Breaks.single breaks fun same => absurd same carriage).splitLines_append, empty⟩

/-- Texts with a line feed between them have the lines of both, and maybe an empty one between
them. Only behind the last line of the first text can the line feed complete a break. -/
theorem splitLines_append_newline (first second : List Char) :
    ∃ gap, splitLines (first ++ '\n' :: second) = splitLines first ++ (gap ++ splitLines second) ∧
      ∀ line ∈ gap, line = [] := by
  induction cut : splitLines first generalizing first with
  | nil =>
    rw [splitLines_eq_nil_iff.mp cut]
    exact ⟨[[]], rfl, List.forall_mem_singleton.mpr rfl⟩
  | cons line lines inductionHypothesis =>
    obtain ⟨unbroken, ⟨rfl, _, rfl⟩ | ⟨ending, rest, rfl, breaks, same⟩⟩ := exists_first_line cut
    · exact ⟨[], splitLines_append unbroken second, fun _ none => absurd none List.not_mem_nil⟩
    · rw [List.append_assoc, List.append_assoc]
      by_cases last : rest = []
      · subst last
        obtain ⟨gap, joined, gapEmpty⟩ := breaks.exists_gap second
        refine ⟨gap, ?_, gapEmpty⟩
        rw [List.nil_append, splitLines_unbroken_append unbroken joined, List.append_nil, ← same]
        rfl
      · obtain ⟨gap, joined, gapEmpty⟩ := inductionHypothesis rest same
        refine ⟨gap, ?_, gapEmpty⟩
        rw [splitLines_of_breaks unbroken (breaks.append last), joined]
        rfl

/-! ### The lines in front of a line -/

/-- The lines in front of a line can be cut off with their breaks, and they stay the same in front
of any text that does not begin with a line feed. -/
theorem exists_front (cut : splitLines text = before ++ line :: after) :
    ∃ front rest, text = front ++ rest ∧ splitLines rest = line :: after ∧
      ∀ other : List Char, other.head? ≠ some '\n' →
        splitLines (front ++ other) = before ++ splitLines other := by
  induction before generalizing text with
  | nil => exact ⟨[], text, rfl, cut, fun _ _ => rfl⟩
  | cons first others inductionHypothesis =>
    obtain ⟨unbroken, ⟨_, _, single⟩ | ⟨ending, rest, rfl, breaks, same⟩⟩ := exists_first_line cut
    · exact absurd (List.append_eq_nil_iff.mp single).2 (List.cons_ne_nil _ _)
    · obtain ⟨front, tail, rfl, tailCut, each⟩ := inductionHypothesis same
      refine ⟨first ++ (ending ++ front), tail, by simp only [List.append_assoc], tailCut,
        fun other solid => ?_⟩
      have still : Breaks ending (front ++ other) := by
        cases breaks with
        | pair => exact .pair _
        | single breaks whole =>
          refine .single breaks fun carriage => ?_
          have known := whole carriage
          cases front with
          | nil => exact solid
          | cons => exact known
      rw [List.append_assoc, List.append_assoc, splitLines_of_breaks unbroken still,
        each other solid]
      rfl

theorem unbroken_of_mem_splitLines (member : line ∈ splitLines text) :
    ∀ character ∈ line, isLineBreak character = false := by
  obtain ⟨before, after, cut⟩ := List.append_of_mem member
  obtain ⟨front, rest, _, restCut, _⟩ := exists_front cut
  exact (exists_first_line restCut).1

/-- Where two lines follow each other, one line may stand in their place and in that of the break
between them. -/
theorem exists_two_lines {next : List Char}
    (cut : splitLines text = before ++ line :: next :: after) :
    ∃ front ending back, text = front ++ (line ++ (ending ++ (next ++ back))) ∧
      Breaks ending (next ++ back) ∧
      ∀ merged : List Char, merged ≠ [] →
        (∀ character ∈ merged, isLineBreak character = false) →
        splitLines (front ++ (merged ++ back)) = before ++ merged :: after := by
  obtain ⟨front, rest, rfl, restCut, each⟩ := exists_front cut
  obtain ⟨_, ⟨_, _, single⟩ | ⟨ending, tail, rfl, breaks, same⟩⟩ := exists_first_line restCut
  · cases single
  · have placed {back : List Char} {merged : List Char} (nonempty : merged ≠ [])
        (unbroken : ∀ character ∈ merged, isLineBreak character = false)
        (lines : splitLines (merged ++ back) = merged :: after) :
        splitLines (front ++ (merged ++ back)) = before ++ merged :: after := by
      rw [each _ ?_, lines]
      obtain ⟨first, others, rfl⟩ := List.exists_cons_of_ne_nil nonempty
      intro feed
      have solid := unbroken first List.mem_cons_self
      rw [Option.some_inj.mp feed] at solid
      exact absurd solid (by decide)
    obtain ⟨_, ⟨rfl, _, rfl⟩ | ⟨nextEnding, back, rfl, nextBreaks, nextSame⟩⟩ :=
      exists_first_line same
    · refine ⟨front, ending, [], by rw [List.append_nil], by rwa [List.append_nil],
        fun merged nonempty unbroken => placed nonempty unbroken ?_⟩
      rw [List.append_nil, splitLines_of_unbroken merged nonempty unbroken]
    · refine ⟨front, ending, nextEnding ++ back, rfl, breaks,
        fun merged nonempty unbroken => placed nonempty unbroken ?_⟩
      rw [splitLines_of_breaks unbroken nextBreaks, nextSame]

end Lines

end ShiftReduce.Text
