/-
This file proves what is left when text is cut at blanks and at line breaks. Words with single
blanks between them are cut into the same words, and lines without breaks into the same lines;
and whatever the text is, what is cut out of it is a part of it that holds none of the characters
it was cut at.
-/

import Mathlib.Data.List.TakeWhile
import ShiftReduce.Proofs.Lists
import ShiftReduce.Text.Cutting

namespace ShiftReduce.Text

/-- A word has characters, and none of them is blank. -/
structure IsWord (text : List Char) : Prop where
  nonempty : text ≠ []
  solid : ∀ character ∈ text, isBlank character = false

instance (text : List Char) : Decidable (IsWord text) :=
  letI := List.decidableBAll (fun character => isBlank character = false) text
  decidable_of_iff (text ≠ [] ∧ ∀ character ∈ text, isBlank character = false)
    ⟨fun known => ⟨known.1, known.2⟩, fun isWord => ⟨isWord.nonempty, isWord.solid⟩⟩

/-! ### Runs -/

section Runs

variable {text word : List Char} {character : Char}

theorem isWord_of_mem_runs (member : word ∈ runs text) : IsWord word ∧ word <:+: text := by
  obtain ⟨first, later, same, _, each⟩ := splitOnP_pieces isBlank text
  have piece := (List.mem_filter.mp member).1
  rw [same] at piece
  exact ⟨⟨ne_nil_of_mem_runs member, (each word piece).2⟩, (each word piece).1⟩

/-- No run goes across a blank. -/
theorem runs_append (blank : isBlank character = true) (text rest : List Char) :
    runs (text ++ character :: rest) = runs text ++ runs rest := by
  rw [runs, List.splitOnP_append_cons text rest blank, List.filter_append]
  rfl

theorem runs_blank (blank : isBlank character = true) (text : List Char) :
    runs (character :: text) = runs text :=
  runs_append blank [] text

theorem runs_of_blanks {blanks : List Char}
    (blank : ∀ character ∈ blanks, isBlank character = true) : runs blanks = [] := by
  induction blanks with
  | nil => rfl
  | cons first rest inductionHypothesis =>
    rw [runs_blank (blank first List.mem_cons_self),
      inductionHypothesis fun other member => blank other (List.mem_cons_of_mem _ member)]

/-- Blanks behind a text add no runs. -/
theorem runs_append_blanks {blanks : List Char}
    (blank : ∀ character ∈ blanks, isBlank character = true) (text : List Char) :
    runs (text ++ blanks) = runs text := by
  cases blanks with
  | nil => rw [List.append_nil]
  | cons first rest =>
    rw [runs_append (blank first List.mem_cons_self),
      runs_of_blanks fun other member => blank other (List.mem_cons_of_mem _ member),
      List.append_nil]

theorem runs_word (isWord : IsWord word) : runs word = [word] := by
  rw [runs, List.splitOnP_eq_singleton isWord.solid, List.filter_cons_of_pos]
  · rfl
  · simpa using isWord.nonempty

theorem runs_word_append (isWord : IsWord word) (blank : isBlank character = true)
    (text : List Char) : runs (word ++ character :: text) = word :: runs text := by
  rw [runs_append blank, runs_word isWord, List.singleton_append]

/-- The first run of a text that does not start with a blank starts with the same character. -/
theorem runs_solid (solid : isBlank character = false) (text : List Char) :
    ∃ rest later, runs (character :: text) = (character :: rest) :: later := by
  obtain ⟨first, later, same, _, _⟩ := splitOnP_pieces isBlank text
  refine ⟨first, later.filter fun run => !run.isEmpty, ?_⟩
  rw [runs, List.splitOnP_cons_eq_if_modifyHead, same,
    if_neg (by rw [solid]; exact Bool.false_ne_true)]
  rfl

/-- Words with single blanks between them. -/
theorem runs_intercalate {words : List (List Char)} (each : ∀ word ∈ words, IsWord word) :
    runs ([' '].intercalate words) = words := by
  induction words with
  | nil => rfl
  | cons word rest inductionHypothesis =>
    have isWord := each word List.mem_cons_self
    cases rest with
    | nil => rw [List.intercalate_singleton, runs_word isWord]
    | cons next others =>
      rw [List.intercalate_cons_cons, List.append_assoc, List.singleton_append,
        runs_word_append isWord rfl,
        inductionHypothesis fun other member => each other (List.mem_cons_of_mem _ member)]

/-- Words with single blanks between them end in the last character of a word. -/
theorem getLast?_intercalate {words : List (List Char)} (each : ∀ word ∈ words, IsWord word)
    (last : ([' '].intercalate words).getLast? = some character) : isBlank character = false := by
  induction words with
  | nil => cases last
  | cons word rest inductionHypothesis =>
    cases rest with
    | nil =>
      rw [List.intercalate_singleton] at last
      exact (each word List.mem_cons_self).solid character (List.mem_of_getLast? last)
    | cons next others =>
      have later : ∀ other ∈ next :: others, IsWord other :=
        fun other member => each other (List.mem_cons_of_mem _ member)
      have nonempty : [' '].intercalate (next :: others) ≠ [] := by
        intro nothing
        have words := runs_intercalate later
        rw [nothing, runs_nil] at words
        cases words
      rw [List.intercalate_cons_cons, List.getLast?_append,
        List.getLast?_eq_some_getLast nonempty, Option.some_or,
        ← List.getLast?_eq_some_getLast nonempty] at last
      exact inductionHypothesis later last

end Runs

/-! ### Outer blanks -/

/-- A text is what trimming leaves of it between blanks. -/
theorem exists_trim (text : List Char) :
    ∃ front back, text = front ++ (trim text ++ back) ∧
      (∀ character ∈ front, isBlank character = true) ∧
      ∀ character ∈ back, isBlank character = true := by
  refine ⟨text.takeWhile isBlank, ((text.dropWhile isBlank).reverse.takeWhile isBlank).reverse, ?_,
    List.all_eq_true.mp List.all_takeWhile,
    fun _ inside => List.all_eq_true.mp List.all_takeWhile _ (List.mem_reverse.mp inside)⟩
  rw [trim, ← List.reverse_append, List.takeWhile_append_dropWhile, List.reverse_reverse,
    List.takeWhile_append_dropWhile]

theorem mem_of_mem_trim {text : List Char} {character : Char} (inside : character ∈ trim text) :
    character ∈ text := by
  obtain ⟨front, back, split, _⟩ := exists_trim text
  rw [split]
  exact List.mem_append_right front (List.mem_append_left back inside)

/-- A text that is not blank at its ends is what trimming leaves of it between blanks. -/
theorem trim_append {front text back : List Char}
    (frontBlank : ∀ character ∈ front, isBlank character = true)
    (backBlank : ∀ character ∈ back, isBlank character = true)
    (first : ∀ character ∈ text.head?, isBlank character = false)
    (last : ∀ character ∈ text.getLast?, isBlank character = false) :
    trim (front ++ (text ++ back)) = text := by
  rw [trim, List.dropWhile_append_of_pos frontBlank]
  cases text with
  | nil =>
    rw [List.nil_append, List.dropWhile_eq_nil_iff.mpr backBlank]
    rfl
  | cons character rest =>
    have blanks : ∀ other ∈ back.reverse, isBlank other = true :=
      fun other inside => backBlank other (List.mem_reverse.mp inside)
    have starts : (character :: rest ++ back).dropWhile isBlank = character :: rest ++ back :=
      List.dropWhile_eq_self_iff.mpr fun _ => ne_true_of_eq_false (first character rfl)
    have ends : (character :: rest).reverse.dropWhile isBlank = (character :: rest).reverse := by
      refine List.dropWhile_eq_self_iff.mpr fun inside => ne_true_of_eq_false (last _ ?_)
      rw [← List.head?_reverse, List.head?_eq_getElem?, List.getElem?_eq_getElem inside]
      rfl
    rw [starts, List.reverse_append, List.dropWhile_append_of_pos blanks, ends,
      List.reverse_reverse]

/-- A text without blanks at its ends is trimmed already. -/
theorem trim_of_ends {text : List Char} (front : ∀ first ∈ text.head?, isBlank first = false)
    (back : ∀ last ∈ text.getLast?, isBlank last = false) : trim text = text := by
  have none : ∀ character ∈ ([] : List Char), isBlank character = true :=
    fun _ absent => absurd absent List.not_mem_nil
  have same := trim_append none none front back
  rwa [List.nil_append, List.append_nil] at same

/-- A trimmed text does not start with a blank. -/
theorem head?_trim {text : List Char} {character : Char}
    (first : (trim text).head? = some character) : isBlank character = false := by
  obtain ⟨rest, ends⟩ : trim text <+: text.dropWhile isBlank := by
    rw [trim, ← List.reverse_suffix, List.reverse_reverse]
    exact List.dropWhile_suffix _
  have start := List.head?_dropWhile_not isBlank text
  rw [← ends, List.head?_append, first] at start
  exact start

/-- A trimmed text does not end with a blank. -/
theorem getLast?_trim {text : List Char} {character : Char}
    (last : (trim text).getLast? = some character) : isBlank character = false := by
  rw [trim, List.getLast?_reverse] at last
  have start := List.head?_dropWhile_not isBlank (text.dropWhile isBlank).reverse
  rw [last] at start
  exact start

/-- Of two texts with a space between them, trimming keeps what lies between their blank ends. -/
theorem trim_append_space {first second : List Char} (nonempty : trim first ≠ [])
    (more : trim second ≠ []) :
    ∃ gap, (∀ character ∈ gap, isBlank character = true) ∧
      trim (first ++ ' ' :: trim second) = trim first ++ (gap ++ trim second) := by
  obtain ⟨front, back, split, frontBlank, backBlank⟩ := exists_trim first
  refine ⟨back ++ [' '], List.forall_mem_append.mpr
    ⟨backBlank, List.forall_mem_singleton.mpr rfl⟩, ?_⟩
  have same : first ++ ' ' :: trim second =
      front ++ ((trim first ++ (back ++ [' '] ++ trim second)) ++ []) := by
    conv => lhs; rw [split]
    simp only [List.append_assoc, List.singleton_append, List.append_nil]
  rw [same]
  refine trim_append frontBlank (fun _ none => absurd none List.not_mem_nil) ?_ ?_
  · intro character first
    rw [List.head?_append_of_ne_nil _ nonempty] at first
    exact head?_trim first
  · intro character last
    rw [← List.append_assoc, List.getLast?_append_of_ne_nil _ more] at last
    exact getLast?_trim last

/-! ### Lines -/

theorem isBlank_of_isLineBreak {character : Char} (breaks : isLineBreak character = true) :
    isBlank character = true := by
  simp only [isLineBreak, Bool.or_eq_true, Bool.and_eq_true, decide_eq_true_eq, beq_iff_eq]
    at breaks
  simp only [isBlank, Bool.or_eq_true, Bool.and_eq_true, decide_eq_true_eq, beq_iff_eq]
  omega

theorem isLineBreak_of_solid {character : Char} (solid : isBlank character = false) :
    isLineBreak character = false := by
  rw [← Bool.not_eq_true]
  intro breaks
  rw [isBlank_of_isLineBreak breaks] at solid
  cases solid

/-- The text begins with a break and goes on behind it. A carriage return is not a break of its
own in front of a line feed. -/
inductive Breaks : List Char → List Char → Prop
  | pair (rest : List Char) : Breaks ['\r', '\n'] rest
  | single {character : Char} {rest : List Char} (breaks : isLineBreak character = true)
      (whole : character = '\r' → rest.head? ≠ some '\n') : Breaks [character] rest

theorem splitLines_solid {character : Char} (solid : isLineBreak character = false)
    (rest : List Char) :
    splitLines (character :: rest) = prepend character (splitLines rest) := by
  rw [splitLines, if_neg (by rw [solid]; exact Bool.false_ne_true)]
  rintro later rfl
  exact absurd solid (by decide)

theorem Breaks.splitLines_append {ending rest : List Char} (breaks : Breaks ending rest) :
    splitLines (ending ++ rest) = [] :: splitLines rest := by
  cases breaks with
  | pair => rfl
  | single breaks whole =>
    rw [List.singleton_append, splitLines, if_pos breaks]
    rintro later rfl rfl
    exact whole rfl rfl

/-- What is unbroken in front of a text belongs to its first line. -/
theorem splitLines_unbroken_append {line text first : List Char} {lines : List (List Char)}
    (unbroken : ∀ character ∈ line, isLineBreak character = false)
    (cut : splitLines text = first :: lines) :
    splitLines (line ++ text) = (line ++ first) :: lines := by
  induction line with
  | nil => exact cut
  | cons character others inductionHypothesis =>
    obtain ⟨solid, later⟩ := List.forall_mem_cons.mp unbroken
    rw [List.cons_append, splitLines_solid solid, inductionHypothesis later]
    rfl

/-- A line that is ended by a break, and the lines behind it. -/
theorem splitLines_of_breaks {line ending rest : List Char}
    (unbroken : ∀ character ∈ line, isLineBreak character = false)
    (breaks : Breaks ending rest) :
    splitLines (line ++ (ending ++ rest)) = line :: splitLines rest := by
  rw [splitLines_unbroken_append unbroken breaks.splitLines_append, List.append_nil]

/-- A line that is ended by a line feed, and the lines behind it. -/
theorem splitLines_append {line : List Char}
    (unbroken : ∀ character ∈ line, isLineBreak character = false) (rest : List Char) :
    splitLines (line ++ '\n' :: rest) = line :: splitLines rest :=
  splitLines_of_breaks unbroken (.single rfl fun same => absurd same (by decide))

/-- Lines with line feeds between them. -/
theorem splitLines_intercalate {lines : List (List Char)}
    (each : ∀ line ∈ lines, line ≠ [] ∧ ∀ character ∈ line, isLineBreak character = false) :
    splitLines (['\n'].intercalate lines) = lines := by
  induction lines with
  | nil => rfl
  | cons line rest inductionHypothesis =>
    obtain ⟨nonempty, unbroken⟩ := each line List.mem_cons_self
    cases rest with
    | nil => rw [List.intercalate_singleton, splitLines_of_unbroken line nonempty unbroken]
    | cons next others =>
      rw [List.intercalate_cons_cons, List.append_assoc, List.singleton_append,
        splitLines_append unbroken,
        inductionHypothesis fun other member => each other (List.mem_cons_of_mem _ member)]

end ShiftReduce.Text
