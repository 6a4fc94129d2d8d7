/-
This file cuts text at blanks and into lines. The class of blanks is the Unicode white space
together with the four information separators `U+001C` to `U+001F`; the zero-width characters
`U+180E`, `U+200B`, `U+2060` and `U+FEFF` are outside it. The words of a text are its maximal runs
of characters that are not blank. Ten characters end a line, and a carriage return followed by a
line feed ends it once. A break at the very end of the text opens no further line, so the empty text
has no lines at all.
-/

namespace ShiftReduce.Text

/-! ### Blanks -/

/-- Blank characters separate words and are removed from both ends of a line. -/
def isBlank (character : Char) : Bool :=
  let code := character.toNat
  (0x09 ≤ code && code ≤ 0x0D) || (0x1C ≤ code && code ≤ 0x20) || code == 0x85 ||
    code == 0xA0 || code == 0x1680 || (0x2000 ≤ code && code ≤ 0x200A) || code == 0x2028 ||
    code == 0x2029 || code == 0x202F || code == 0x205F || code == 0x3000

/-- The white space of the core library is blank. -/
theorem isBlank_of_isWhitespace (character : Char) (space : character.isWhitespace = true) :
    isBlank character = true := by
  simp only [Char.isWhitespace, Bool.or_eq_true, decide_eq_true_eq] at space
  rcases space with ((rfl | rfl) | rfl) | rfl <;> decide

/-! ### Cutting at blanks -/

/-- A text without the blanks at its two ends. -/
def trim (text : List Char) : List Char :=
  ((text.dropWhile isBlank).reverse.dropWhile isBlank).reverse

/-- The maximal runs of characters that are not blank, left to right. -/
def runs (text : List Char) : List (List Char) :=
  (text.splitOnP isBlank).filter fun run => !run.isEmpty

/-- The words of a text, left to right. -/
def words (text : String) : List String :=
  (runs text.toList).map String.ofList

@[simp] theorem runs_nil : runs [] = [] := rfl

theorem ne_nil_of_mem_runs {text run : List Char} (member : run ∈ runs text) : run ≠ [] := by
  have kept := (List.mem_filter.mp member).2
  intro empty
  simp [empty] at kept

/-! ### Cutting into lines -/

/-- Line breaks are the vertical controls, three of the four information separators, the
next-line control and the two Unicode separators of lines and paragraphs. -/
def isLineBreak (character : Char) : Bool :=
  let code := character.toNat
  (0x0A ≤ code && code ≤ 0x0D) || (0x1C ≤ code && code ≤ 0x1E) || code == 0x85 ||
    code == 0x2028 || code == 0x2029

/-- Puts a character in front of the first line. -/
def prepend (character : Char) : List (List Char) → List (List Char)
  | [] => [[character]]
  | line :: rest => (character :: line) :: rest

/-- The lines of a text, without their breaks. -/
def splitLines : List Char → List (List Char)
  | [] => []
  | '\r' :: '\n' :: rest => [] :: splitLines rest
  | character :: rest =>
      if isLineBreak character then [] :: splitLines rest
      else prepend character (splitLines rest)

/-- The lines of a text, as strings. -/
def lines (text : String) : List String :=
  (splitLines text.toList).map String.ofList

@[simp] theorem splitLines_nil : splitLines [] = [] := rfl

/-- A text without breaks is one line, unless it is empty. -/
theorem splitLines_of_unbroken (text : List Char) (nonempty : text ≠ [])
    (unbroken : ∀ character ∈ text, isLineBreak character = false) : splitLines text = [text] := by
  induction text with
  | nil => exact absurd rfl nonempty
  | cons character rest inductionHypothesis =>
    have first := unbroken character List.mem_cons_self
    rw [splitLines]
    · rw [if_neg (by simp [first])]
      cases rest with
      | nil => rfl
      | cons next others =>
        rw [inductionHypothesis (by simp)
          fun other member => unbroken other (List.mem_cons_of_mem _ member)]
        rfl
    · intro others carriage
      subst carriage
      exact absurd first (by decide)

end ShiftReduce.Text
