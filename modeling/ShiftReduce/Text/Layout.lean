/-
This file holds the rules of writing that several printers share: the plural of a counted noun, the
columns of the tables, integers in round brackets, and texts between quotation marks. Widths count
code points. An apostrophe is the usual mark; a text that holds an apostrophe and no double quote is
put between double quotes instead, so that a mark inside has to be escaped as rarely as possible.
Characters without a picture are written by their code in lower-case hexadecimal digits, in the
shortest of three widths.
-/

import ShiftReduce.Text.Printable

namespace ShiftReduce.Text

/-! ### Layout -/

/-- The ending of a noun that follows a count: nothing for one, `s` for every other. -/
def plural (count : Nat) : String :=
  if count = 1 then "" else "s"

/-- A count and its noun. -/
def counted (count : Nat) (noun : String) : String :=
  s!"{count} {noun}{plural count}"

/-- Text moved to the right edge of a column; longer text keeps its length. -/
def alignRight (width : Nat) (text : String) : String :=
  String.ofList (List.replicate (width - text.length) ' ') ++ text

/-- Text moved to the left edge of a column; longer text keeps its length. -/
def alignLeft (width : Nat) (text : String) : String :=
  text ++ String.ofList (List.replicate (width - text.length) ' ')

/-- Texts with a separator between them. -/
def joined (separator : String) (parts : List String) : String :=
  separator.intercalate parts

/-- Integers in round brackets; a single one is followed by a comma. -/
def bracketed : List Int → String
  | [only] => s!"({only},)"
  | members => "(" ++ joined ", " (members.map toString) ++ ")"

/-! ### One quoted character -/

/-- A number in lower-case hexadecimal digits, filled with zeros up to a width. -/
def hexadecimal (width number : Nat) : List Char :=
  let digits := Nat.toDigits 16 number
  List.replicate (width - digits.length) '0' ++ digits

/-- The escape of a character by its code. -/
def escapeCode (character : Char) : List Char :=
  let code := character.toNat
  if code < 0x100 then '\\' :: 'x' :: hexadecimal 2 code
  else if code < 0x10000 then '\\' :: 'u' :: hexadecimal 4 code
  else '\\' :: 'U' :: hexadecimal 8 code

/-- A character as it stands between two marks. -/
def quoteCharacter (mark character : Char) : List Char :=
  if character = mark ∨ character = '\\' then ['\\', character]
  else if character = '\n' then ['\\', 'n']
  else if character = '\r' then ['\\', 'r']
  else if character = '\t' then ['\\', 't']
  else if isPrintable character then [character]
  else escapeCode character

/-! ### Quoted texts -/

/-- The mark a text is quoted with. -/
def quotationMark (text : List Char) : Char :=
  if text.contains '\x27' && !text.contains '\x22' then '\x22' else '\x27'

/-- The quoted form of a list of characters. -/
def quoteCharacters (text : List Char) : List Char :=
  let mark := quotationMark text
  mark :: text.flatMap (quoteCharacter mark) ++ [mark]

/-- The quoted form of a text. -/
def quoted (text : String) : String :=
  String.ofList (quoteCharacters text.toList)

/-- The quoted form of a text that may be absent. -/
def quotedOption : Option String → String
  | none => "None"
  | some text => quoted text

/-- A text of printable characters without marks and backslashes stands as it is. -/
theorem quoteCharacters_of_plain (text : List Char)
    (plain : ∀ character ∈ text, isPrintable character = true ∧ character ≠ '\x27' ∧
      character ≠ '\\') :
    quoteCharacters text = '\x27' :: text ++ ['\x27'] := by
  have mark : quotationMark text = '\x27' := by
    unfold quotationMark
    rw [if_neg]
    intro both
    simp only [Bool.and_eq_true, List.contains_iff_mem] at both
    exact (plain _ both.1).2.1 rfl
  have each : ∀ character ∈ text, quoteCharacter '\x27' character = [character] := by
    intro character member
    obtain ⟨printable, noMark, noBackslash⟩ := plain character member
    have picture (control : Char) (hidden : isPrintable control = false) : character ≠ control := by
      rintro rfl
      rw [printable] at hidden
      cases hidden
    unfold quoteCharacter
    rw [if_neg (by simp [noMark, noBackslash]), if_neg (picture '\n' (by decide)),
      if_neg (picture '\r' (by decide)), if_neg (picture '\t' (by decide)), if_pos printable]
  have body : text.flatMap (quoteCharacter '\x27') = text := by
    clear plain mark
    induction text with
    | nil => rfl
    | cons first rest inductionHypothesis =>
      rw [List.flatMap_cons, each first List.mem_cons_self,
        inductionHypothesis fun other member => each other (List.mem_cons_of_mem _ member)]
      rfl
  simp only [quoteCharacters, mark, body]

end ShiftReduce.Text
