/-
This file names the symbols that a grammar may not use, and introduces productions, the rules of a
grammar, with their written form. The empty word has two spellings in grammar text, and the end
marker stands behind the last token of every input.
-/

import ShiftReduce.Text.Layout

namespace ShiftReduce

/-! ### Symbols -/

/-- Terminals, non-terminals and tokens are texts; which of them a text is depends on the
grammar. -/
abbrev Symbol := String

namespace Symbol

/-- The empty word. -/
def epsilon : Symbol := "ε"

/-- The end of the input. -/
def endMarker : Symbol := "$"

/-- The spellings of an empty body in grammar text. -/
def epsilonSpellings : List Symbol := [epsilon, "epsilon"]

/-- The symbols no production may use. -/
def reserved : List Symbol := endMarker :: epsilonSpellings

/-- Reserved symbols have a meaning of their own. -/
def isReserved (symbol : Symbol) : Bool :=
  reserved.contains symbol

theorem isReserved_iff (symbol : Symbol) : isReserved symbol = true ↔ symbol ∈ reserved :=
  List.contains_iff_mem

theorem epsilon_reserved : epsilon ∈ reserved := by
  simp [reserved, epsilonSpellings]

theorem endMarker_reserved : endMarker ∈ reserved := by
  simp [reserved]

theorem epsilon_ne_endMarker : epsilon ≠ endMarker := by decide

end Symbol

/-! ### Productions -/

/-- A rule that lets a body stand for a head. In a grammar the id of a production is its
position; a production by itself may carry any id. -/
structure Production where
  id : Int
  head : Symbol
  body : List Symbol
  deriving DecidableEq, Inhabited

namespace Production

/-- The body with a space between its symbols; a body without any text is the empty word. -/
def bodyText (production : Production) : String :=
  let written := Text.joined " " production.body
  if written.isEmpty then Symbol.epsilon else written

/-- The written form of a production. -/
def text (production : Production) : String :=
  s!"{production.head} -> {production.bodyText}"

end Production

end ShiftReduce
