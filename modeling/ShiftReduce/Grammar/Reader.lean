/-
This file reads grammar text. A line that starts with a bar, once its outer blanks are
removed, continues the last rule with more alternatives; a line with a separator starts a
rule; every other line is ignored, and so is a continuation before the first rule. Lines
are numbered from one and looked at in order, and the first malformed line is the one
reported. In a rule line the head is checked before the alternatives.
-/

import ShiftReduce.Grammar.Basic
import ShiftReduce.Text.Cutting

namespace ShiftReduce

namespace Grammar

/-! ### The shape of a line -/

/-- The text on either side of the leftmost separator. There are three separators. -/
def splitRule : List Char → Option (List Char × List Char)
  | [] => none
  | '-' :: '>' :: rest => some ([], rest)
  | '→' :: rest => some ([], rest)
  | ':' :: ':' :: '=' :: rest => some ([], rest)
  | character :: rest =>
      (splitRule rest).map fun (before, after) => (character :: before, after)

/-- What a line of grammar text is. -/
inductive Line
  /-- More alternatives of the last rule. -/
  | continuation (alternatives : List Char)
  /-- A head and its alternatives. -/
  | rule (head alternatives : List Char)
  /-- Neither. -/
  | ignored
  deriving DecidableEq

/-- The shape of a line whose outer blanks are removed. -/
def Line.ofTrimmed : List Char → Line
  | '|' :: alternatives => .continuation alternatives
  | text =>
      match splitRule text with
      | some (head, alternatives) => .rule head alternatives
      | none => .ignored

/-- The shape of a line. -/
def Line.ofText (text : List Char) : Line :=
  Line.ofTrimmed (Text.trim text)

/-! ### The parts of a rule -/

/-- The symbols of a piece of grammar text. -/
def symbolsOf (text : List Char) : List Symbol :=
  (Text.runs text).map String.ofList

/-- The body that an alternative spells: its symbols without the spellings of the empty
word. -/
def bodyOf (alternative : List Char) : List Symbol :=
  (symbolsOf alternative).filter fun symbol => !Symbol.epsilonSpellings.contains symbol

/-- The bodies of alternatives separated by bars. -/
def readAlternatives (line : Nat) (text : List Char) : Except GrammarFault (List (List Symbol)) :=
  let bodies := (text.splitOn '|').map bodyOf
  if bodies.any fun body => body.contains Symbol.endMarker then .error (.endMarkerUsed line)
  else .ok bodies

/-- The one symbol in front of the separator. -/
def readHead (line : Nat) (text : List Char) : Except GrammarFault Symbol :=
  match symbolsOf text with
  | [head] => if Symbol.isReserved head then .error (.reservedRule line head) else .ok head
  | heads => .error (.headCount line heads)

/-! ### All lines -/

/-- The heads and bodies that the lines spell, where the first line has the given number
and continues the rule of the given head. -/
def readLines (number : Nat) (current : Option Symbol) :
    List (List Char) → Except GrammarFault (List (Symbol × List Symbol))
  | [] => .ok []
  | line :: rest =>
      match Line.ofText line, current with
      | .continuation alternatives, some head => do
          let bodies ← readAlternatives number alternatives
          let later ← readLines (number + 1) (some head) rest
          return bodies.map (fun body => (head, body)) ++ later
      | .rule headText alternatives, _ => do
          let head ← readHead number headText
          let bodies ← readAlternatives number alternatives
          let later ← readLines (number + 1) (some head) rest
          return bodies.map (fun body => (head, body)) ++ later
      | _, _ => readLines (number + 1) current rest

/-- Heads and bodies as productions whose ids are their positions. -/
def numbered (rules : List (Symbol × List Symbol)) : List Production :=
  rules.zipIdx.map fun (rule, position) => ⟨position, rule.1, rule.2⟩

/-- The grammar that a text spells; it is not augmented. -/
def read (text : String) : Except GrammarFault Grammar := do
  let rules ← readLines 1 none (Text.splitLines text.toList)
  ofProductions (numbered rules) false

end Grammar

end ShiftReduce
