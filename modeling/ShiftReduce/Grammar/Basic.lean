/-
This file builds grammars. A grammar is an ordered list of productions that is well formed:
ids are positions, no reserved symbol is used, and a grammar that claims to be augmented has
a production to start from. The list decides everything else: its heads are the
non-terminals, all other body symbols are the terminals, and both keep the order in which
they first occur. Augmenting a grammar puts a fresh start production in front, whose head is a new
symbol and whose body is the old start symbol; the new symbol is the old one with just enough
apostrophes to be unused, and the other productions move up by one id.
-/

import ShiftReduce.Fault
import ShiftReduce.Position

namespace ShiftReduce

namespace Grammar

/-- What makes a list of productions a grammar. -/
structure WellFormed (productions : List Production) (augmented : Bool) : Prop where
  dense : ∀ (place : Nat) (production : Production),
    productions[place]? = some production → production.id = place
  heads : ∀ production ∈ productions, production.head ∉ Symbol.reserved
  bodies : ∀ production ∈ productions, ∀ symbol ∈ production.body, symbol ∉ Symbol.reserved
  started : augmented = true → productions ≠ []

end Grammar

/-- A context-free grammar. -/
structure Grammar where
  productions : List Production
  augmented : Bool
  wellFormed : Grammar.WellFormed productions augmented
  deriving DecidableEq

namespace Grammar

/-! ### Building a grammar -/

/-- The first wrong id or reserved head, where the first production of the list stands at
the given place. -/
def headFault (place : Nat) : List Production → Option GrammarFault
  | [] => none
  | production :: rest =>
      if production.id ≠ place then some (.sparseId production)
      else if Symbol.isReserved production.head then some (.reservedHead production)
      else headFault (place + 1) rest

/-- The first production with a reserved symbol in its body. -/
def bodyFault (productions : List Production) : Option GrammarFault :=
  (productions.find? fun production => production.body.any Symbol.isReserved).map .reservedBody

/-- An augmented grammar without productions. -/
def startFault (productions : List Production) (augmented : Bool) : Option GrammarFault :=
  if augmented && productions.isEmpty then some .augmentedEmpty else none

/-- What keeps a list of productions from being a grammar: all heads are looked at before
any body. -/
def faultOf (productions : List Production) (augmented : Bool) : Option GrammarFault :=
  headFault 0 productions <|> bodyFault productions <|> startFault productions augmented

theorem headFault_eq_none_iff (place : Nat) (productions : List Production) :
    headFault place productions = none ↔
      (∀ (offset : Nat) (production : Production), productions[offset]? = some production →
        production.id = (place + offset : Nat)) ∧
      ∀ production ∈ productions, production.head ∉ Symbol.reserved := by
  induction productions generalizing place with
  | nil => simp [headFault]
  | cons first rest inductionHypothesis =>
    unfold headFault
    by_cases dense : first.id = place
    · rw [if_neg (not_not_intro dense)]
      by_cases reserved : Symbol.isReserved first.head = true
      · rw [if_pos reserved]
        refine iff_of_false (by simp) fun both => ?_
        exact both.2 first List.mem_cons_self ((Symbol.isReserved_iff _).mp reserved)
      · rw [if_neg reserved, inductionHypothesis]
        constructor
        · rintro ⟨ids, heads⟩
          constructor
          · intro offset production found
            cases offset with
            | zero =>
              rw [List.getElem?_cons_zero, Option.some_inj] at found
              rw [← found, dense, Nat.add_zero]
            | succ offset =>
              rw [List.getElem?_cons_succ] at found
              rw [ids offset production found]
              congr 1
              omega
          · intro production member
            rcases List.mem_cons.mp member with rfl | inRest
            · exact fun contained => reserved ((Symbol.isReserved_iff _).mpr contained)
            · exact heads production inRest
        · rintro ⟨ids, heads⟩
          refine ⟨fun offset production found => ?_,
            fun production member => heads production (List.mem_cons_of_mem _ member)⟩
          rw [ids (offset + 1) production (by rw [List.getElem?_cons_succ]; exact found)]
          congr 1
          omega
    · rw [if_pos dense]
      refine iff_of_false (by simp) fun both => dense ?_
      rw [both.1 0 first List.getElem?_cons_zero, Nat.add_zero]

theorem bodyFault_eq_none_iff (productions : List Production) :
    bodyFault productions = none ↔
      ∀ production ∈ productions, ∀ symbol ∈ production.body, symbol ∉ Symbol.reserved := by
  unfold bodyFault
  rw [Option.map_eq_none_iff, List.find?_eq_none]
  simp only [List.any_eq_true, not_exists, not_and, Symbol.isReserved_iff]

theorem startFault_eq_none_iff (productions : List Production) (augmented : Bool) :
    startFault productions augmented = none ↔ (augmented = true → productions ≠ []) := by
  unfold startFault
  cases augmented <;> cases productions <;> simp

/-- No fault is found exactly in well-formed lists. -/
theorem faultOf_eq_none_iff (productions : List Production) (augmented : Bool) :
    faultOf productions augmented = none ↔ WellFormed productions augmented := by
  have parts : faultOf productions augmented = none ↔ headFault 0 productions = none ∧
      bodyFault productions = none ∧ startFault productions augmented = none := by
    unfold faultOf
    cases headFault 0 productions <;> cases bodyFault productions <;> simp
  rw [parts, headFault_eq_none_iff, bodyFault_eq_none_iff, startFault_eq_none_iff]
  constructor
  · rintro ⟨⟨dense, heads⟩, bodies, started⟩
    exact ⟨fun place production found => by rw [dense place production found, Nat.zero_add],
      heads, bodies, started⟩
  · intro sound
    exact ⟨⟨fun place production found => by
      rw [sound.dense place production found, Nat.zero_add], sound.heads⟩, sound.bodies,
      sound.started⟩

/-- The grammar of a list of productions. -/
def ofProductions (productions : List Production) (augmented : Bool) :
    Except GrammarFault Grammar :=
  match found : faultOf productions augmented with
  | some fault => .error fault
  | none => .ok ⟨productions, augmented, (faultOf_eq_none_iff productions augmented).mp found⟩

theorem ofProductions_of_wellFormed {productions : List Production} {augmented : Bool}
    (sound : WellFormed productions augmented) :
    ofProductions productions augmented = .ok ⟨productions, augmented, sound⟩ := by
  unfold ofProductions
  split
  · rename_i fault found
    rw [(faultOf_eq_none_iff productions augmented).mpr sound] at found
    cases found
  · rfl

/-- A grammar that is made has the productions it is made of. -/
theorem ofProductions_eq_ok_iff {productions : List Production} {augmented : Bool}
    {grammar : Grammar} : ofProductions productions augmented = .ok grammar ↔
      grammar.productions = productions ∧ grammar.augmented = augmented := by
  constructor
  · intro made
    unfold ofProductions at made
    split at made
    · cases made
    · rw [← Except.ok.inj made]
      exact ⟨rfl, rfl⟩
  · rintro ⟨rfl, rfl⟩
    exact ofProductions_of_wellFormed grammar.wellFormed

/-! ### Symbols -/

/-- The heads, in the order in which they first occur. -/
def nonTerminals (grammar : Grammar) : List Symbol :=
  (grammar.productions.map Production.head).eraseDups

/-- Non-terminals head a production. -/
def isNonTerminal (grammar : Grammar) (symbol : Symbol) : Bool :=
  grammar.productions.any fun production => production.head == symbol

/-- The body symbols that head no production, in the order in which they first occur. -/
def terminals (grammar : Grammar) : List Symbol :=
  ((grammar.productions.flatMap Production.body).filter fun symbol =>
    !grammar.isNonTerminal symbol).eraseDups

/-- Terminals occur in a body and head no production. -/
def isTerminal (grammar : Grammar) (symbol : Symbol) : Bool :=
  !grammar.isNonTerminal symbol &&
    grammar.productions.any fun production => production.body.contains symbol

/-- The alphabet: terminals, then non-terminals. -/
def symbols (grammar : Grammar) : List Symbol :=
  grammar.terminals ++ grammar.nonTerminals

/-- The head of the first production. -/
def startSymbol (grammar : Grammar) : Option Symbol :=
  grammar.productions.head?.map Production.head

theorem isNonTerminal_iff (grammar : Grammar) (symbol : Symbol) :
    grammar.isNonTerminal symbol = true ↔ symbol ∈ grammar.nonTerminals := by
  simp [isNonTerminal, nonTerminals, List.mem_eraseDups]

theorem isTerminal_iff (grammar : Grammar) (symbol : Symbol) :
    grammar.isTerminal symbol = true ↔ symbol ∈ grammar.terminals := by
  simp [isTerminal, terminals, List.mem_eraseDups, and_comm]

/-! ### Productions -/

/-- The number of productions. -/
def size (grammar : Grammar) : Nat :=
  grammar.productions.length

/-- The production a signed id names. -/
def production (grammar : Grammar) (id : Int) : Except Fault Production :=
  valueOr .outOfRange (Position.pick? grammar.productions id)

/-- The productions of a head, in order. -/
def productionsFor (grammar : Grammar) (head : Symbol) : List Production :=
  grammar.productions.filter fun production => production.head == head

/-- The production that an augmented grammar starts from. -/
def startOf (grammar : Grammar) (augmented : grammar.augmented = true) : Production :=
  grammar.productions.head (grammar.wellFormed.started augmented)

/-- The production that a grammar starts from, if it is augmented. -/
def startProduction (grammar : Grammar) : Except Fault Production :=
  if augmented : grammar.augmented = true then .ok (grammar.startOf augmented)
  else .error .noStartProduction

/-- Each production on a line of its own, behind its id. -/
def text (grammar : Grammar) : String :=
  Text.joined "\n" (grammar.productions.map fun production =>
    s!"{production.id}: {production.text}")

/-! ### The fresh start symbol -/

/-- A symbol with apostrophes until it is not among the taken ones. Every round rules out
another taken symbol, so as many rounds as there are taken symbols are enough. -/
def primed (taken : List Symbol) : Nat → Symbol → Symbol
  | 0, symbol => symbol ++ "'"
  | rounds + 1, symbol =>
      let next := symbol ++ "'"
      if taken.contains next then primed taken rounds next else next

/-- The head of the start production that augments a grammar with the given start symbol. -/
def freshStart (grammar : Grammar) (start : Symbol) : Symbol :=
  primed grammar.symbols grammar.symbols.length start

/-! ### The augmented grammar -/

/-- The production with the next id. -/
def moved (production : Production) : Production :=
  { production with id := production.id + 1 }

/-- The grammar with a fresh start production in front. -/
def augment (grammar : Grammar) : Except GrammarFault Grammar :=
  if grammar.augmented then .error .alreadyAugmented
  else
    match grammar.startSymbol with
    | none => .error .nothingToAugment
    | some start =>
        ofProductions (⟨0, grammar.freshStart start, [start]⟩ :: grammar.productions.map moved)
          true

end Grammar

end ShiftReduce
