/-
This file proves what making a grammar establishes. A list of productions is refused for a wrong id,
for a reserved symbol, or for want of a start production, and for nothing else. From any other list
a grammar is made whose two kinds of symbols are told apart by the heads of the whole list, each
symbol listed once and where it first occurs, and whose productions are parted by their heads.
-/

import ShiftReduce.Proofs.FirstSets

namespace ShiftReduce

namespace Grammar

/-! ### What a grammar is made up of -/

/-- How the symbols and the productions of a grammar come from the list that it is made from. -/
structure MadeUp (grammar : Grammar) (given : List Production) : Prop where
  productions : grammar.productions = given
  heads : ∀ symbol, symbol ∈ grammar.nonTerminals ↔
    ∃ production ∈ given, production.head = symbol
  headsDistinct : grammar.nonTerminals.Nodup
  headsOrder : grammar.nonTerminals.Pairwise fun first second =>
    (given.map Production.head).idxOf first < (given.map Production.head).idxOf second
  others : ∀ symbol, symbol ∈ grammar.terminals ↔
    (∃ production ∈ given, symbol ∈ production.body) ∧
      ∀ production ∈ given, production.head ≠ symbol
  othersDistinct : grammar.terminals.Nodup
  othersOrder : grammar.terminals.Pairwise fun first second =>
    (given.flatMap Production.body).idxOf first < (given.flatMap Production.body).idxOf second
  apart : List.Disjoint grammar.terminals grammar.nonTerminals
  kinds : ∀ production ∈ given, ∀ symbol ∈ production.body,
    Xor (grammar.isTerminal symbol = true) (grammar.isNonTerminal symbol = true)
  parted : (grammar.nonTerminals.flatMap grammar.productionsFor).Perm given
  parts : ∀ head ∈ grammar.nonTerminals, grammar.productionsFor head ≠ [] ∧
    (∀ production ∈ grammar.productionsFor head, production.head = head) ∧
    (grammar.productionsFor head).Pairwise fun first second => first.id < second.id

section Made

variable (grammar : Grammar)

theorem mem_nonTerminals_iff {symbol : Symbol} : symbol ∈ grammar.nonTerminals ↔
    ∃ production ∈ grammar.productions, production.head = symbol := by
  rw [nonTerminals, List.mem_eraseDups, List.mem_map]

theorem mem_terminals_iff {symbol : Symbol} : symbol ∈ grammar.terminals ↔
    (∃ production ∈ grammar.productions, symbol ∈ production.body) ∧
      ∀ production ∈ grammar.productions, production.head ≠ symbol := by
  have headless : (!grammar.isNonTerminal symbol) = true ↔
      ∀ production ∈ grammar.productions, production.head ≠ symbol := by
    rw [Bool.not_eq_true', ← Bool.not_eq_true, isNonTerminal_iff, mem_nonTerminals_iff]
    simp only [not_exists, not_and, ne_eq]
  rw [terminals, List.mem_eraseDups, List.mem_filter, List.mem_flatMap, headless]

theorem pairwise_terminals : grammar.terminals.Pairwise fun first second =>
    (grammar.productions.flatMap Production.body).idxOf first <
      (grammar.productions.flatMap Production.body).idxOf second := by
  rw [terminals]
  refine (pairwise_eraseDups _).imp_of_mem fun {one other} oneMember otherMember before => ?_
  have kept {symbol : Symbol} (member : symbol ∈ ((grammar.productions.flatMap
      Production.body).filter fun symbol => !grammar.isNonTerminal symbol).eraseDups) :
      (!grammar.isNonTerminal symbol) = true :=
    (List.mem_filter.mp (List.mem_eraseDups.mp member)).2
  exact idxOf_lt_of_filter (kept oneMember) (kept otherMember) before

theorem disjoint_symbols : List.Disjoint grammar.terminals grammar.nonTerminals :=
  fun symbol terminal nonTerminal =>
    (List.nodup_append.mp grammar.nodup_symbols).2.2 symbol terminal symbol nonTerminal rfl

/-- The ids of a grammar ascend. -/
theorem pairwise_id : grammar.productions.Pairwise fun first second => first.id < second.id := by
  refine List.pairwise_iff_getElem.mpr fun one other oneInside otherInside before => ?_
  rw [grammar.wellFormed.dense one _ (List.getElem?_eq_getElem oneInside),
    grammar.wellFormed.dense other _ (List.getElem?_eq_getElem otherInside)]
  exact Int.ofNat_lt.mpr before

theorem madeUp : grammar.MadeUp grammar.productions where
  productions := rfl
  heads _ := grammar.mem_nonTerminals_iff
  headsDistinct := nodup_eraseDups _
  headsOrder := pairwise_eraseDups _
  others _ := grammar.mem_terminals_iff
  othersDistinct := nodup_eraseDups _
  othersOrder := grammar.pairwise_terminals
  apart := grammar.disjoint_symbols
  kinds production member symbol inside := by
    rcases body_symbol member inside with terminal | nonTerminal
    · exact .inl ⟨terminal, not_isNonTerminal_of_isTerminal terminal⟩
    · exact .inr ⟨nonTerminal, fun terminal =>
        not_isNonTerminal_of_isTerminal terminal nonTerminal⟩
  parted := perm_flatMap_filter Production.head (nodup_eraseDups _) fun production member =>
    grammar.mem_nonTerminals_iff.mpr ⟨production, member, rfl⟩
  parts head listed := by
    obtain ⟨production, member, headed⟩ := grammar.mem_nonTerminals_iff.mp listed
    exact ⟨List.ne_nil_of_mem (mem_productionsFor.mpr ⟨member, headed⟩),
      fun _ found => (mem_productionsFor.mp found).2, grammar.pairwise_id.filter _⟩

end Made

/-! ### What keeps a grammar from being made -/

theorem ofProductions_eq_error_iff {productions : List Production} {augmented : Bool} :
    (∃ fault, ofProductions productions augmented = .error fault) ↔
      ¬ WellFormed productions augmented := by
  cases outcome : ofProductions productions augmented with
  | error fault =>
    refine iff_of_true ⟨fault, rfl⟩ fun sound => ?_
    rw [ofProductions_of_wellFormed sound] at outcome
    cases outcome
  | ok grammar =>
    obtain ⟨rfl, rfl⟩ := ofProductions_eq_ok_iff.mp outcome
    exact iff_of_false (fun ⟨_, failed⟩ => by cases failed) (not_not_intro grammar.wellFormed)

theorem not_wellFormed_iff {productions : List Production} {augmented : Bool} :
    ¬ WellFormed productions augmented ↔
      (∃ (place : Nat) (production : Production), productions[place]? = some production ∧
        production.id ≠ place) ∨
      (∃ production ∈ productions, production.head ∈ Symbol.reserved ∨
        ∃ symbol ∈ production.body, symbol ∈ Symbol.reserved) ∨
      augmented = true ∧ productions = [] := by
  constructor
  · intro wrong
    by_contra fine
    obtain ⟨dense, free, started⟩ := not_or.mp fine |>.imp_right not_or.mp
    refine wrong ⟨fun place production found => ?_, fun production member reserved => ?_,
      fun production member symbol inside reserved => ?_, fun claims none => ?_⟩
    · exact not_not.mp fun other => dense ⟨place, production, found, other⟩
    · exact free ⟨production, member, .inl reserved⟩
    · exact free ⟨production, member, .inr ⟨symbol, inside, reserved⟩⟩
    · exact started ⟨claims, none⟩
  · rintro (⟨place, production, found, other⟩ | ⟨production, member, reserved⟩ | ⟨claims, none⟩)
      sound
    · exact other (sound.dense place production found)
    · rcases reserved with head | ⟨symbol, inside, reserved⟩
      · exact sound.heads production member head
      · exact sound.bodies production member symbol inside reserved
    · exact sound.started claims none

/-- A list of productions makes a grammar unless an id is not a position, a reserved symbol is used,
or a grammar without productions is to be augmented. A grammar that is made lists each symbol once,
as a terminal or as a non-terminal and in the order of first occurrence, and its productions are
parted by their heads. -/
theorem made_or_refused (productions : List Production) (augmented : Bool) :
    ((∃ fault, ofProductions productions augmented = .error fault) ↔
      (∃ (place : Nat) (production : Production), productions[place]? = some production ∧
        production.id ≠ place) ∨
      (∃ production ∈ productions, production.head ∈ Symbol.reserved ∨
        ∃ symbol ∈ production.body, symbol ∈ Symbol.reserved) ∨
      augmented = true ∧ productions = []) ∧
    ∀ grammar, ofProductions productions augmented = .ok grammar →
      grammar.augmented = augmented ∧ grammar.MadeUp productions := by
  refine ⟨ofProductions_eq_error_iff.trans not_wellFormed_iff, fun grammar made => ?_⟩
  obtain ⟨rfl, rfl⟩ := ofProductions_eq_ok_iff.mp made
  exact ⟨rfl, grammar.madeUp⟩

/-- The second symbol of the first body is a non-terminal, because it heads a later production. -/
theorem made_or_refused_late :
    ∃ grammar, ofProductions [⟨0, "S", ["b", "A", "b"]⟩, ⟨1, "A", ["c", "S"]⟩, ⟨2, "S", []⟩] false =
        .ok grammar ∧
      grammar.MadeUp [⟨0, "S", ["b", "A", "b"]⟩, ⟨1, "A", ["c", "S"]⟩, ⟨2, "S", []⟩] ∧
      grammar.nonTerminals = ["S", "A"] ∧ grammar.terminals = ["b", "c"] ∧
      grammar.productionsFor "S" = [⟨0, "S", ["b", "A", "b"]⟩, ⟨2, "S", []⟩] := by
  have made : ofProductions [⟨0, "S", ["b", "A", "b"]⟩, ⟨1, "A", ["c", "S"]⟩, ⟨2, "S", []⟩] false =
      .ok _ := ofProductions_of_wellFormed ((faultOf_eq_none_iff _ _).mp (by decide))
  exact ⟨_, made, ((made_or_refused _ _).2 _ made).2, by decide +kernel, by decide +kernel,
    by decide +kernel⟩

end Grammar

end ShiftReduce
