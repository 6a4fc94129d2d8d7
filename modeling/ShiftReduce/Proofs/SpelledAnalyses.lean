/-
This file proves that all stages of an analysis go along with a change of spelling. The one symbol
that does not is the fresh start symbol: both grammars add apostrophes to their start symbols until
the result is unused, and they need not add equally many. An augmented grammar therefore has a
spelling of its own, which agrees with the given one on every symbol of the grammar and takes one
fresh symbol to the other.
-/

import Mathlib.Logic.Equiv.Basic
import ShiftReduce.Proofs.SpelledSets
import ShiftReduce.Proofs.SpelledTables
import ShiftReduce.Proofs.Stages

namespace ShiftReduce

/-! ### Spellings of augmented grammars -/

namespace Spelling

/-- The spelling that exchanges two symbols. -/
def exchange (one other : Symbol) (oneFree : one ∉ Symbol.reserved)
    (otherFree : other ∉ Symbol.reserved) : Spelling where
  map := Equiv.swap one other
  injective := (Equiv.swap one other).injective
  fixes _ reserved := Equiv.swap_apply_of_ne_of_ne
    (fun same => oneFree (same ▸ reserved)) fun same => otherFree (same ▸ reserved)

/-- One spelling after another. -/
def after (second first : Spelling) : Spelling where
  map := fun symbol => second (first symbol)
  injective := second.injective.comp first.injective
  fixes symbol reserved := by rw [first.fixes symbol reserved, second.fixes symbol reserved]

end Spelling

namespace Grammar

/-- The spelling of the augmentation of a grammar with the given start symbol. -/
def ownSpelling (grammar : Grammar) (spelling : Spelling) (start : Symbol) : Spelling :=
  .after (.exchange (spelling (grammar.freshStart start))
    ((grammar.respell spelling).freshStart (spelling start))
    (fun reserved => grammar.freshStart_not_reserved start (Spelling.mem_reserved.mp reserved))
    ((grammar.respell spelling).freshStart_not_reserved _)) spelling

section Augmented

variable {spelling other : Spelling} {grammar augmented : Grammar} {start symbol : Symbol}

theorem ownSpelling_freshStart : grammar.ownSpelling spelling start (grammar.freshStart start) =
    (grammar.respell spelling).freshStart (spelling start) :=
  Equiv.swap_apply_left _ _

/-- Neither fresh symbol is in use: not the one that is respelled, and not the other one. -/
theorem ownSpelling_of_mem (inside : symbol ∈ grammar.symbols) :
    grammar.ownSpelling spelling start symbol = spelling symbol := by
  refine Equiv.swap_apply_of_ne_of_ne (fun same => ?_) fun same => ?_
  · rw [spelling.injective same] at inside
    exact grammar.freshStart_not_mem start inside
  · refine (grammar.respell spelling).freshStart_not_mem (spelling start) ?_
    simpa [← same] using List.mem_map_of_mem inside

/-! ### Spellings that agree on the symbols of a grammar -/

/-- Two spellings agree on the symbols of a grammar. -/
def Agree (grammar : Grammar) (spelling other : Spelling) : Prop :=
  ∀ symbol ∈ grammar.symbols, spelling symbol = other symbol

theorem Agree.production (agree : grammar.Agree spelling other) {production : Production}
    (member : production ∈ grammar.productions) :
    production.respell spelling = production.respell other := by
  have head := agree production.head (mem_symbols_iff.mpr (.inr (head_mem_nonTerminals member)))
  have body : production.body.map spelling = production.body.map other :=
    List.map_congr_left fun symbol inside =>
      agree symbol (mem_symbols_iff.mpr (body_symbol member inside))
  rw [Production.respell, Production.respell, head, body]

theorem Agree.respell_eq (agree : grammar.Agree spelling other) :
    grammar.respell spelling = grammar.respell other := by
  have same : grammar.productions.map (Production.respell spelling) =
      grammar.productions.map (Production.respell other) :=
    List.map_congr_left fun production member => agree.production member
  simp only [respell, same]

/-! ### Augmentation -/

theorem ownSpelling_agrees :
    grammar.Agree (grammar.ownSpelling spelling start) spelling :=
  fun _ inside => ownSpelling_of_mem inside

theorem root_respell (started : grammar.startSymbol = some start) :
    (grammar.root start).respell (grammar.ownSpelling spelling start) =
      (grammar.respell spelling).root (spelling start) := by
  have inside : start ∈ grammar.symbols :=
    mem_symbols_iff.mpr (.inr (startSymbol_isNonTerminal started))
  rw [root, Production.respell, List.map_singleton, ownSpelling_freshStart,
    ownSpelling_of_mem inside]
  rfl

theorem augment_respell (plain : grammar.augmented = false)
    (augments : grammar.Augments augmented start) :
    (grammar.respell spelling).augment =
      .ok (augmented.respell (grammar.ownSpelling spelling start)) := by
  have moves : (grammar.productions.map moved).map
        (Production.respell (grammar.ownSpelling spelling start)) =
      (grammar.respell spelling).productions.map moved := by
    rw [← ownSpelling_agrees.respell_eq, respell, List.map_map, List.map_map]
    rfl
  rw [augment, if_neg (show ¬ (grammar.respell spelling).augmented = true by
    rw [respell, plain]; exact Bool.false_ne_true), startSymbol_respell, augments.started]
  refine ofProductions_eq_ok_iff.mpr ⟨?_, augments.flagged⟩
  show augmented.productions.map (Production.respell _) = _
  rw [augments.productions, List.map_cons, moves, root_respell augments.started]
  rfl

/-- A grammar is made of the respelled productions. -/
theorem ofProductions_respell (grammar : Grammar) (spelling : Spelling) :
    ofProductions (grammar.productions.map (Production.respell spelling)) grammar.augmented =
      .ok (grammar.respell spelling) :=
  ofProductions_eq_ok_iff.mpr ⟨rfl, rfl⟩

end Augmented

end Grammar

/-! ### All stages -/

namespace Analysis

open Grammar

/-- Every stage goes along with the spelling of the augmented grammar. -/
theorem Completes.ofGrammar_respell {analysis : Analysis} {start : Symbol}
    (completes : analysis.Completes analysis.grammar)
    (plain : analysis.grammar.augmented = false) (nonempty : analysis.grammar.productions ≠ [])
    (augments : analysis.grammar.Augments analysis.augmented start) (spelling : Spelling) :
    ofGrammar (analysis.grammar.respell spelling) =
      .ok (analysis.respell (analysis.grammar.ownSpelling spelling start)) := by
  have same : analysis.respell (analysis.grammar.ownSpelling spelling start) = ⟨_, _, _, _, _⟩ :=
    rfl
  rw [same, ownSpelling_agrees.respell_eq]
  refine ofGrammar_of_stages (fun empty => nonempty (List.map_eq_nil_iff.mp empty))
    (augment_respell plain augments) (lookaheadSets_respell completes.sets)
    (automaton_respell _ _ completes.states) (Table.build_respell completes.table)

end Analysis

end ShiftReduce
