/-
This file proves that a grammar with productions can be augmented once, and what the
augmented grammar looks like. The fresh symbol is new: each round of priming rules out
another symbol, and more symbols than there are cannot all be taken. It heads the start
production alone and stands in no body, the other productions are the old ones with their
ids moved up, and both grammars have the same terminals.
-/

import ShiftReduce.Proofs.Closure

namespace ShiftReduce

namespace Grammar

/-! ### The fresh symbol -/

/-- A symbol with a number of apostrophes. -/
def primes : Nat → Symbol → Symbol
  | 0, symbol => symbol
  | count + 1, symbol => primes count symbol ++ "'"

theorem primes_append (count : Nat) (symbol : Symbol) :
    primes count (symbol ++ "'") = primes (count + 1) symbol := by
  induction count with
  | zero => rfl
  | succ count inductionHypothesis => rw [primes, inductionHypothesis, ← primes]

@[simp] theorem length_primes (count : Nat) (symbol : Symbol) :
    (primes count symbol).length = symbol.length + count := by
  induction count with
  | zero => rfl
  | succ count inductionHypothesis =>
    rw [primes, String.length_append, inductionHypothesis]
    rfl

theorem primes_injective {symbol : Symbol} {first second : Nat}
    (same : primes first symbol = primes second symbol) : first = second := by
  have lengths := congrArg String.length same
  simpa using lengths

/-- Priming stops at the first symbol that is not taken, or when the rounds are over. -/
theorem primed_eq_primes (taken : List Symbol) (rounds : Nat) (symbol : Symbol) :
    ∃ count ≤ rounds, primed taken rounds symbol = primes (count + 1) symbol ∧
      (∀ earlier < count, primes (earlier + 1) symbol ∈ taken) ∧
      (primes (count + 1) symbol ∉ taken ∨ count = rounds) := by
  induction rounds generalizing symbol with
  | zero => exact ⟨0, Nat.le_refl 0, rfl, fun _ none => absurd none (Nat.not_lt_zero _), .inr rfl⟩
  | succ rounds inductionHypothesis =>
    rw [primed]
    split
    · rename_i contained
      obtain ⟨count, bound, equal, passed, stop⟩ := inductionHypothesis (symbol ++ "'")
      refine ⟨count + 1, Nat.succ_le_succ bound, ?_, fun earlier below => ?_, ?_⟩
      · rw [equal, primes_append]
      · cases earlier with
        | zero => exact List.contains_iff_mem.mp contained
        | succ earlier =>
          rw [← primes_append]
          exact passed earlier (Nat.lt_of_succ_lt_succ below)
      · rw [primes_append] at stop
        exact stop.imp_right (congrArg (· + 1))
    · rename_i free
      exact ⟨0, Nat.zero_le _, rfl, fun _ none => absurd none (Nat.not_lt_zero _),
        .inl fun member => free (List.contains_iff_mem.mpr member)⟩

/-- The fresh start symbol has the least positive number of apostrophes that makes it new. -/
theorem freshStart_eq_primes (grammar : Grammar) (start : Symbol) :
    ∃ count, grammar.freshStart start = primes (count + 1) start ∧
      primes (count + 1) start ∉ grammar.symbols ∧
      ∀ earlier < count, primes (earlier + 1) start ∈ grammar.symbols := by
  obtain ⟨count, _, equal, passed, stop⟩ :=
    primed_eq_primes grammar.symbols grammar.symbols.length start
  refine ⟨count, equal, fun taken => ?_, passed⟩
  have full : count = grammar.symbols.length := stop.resolve_left (not_not_intro taken)
  have different : ((List.range (count + 1)).map fun earlier =>
      primes (earlier + 1) start).Nodup :=
    List.Pairwise.map _ (fun _ _ other same => other (Nat.succ_inj.mp (primes_injective same)))
      List.nodup_range
  have inside : ((List.range (count + 1)).map fun earlier =>
      primes (earlier + 1) start) ⊆ grammar.symbols := by
    intro symbol member
    obtain ⟨earlier, listed, rfl⟩ := List.mem_map.mp member
    rcases Nat.lt_succ_iff_lt_or_eq.mp (List.mem_range.mp listed) with below | rfl
    · exact passed earlier below
    · exact taken
  have tooMany := different.length_le_of_subset inside
  rw [List.length_map, List.length_range] at tooMany
  omega

theorem freshStart_not_mem (grammar : Grammar) (start : Symbol) :
    grammar.freshStart start ∉ grammar.symbols := by
  obtain ⟨count, equal, new, _⟩ := grammar.freshStart_eq_primes start
  rw [equal]
  exact new

/-- Priming that has come to a new symbol has ended by itself. -/
theorem primed_more {taken : List Symbol} {rounds : Nat} {symbol : Symbol}
    (new : primed taken rounds symbol ∉ taken) (more : Nat) :
    primed taken (rounds + more) symbol = primed taken rounds symbol := by
  induction rounds generalizing symbol with
  | zero =>
    cases more with
    | zero => rfl
    | succ more => exact if_neg fun contained => new (List.contains_iff_mem.mp contained)
  | succ rounds inductionHypothesis =>
    rw [primed] at new
    rw [Nat.succ_add, primed, primed]
    by_cases contained : taken.contains (symbol ++ "'") = true
    · rw [if_pos contained] at new
      rw [if_pos contained, if_pos contained, inductionHypothesis new]
    · rw [if_neg contained, if_neg contained]

theorem append_apostrophe_not_reserved (symbol : Symbol) : symbol ++ "'" ∉ Symbol.reserved := by
  have ending {word : Symbol} (same : symbol ++ "'" = word) :
      "'".toList.getLast? = word.toList.getLast? := by
    rw [← same, String.toList_append, List.getLast?_append]
    rfl
  simp only [Symbol.reserved, Symbol.epsilonSpellings, List.mem_cons, List.not_mem_nil, or_false,
    not_or]
  exact ⟨fun same => absurd (ending same) (by decide),
    fun same => absurd (ending same) (by decide), fun same => absurd (ending same) (by decide)⟩

theorem freshStart_not_reserved (grammar : Grammar) (start : Symbol) :
    grammar.freshStart start ∉ Symbol.reserved := by
  obtain ⟨count, equal, _⟩ := grammar.freshStart_eq_primes start
  rw [equal, primes]
  exact append_apostrophe_not_reserved _

/-! ### The symbols of productions -/

theorem head_mem_nonTerminals {grammar : Grammar} {production : Production}
    (member : production ∈ grammar.productions) :
    grammar.isNonTerminal production.head = true :=
  List.any_eq_true.mpr ⟨production, member, beq_self_eq_true _⟩

theorem body_symbol {grammar : Grammar} {production : Production} {symbol : Symbol}
    (member : production ∈ grammar.productions) (inside : symbol ∈ production.body) :
    grammar.isTerminal symbol = true ∨ grammar.isNonTerminal symbol = true := by
  cases nonTerminal : grammar.isNonTerminal symbol with
  | true => exact .inr rfl
  | false =>
    refine .inl ?_
    rw [isTerminal, nonTerminal]
    exact List.any_eq_true.mpr ⟨production, member, List.contains_iff_mem.mpr inside⟩

theorem mem_symbols_iff {grammar : Grammar} {symbol : Symbol} :
    symbol ∈ grammar.symbols ↔
      grammar.isTerminal symbol = true ∨ grammar.isNonTerminal symbol = true := by
  rw [symbols, List.mem_append, isTerminal_iff, isNonTerminal_iff]

theorem not_isNonTerminal_of_isTerminal {grammar : Grammar} {symbol : Symbol}
    (terminal : grammar.isTerminal symbol = true) : ¬ grammar.isNonTerminal symbol = true := by
  rw [isTerminal, Bool.and_eq_true, Bool.not_eq_true'] at terminal
  rw [terminal.1]
  exact Bool.false_ne_true

theorem not_reserved_of_isTerminal {grammar : Grammar} {symbol : Symbol}
    (terminal : grammar.isTerminal symbol = true) : symbol ∉ Symbol.reserved := by
  rw [isTerminal, Bool.and_eq_true, List.any_eq_true] at terminal
  obtain ⟨_, production, member, inside⟩ := terminal
  exact grammar.wellFormed.bodies production member symbol (List.contains_iff_mem.mp inside)

/-! ### The augmented grammar -/

/-- The production that augments a grammar with the given start symbol. -/
def root (grammar : Grammar) (start : Symbol) : Production :=
  ⟨0, grammar.freshStart start, [start]⟩

/-- What an augmentation consists of. -/
structure Augments (grammar augmented : Grammar) (start : Symbol) : Prop where
  started : grammar.startSymbol = some start
  flagged : augmented.augmented = true
  productions : augmented.productions = grammar.root start :: grammar.productions.map moved

theorem startSymbol_isNonTerminal {grammar : Grammar} {start : Symbol}
    (started : grammar.startSymbol = some start) : grammar.isNonTerminal start = true := by
  obtain ⟨first, found, rfl⟩ := Option.map_eq_some_iff.mp started
  exact head_mem_nonTerminals (List.mem_of_mem_head? found)

theorem startSymbol_exists {grammar : Grammar} (nonempty : grammar.productions ≠ []) :
    ∃ start, grammar.startSymbol = some start := by
  obtain ⟨first, rest, shape⟩ := List.exists_cons_of_ne_nil nonempty
  exact ⟨first.head, by rw [startSymbol, shape]; rfl⟩

theorem augmented_wellFormed (grammar : Grammar) {start : Symbol}
    (started : grammar.startSymbol = some start) :
    WellFormed (grammar.root start :: grammar.productions.map moved) true where
  dense place production found := by
    cases place with
    | zero =>
      rw [List.getElem?_cons_zero, Option.some_inj] at found
      rw [← found]
      rfl
    | succ place =>
      rw [List.getElem?_cons_succ, List.getElem?_map, Option.map_eq_some_iff] at found
      obtain ⟨old, oldFound, rfl⟩ := found
      show old.id + 1 = _
      rw [grammar.wellFormed.dense place old oldFound]
      rfl
  heads production member := by
    rcases List.mem_cons.mp member with rfl | old
    · exact grammar.freshStart_not_reserved start
    · obtain ⟨former, formerMember, rfl⟩ := List.mem_map.mp old
      exact grammar.wellFormed.heads former formerMember
  bodies production member := by
    rcases List.mem_cons.mp member with rfl | old
    · intro symbol inside
      rw [List.mem_singleton.mp inside]
      obtain ⟨former, headed⟩ := isNonTerminal_iff_exists.mp (startSymbol_isNonTerminal started)
      rw [← (mem_productionsFor.mp headed).2]
      exact grammar.wellFormed.heads former (mem_productionsFor.mp headed).1
    · obtain ⟨former, formerMember, rfl⟩ := List.mem_map.mp old
      exact grammar.wellFormed.bodies former formerMember
  started _ := List.cons_ne_nil _ _

/-- Every grammar that is not augmented and has productions can be augmented. -/
theorem augment_exists {grammar : Grammar} (plain : grammar.augmented = false)
    (nonempty : grammar.productions ≠ []) :
    ∃ augmented start, grammar.augment = .ok augmented ∧ grammar.Augments augmented start := by
  obtain ⟨start, started⟩ := startSymbol_exists nonempty
  have sound := grammar.augmented_wellFormed started
  refine ⟨⟨_, true, sound⟩, start, ?_, started, rfl, rfl⟩
  rw [augment, if_neg (by rw [plain]; exact Bool.false_ne_true), started]
  exact ofProductions_of_wellFormed sound

/-- What augmenting returns is the augmentation. -/
theorem augments_of_augment {grammar augmented : Grammar}
    (found : grammar.augment = .ok augmented) : ∃ start, grammar.Augments augmented start := by
  unfold augment at found
  split at found
  · cases found
  · split at found
    · cases found
    · rename_i start started
      have same := (ofProductions_of_wellFormed (grammar.augmented_wellFormed started)).symm.trans
        found
      rw [← Except.ok.inj same]
      exact ⟨start, started, rfl, rfl⟩

namespace Augments

variable {grammar augmented : Grammar} {start : Symbol}

theorem mem_productions (augments : grammar.Augments augmented start) {production : Production} :
    production ∈ augmented.productions ↔
      production = grammar.root start ∨ ∃ old ∈ grammar.productions, moved old = production := by
  rw [augments.productions, List.mem_cons, List.mem_map]

theorem moved_mem (augments : grammar.Augments augmented start) {production : Production}
    (member : production ∈ grammar.productions) : moved production ∈ augmented.productions :=
  augments.mem_productions.mpr (.inr ⟨production, member, rfl⟩)

theorem root_mem (augments : grammar.Augments augmented start) :
    grammar.root start ∈ augmented.productions :=
  augments.mem_productions.mpr (.inl rfl)

theorem startOf_eq (augments : grammar.Augments augmented start)
    (flagged : augmented.augmented = true) : augmented.startOf flagged = grammar.root start := by
  simp only [startOf, augments.productions, List.head_cons]

theorem startSymbol_eq (augments : grammar.Augments augmented start) :
    augmented.startSymbol = some (grammar.freshStart start) := by
  rw [startSymbol, augments.productions]
  rfl

/-- The fresh symbol heads no production of the grammar that is augmented. -/
theorem head_ne_freshStart {production : Production} (member : production ∈ grammar.productions) :
    production.head ≠ grammar.freshStart start := by
  intro same
  refine grammar.freshStart_not_mem start ?_
  rw [← same]
  exact mem_symbols_iff.mpr (.inr (head_mem_nonTerminals member))

/-- The fresh symbol stands in no body. -/
theorem not_mem_body (augments : grammar.Augments augmented start) {production : Production}
    (member : production ∈ augmented.productions) :
    grammar.freshStart start ∉ production.body := by
  intro inside
  refine grammar.freshStart_not_mem start ?_
  rcases augments.mem_productions.mp member with rfl | ⟨old, oldMember, rfl⟩
  · rw [List.mem_singleton.mp inside]
    exact mem_symbols_iff.mpr (.inr (startSymbol_isNonTerminal augments.started))
  · exact mem_symbols_iff.mpr (body_symbol oldMember inside)

theorem moved_id_ne_zero {production : Production} (member : production ∈ grammar.productions) :
    (moved production).id ≠ 0 := by
  obtain ⟨place, found⟩ := List.getElem?_of_mem member
  have dense := grammar.wellFormed.dense place production found
  show production.id + 1 ≠ 0
  omega

theorem mem_productionsFor_freshStart (augments : grammar.Augments augmented start)
    {production : Production} :
    production ∈ augmented.productionsFor (grammar.freshStart start) ↔
      production = grammar.root start := by
  rw [mem_productionsFor, augments.mem_productions]
  constructor
  · rintro ⟨rfl | ⟨old, member, rfl⟩, headed⟩
    · rfl
    · exact absurd (show old.head = _ from headed) (head_ne_freshStart member)
  · rintro rfl
    exact ⟨.inl rfl, rfl⟩

/-- The augmented grammar has one non-terminal more. -/
theorem isNonTerminal_iff_or (augments : grammar.Augments augmented start) (symbol : Symbol) :
    augmented.isNonTerminal symbol = true ↔
      symbol = grammar.freshStart start ∨ grammar.isNonTerminal symbol = true := by
  rw [isNonTerminal, isNonTerminal, augments.productions, List.any_cons, List.any_map,
    Bool.or_eq_true, beq_iff_eq]
  exact or_congr_left eq_comm

/-- Both grammars have the same terminals. -/
theorem isTerminal_iff_isTerminal (augments : grammar.Augments augmented start) (symbol : Symbol) :
    augmented.isTerminal symbol = true ↔ grammar.isTerminal symbol = true := by
  constructor
  · intro terminal
    have other := not_isNonTerminal_of_isTerminal terminal
    rw [augments.isNonTerminal_iff_or, not_or] at other
    rw [isTerminal, Bool.and_eq_true, List.any_eq_true] at terminal
    obtain ⟨_, production, member, contained⟩ := terminal
    have inside := List.contains_iff_mem.mp contained
    rcases augments.mem_productions.mp member with rfl | ⟨old, oldMember, rfl⟩
    · rw [List.mem_singleton.mp inside] at other
      exact absurd (startSymbol_isNonTerminal augments.started) other.2
    · exact (body_symbol oldMember inside).resolve_right other.2
  · intro terminal
    have other := not_isNonTerminal_of_isTerminal terminal
    have new : symbol ≠ grammar.freshStart start := fun same =>
      grammar.freshStart_not_mem start (by
        rw [← same]
        exact mem_symbols_iff.mpr (.inl terminal))
    rw [isTerminal, Bool.and_eq_true, List.any_eq_true] at terminal
    obtain ⟨_, production, member, contained⟩ := terminal
    refine (body_symbol (augments.moved_mem member)
      (List.contains_iff_mem.mp contained)).resolve_right ?_
    rw [augments.isNonTerminal_iff_or, not_or]
    exact ⟨new, other⟩

end Augments

end Grammar

end ShiftReduce
