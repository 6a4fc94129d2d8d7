/-
This file proves that the states of an automaton are numbered by the strings that lead to them:
shorter strings come first, and strings of one length come in the order of the alphabet. Exploring
takes turns, one for each set and symbol, and the numbers are given out in the order of the turns.
So the turn in which a set was found comes no later than any turn that leads to this set or to one
with a larger number, and it continues the least string of a set with a smaller number. By
induction on the number, the string it makes is less than all others that lead to a set that is
not smaller.
-/

import Mathlib.Data.List.Shortlex
import Mathlib.Data.Prod.Lex
import ShiftReduce.Proofs.Collection

namespace ShiftReduce

namespace Grammar

/-! ### Numbers in the order of turns -/

/-- The turn in which a symbol is tried on a set: sets come by their numbers, and symbols by
their places in the alphabet. -/
def turn (grammar : Grammar) (number : Nat) (symbol : Symbol) : Nat ×ₗ Nat :=
  toLex (number, grammar.symbols.idxOf symbol)

/-- Every number but 0 leads back to a smaller one by a turn that comes no later than those that
lead to the number or to a larger one. -/
structure InTurn (grammar : Grammar) (count : Nat) (next : Nat → Symbol → Option Nat) :
    Prop where
  known : ∀ number symbol target, next number symbol = some target → target < count
  found : ∀ target < count, target ≠ 0 → ∃ parent symbol, parent < target ∧
    next parent symbol = some target ∧ ∀ number other later, next number other = some later →
      target ≤ later → grammar.turn parent symbol ≤ grammar.turn number other

section Turns

variable {grammar : Grammar} {count here number : Nat} {symbol : Symbol}
  {next : Nat → Symbol → Option Nat}

/-- A turn behind all others may lead to a known number or to the next new one. -/
theorem InTurn.write (inTurn : grammar.InTurn count next) (inside : here < count)
    (unwritten : next here symbol = none)
    (latest : ∀ earlier other target, next earlier other = some target →
      grammar.turn earlier other ≤ grammar.turn here symbol)
    (bound : number ≤ count) :
    grammar.InTurn (max count (number + 1)) fun earlier other =>
      if earlier = here ∧ other = symbol then some number else next earlier other := by
  have kept {earlier : Nat} {other : Symbol} {target : Nat}
      (written : next earlier other = some target) :
      (if earlier = here ∧ other = symbol then some number else next earlier other) =
        some target := by
    rw [if_neg, written]
    rintro ⟨rfl, rfl⟩
    rw [unwritten] at written
    cases written
  constructor
  · intro earlier other target written
    split at written
    · rw [← Option.some_inj.mp written]
      exact lt_max_of_lt_right (Nat.lt_succ_self number)
    · exact lt_max_of_lt_left (inTurn.known earlier other target written)
  · intro target below positive
    rcases Nat.lt_or_ge target count with old | new
    · obtain ⟨parent, through, smaller, leads, first⟩ := inTurn.found target old positive
      refine ⟨parent, through, smaller, kept leads, fun earlier other later written above => ?_⟩
      split at written
      · rename_i now
        rw [now.1, now.2]
        exact latest parent through target leads
      · exact first earlier other later written above
    · have onlyNow : target = number := by omega
      subst onlyNow
      refine ⟨here, symbol, Nat.lt_of_lt_of_le inside new, if_pos ⟨rfl, rfl⟩,
        fun earlier other later written above => ?_⟩
      split at written
      · rename_i now
        rw [now.1, now.2]
      · have old := inTurn.known earlier other later written
        omega

/-! ### Exploring by turns -/

/-- Where rows of numbers lead. -/
def follows (rows : List (SymbolMap Nat)) (number : Nat) (symbol : Symbol) : Option Nat :=
  rows[number]?.bind fun row => row.get? symbol

theorem follows_concat (rows : List (SymbolMap Nat)) (row : SymbolMap Nat) (number : Nat)
    (symbol : Symbol) :
    follows (rows ++ [row]) number symbol =
      if number = rows.length then row.get? symbol else follows rows number symbol := by
  rcases Nat.lt_trichotomy number rows.length with below | rfl | above
  · rw [if_neg (Nat.ne_of_lt below), follows, follows, List.getElem?_append_left below]
  · rw [if_pos rfl, follows, List.getElem?_concat_length, Option.bind_some]
  · rw [if_neg (Nat.ne_of_gt above), follows, follows, List.getElem?_eq_none,
      List.getElem?_eq_none (Nat.le_of_lt above)]
    rw [List.length_append, List.length_singleton]
    exact above

@[simp] theorem follows_empty (rows : List (SymbolMap Nat)) :
    follows (rows ++ [∅]) = follows rows := by
  funext number symbol
  rw [follows_concat]
  split
  · rename_i last
    rw [last, follows, List.getElem?_eq_none (Nat.le_refl _)]
    rfl
  · rfl

theorem follows_insert (rows : List (SymbolMap Nat)) (row : SymbolMap Nat) (symbol : Symbol)
    (number : Nat) :
    follows (rows ++ [row.insert symbol number]) = fun earlier other =>
      if earlier = rows.length ∧ other = symbol then some number
      else follows (rows ++ [row]) earlier other := by
  funext earlier other
  rw [follows_concat, follows_concat]
  by_cases last : earlier = rows.length
  · by_cases same : other = symbol
    · simp [last, same]
    · simp [last, same]
  · simp [last]

/-- In the alphabet, the symbols in front of a symbol have smaller places. -/
theorem idxOf_lt_of_split {front rest : List Symbol}
    (split : front ++ symbol :: rest = grammar.symbols) {other : Symbol} (member : other ∈ front) :
    grammar.symbols.idxOf other < grammar.symbols.idxOf symbol := by
  have absent : symbol ∉ front := fun inFront =>
    (List.nodup_append.mp (split ▸ grammar.nodup_symbols)).2.2 symbol inFront symbol
      List.mem_cons_self rfl
  rw [← split, List.idxOf_append_of_mem member, List.idxOf_append_of_notMem absent,
    List.idxOf_cons_self, Nat.add_zero]
  exact List.idxOf_lt_length_of_mem member

/-- A symbol is tried behind the symbols in front of it and behind all earlier sets. -/
theorem turn_le_of_follows {rows : List (SymbolMap Nat)} {row : SymbolMap Nat}
    {front rest : List Symbol} (split : front ++ symbol :: rest = grammar.symbols)
    (written : ∀ other ∈ row.keys, other ∈ front) {earlier target : Nat} {other : Symbol}
    (leads : follows (rows ++ [row]) earlier other = some target) :
    grammar.turn earlier other ≤ grammar.turn rows.length symbol := by
  rw [turn, turn, Prod.Lex.toLex_le_toLex]
  rw [follows_concat] at leads
  split at leads
  · rename_i last
    have member := written other (SymbolMap.mem_keys_iff.mpr ⟨target, leads⟩)
    exact .inr ⟨last, Nat.le_of_lt (idxOf_lt_of_split split member)⟩
  · obtain ⟨_, found, _⟩ := Option.bind_eq_some_iff.mp leads
    exact .inl (List.getElem?_eq_some_iff.mp found).1

/-- Linking a set gives out numbers in turn. -/
theorem InTurn.link {set : ItemSet} (symbols front : List Symbol) {known : List ItemSet}
    {rows : List (SymbolMap Nat)} {row : SymbolMap Nat}
    (inTurn : grammar.InTurn known.length (follows (rows ++ [row])))
    (split : front ++ symbols = grammar.symbols) (inside : rows.length < known.length)
    (written : ∀ other ∈ row.keys, other ∈ front) :
    grammar.InTurn (grammar.link set symbols known row).1.length
      (follows (rows ++ [(grammar.link set symbols known row).2])) := by
  induction symbols generalizing front known row with
  | nil => exact inTurn
  | cons symbol rest inductionHypothesis =>
    have shift : front ++ [symbol] ++ rest = grammar.symbols := by
      rw [List.append_assoc, List.singleton_append, split]
    cases leads : grammar.goto set symbol with
    | none =>
      rw [link_cons_none leads]
      exact inductionHypothesis _ inTurn shift inside fun other member =>
        List.mem_append_left _ (written other member)
    | some target =>
      rw [link_cons_some leads]
      have unwritten : follows (rows ++ [row]) rows.length symbol = none := by
        rw [follows_concat, if_pos rfl, Option.eq_none_iff_forall_ne_some]
        intro number found
        have member := written symbol (SymbolMap.mem_keys_iff.mpr ⟨number, found⟩)
        exact absurd (idxOf_lt_of_split split member) (Nat.lt_irrefl _)
      refine inductionHypothesis _ ?_ shift ?_ fun other member => ?_
      · rw [length_enroll, follows_insert]
        exact inTurn.write inside unwritten
          (fun _ _ _ => turn_le_of_follows split written) (enroll_le known target)
      · exact Nat.lt_of_lt_of_le inside (prefix_enroll known target).length_le
      · rw [SymbolMap.keys_insert] at member
        split at member
        · exact List.mem_append_left _ (written other member)
        · exact (List.mem_append.mp member).elim
            (fun old => List.mem_append_left _ (written other old)) (List.mem_append_right _)

/-- Exploring gives out numbers in turn. -/
theorem inTurn_explore (start : Item) (rounds : Nat) :
    grammar.InTurn (grammar.explore rounds [grammar.closure [start]] []).1.length
      (follows (grammar.explore rounds [grammar.closure [start]] []).2) := by
  refine @explore_keeps grammar (fun known rows => grammar.InTurn known.length (follows rows))
    (fun known rows set inTurn found => ?_) rounds _ _
    ⟨fun _ _ _ leads => ?_, fun _ below later => ?_⟩
  · rw [← follows_empty] at inTurn
    exact inTurn.link grammar.symbols [] rfl (List.getElem?_eq_some_iff.mp found).1
      fun _ member => absurd member List.not_mem_nil
  · cases leads
  · exact absurd (Nat.lt_one_iff.mp below) later

end Turns

variable {grammar : Grammar}

/-- If all sets have rows, states lead where the rows lead. -/
theorem next_statesOf {sets : List ItemSet} {rows : List (SymbolMap Nat)}
    (full : rows.length = sets.length) : State.next (statesOf sets rows) = follows rows := by
  funext number symbol
  rcases Nat.lt_or_ge number sets.length with inside | outside
  · obtain ⟨row, found⟩ := exists_getElem?_statesOf full (List.getElem?_eq_getElem inside)
    rw [State.next, follows, found, (getElem?_statesOf.mp found).2.2]
    rfl
  · rw [State.next, follows, List.getElem?_eq_none, List.getElem?_eq_none]
    · rfl
    · rw [full]
      exact outside
    · rw [length_statesOf full]
      exact outside

/-- The states that are found from an item are numbered in turn. -/
theorem statesFrom_inTurn {start : Item} (owned : start.production ∈ grammar.productions) :
    grammar.InTurn (grammar.statesFrom start).length (State.next (grammar.statesFrom start)) := by
  obtain ⟨_, full⟩ := (explored_start owned).finish (Nat.le_refl (Nat.pow 2 grammar.itemCount))
  have inTurn := grammar.inTurn_explore start (Nat.pow 2 grammar.itemCount)
  rw [← next_statesOf full, ← length_statesOf full] at inTurn
  exact inTurn

/-! ### The order of strings -/

/-- A symbol stands before another in the alphabet. -/
def Before (grammar : Grammar) (one other : Symbol) : Prop :=
  grammar.symbols.idxOf one < grammar.symbols.idxOf other

instance : Std.Asymm grammar.Before :=
  ⟨fun _ _ before after => Nat.lt_asymm before after⟩

/-- A shorter string precedes a longer one, and of two strings of one length the one whose symbol
stands before the other's where they first differ. -/
def Precedes (grammar : Grammar) : List Symbol → List Symbol → Prop :=
  List.Shortlex grammar.Before

section Strings

variable {one other : List Symbol}

theorem Precedes.asymm (precedes : grammar.Precedes one other) : ¬ grammar.Precedes other one :=
  have asymmetric : Std.Asymm (List.Shortlex grammar.Before) := inferInstance
  asymmetric.asymm one other precedes

/-- Where strings differ already, what is put behind them is not decisive. -/
theorem Precedes.concat (precedes : grammar.Precedes one other) (first second : Symbol) :
    grammar.Precedes (one ++ [first]) (other ++ [second]) := by
  rcases List.shortlex_def.mp precedes with shorter | ⟨same, smaller⟩
  · refine .of_length_lt ?_
    rw [List.length_append, List.length_append]
    exact Nat.add_lt_add_right shorter 1
  · refine .of_lex (by rw [List.length_append, List.length_append, same]; rfl) ?_
    clear precedes
    induction smaller with
    | nil => cases same
    | cons _ inductionHypothesis => exact .cons (inductionHypothesis (Nat.succ.inj same))
    | rel before => exact .rel before

end Strings

/-! ### Access strings -/

/-- The least string of the alphabet that leads to a number from 0. -/
structure IsLeastAccess (grammar : Grammar) (states : List State) (number : Nat)
    (string : List Symbol) : Prop where
  alphabet : ∀ symbol ∈ string, symbol ∈ grammar.symbols
  leads : State.walk states 0 string = some number
  least : ∀ other, (∀ symbol ∈ other, symbol ∈ grammar.symbols) →
    State.walk states 0 other = some number → string = other ∨ grammar.Precedes string other

/-- A string of the alphabet that leads to a number and precedes all others that lead to this
number or to a larger one. -/
structure LeadsFirst (grammar : Grammar) (states : List State) (number : Nat)
    (string : List Symbol) : Prop where
  alphabet : ∀ symbol ∈ string, symbol ∈ grammar.symbols
  leads : State.walk states 0 string = some number
  ahead : ∀ other target, State.walk states 0 other = some target → number ≤ target →
    string = other ∨ grammar.Precedes string other

section Access

variable {start : Item} {states : List State}

theorem IsLeastAccess.unique {number : Nat} {one other : List Symbol}
    (first : grammar.IsLeastAccess states number one)
    (second : grammar.IsLeastAccess states number other) : one = other := by
  rcases first.least other second.alphabet second.leads with same | before
  · exact same
  · refine (second.least one first.alphabet first.leads).elim Eq.symm fun after => ?_
    exact absurd after before.asymm

theorem LeadsFirst.isLeastAccess {number : Nat} {string : List Symbol}
    (first : grammar.LeadsFirst states number string) :
    grammar.IsLeastAccess states number string :=
  ⟨first.alphabet, first.leads, fun other _ reached => first.ahead other number reached le_rfl⟩

theorem LeadsFirst.precedes {number target : Nat} {string other : List Symbol}
    (first : grammar.LeadsFirst states number string)
    (reached : State.walk states 0 other = some target) (below : number < target) :
    grammar.Precedes string other := by
  refine (first.ahead other target reached (Nat.le_of_lt below)).resolve_left ?_
  rintro rfl
  exact absurd (Option.some_inj.mp (first.leads.symm.trans reached)) (Nat.ne_of_lt below)

/-- The string of a parent with the symbol in whose turn a state was found precedes all others
that lead to the state or to one with a larger number. If the parents are one state, the symbols
decide. -/
theorem precedes_of_turn {parent middle : Nat} {symbol last : Symbol} {string front : List Symbol}
    (listed : symbol ∈ grammar.symbols) (walked : State.walk states 0 string = some parent)
    (reached : State.walk states 0 front = some middle)
    (parentLeast : parent ≤ middle → string = front ∨ grammar.Precedes string front)
    (first : grammar.turn parent symbol ≤ grammar.turn middle last) :
    string ++ [symbol] = front ++ [last] ∨
      grammar.Precedes (string ++ [symbol]) (front ++ [last]) := by
  rw [turn, turn, Prod.Lex.toLex_le_toLex] at first
  have order : parent ≤ middle := first.elim Nat.le_of_lt fun both => Nat.le_of_eq both.1
  rcases parentLeast order with rfl | precedes
  · rw [walked, Option.some_inj] at reached
    have place := (first.resolve_left (Nat.not_lt_of_ge (Nat.le_of_eq reached.symm))).2
    rcases Nat.lt_or_eq_of_le place with before | same
    · refine .inr (List.Shortlex.append_left ?_ string)
      exact (List.shortlex_singleton_iff _ _).mpr before
    · rw [(List.idxOf_inj listed).mp same]
      exact .inl rfl
  · exact .inr (precedes.concat symbol last)

theorem InTurn.leadsFirst (inTurn : grammar.InTurn states.length (State.next states))
    (listed : ∀ number symbol target, State.next states number symbol = some target →
      symbol ∈ grammar.symbols) (number : Nat) (inside : number < states.length) :
    ∃ string, grammar.LeadsFirst states number string := by
  induction number using Nat.strongRecOn with
  | ind number inductionHypothesis =>
    by_cases first : number = 0
    · rw [first]
      refine ⟨[], fun _ none => absurd none List.not_mem_nil, rfl, fun other _ _ _ => ?_⟩
      exact (List.shortlex_nil_or_eq_nil other).symm.imp_left Eq.symm
    · obtain ⟨parent, symbol, below, leads, earliest⟩ := inTurn.found number inside first
      obtain ⟨string, alphabet, walked, ahead⟩ :=
        inductionHypothesis parent below (below.trans inside)
      have symbolListed := listed parent symbol number leads
      refine ⟨string ++ [symbol], fun one member => ?_, ?_, fun other target reached above => ?_⟩
      · exact (List.mem_append.mp member).elim (alphabet one) fun last =>
          List.mem_singleton.mp last ▸ symbolListed
      · rw [State.walk_concat, walked, Option.bind_some, leads]
      · rcases List.eq_nil_or_concat other with rfl | ⟨front, last, rfl⟩
        · rw [← Option.some_inj.mp reached] at above
          exact absurd (Nat.le_zero.mp above) first
        · rw [List.concat_eq_append, State.walk_concat, Option.bind_eq_some_iff] at reached
          obtain ⟨middle, frontReached, lastLeads⟩ := reached
          rw [List.concat_eq_append]
          exact precedes_of_turn symbolListed walked frontReached (ahead front middle frontReached)
            (earliest middle last target lastLeads above)

/-- If all numbers have such strings, the least access strings come in the order of the numbers. -/
theorem lt_iff_precedes (canonical : grammar.Canonical start states)
    (leadsFirst : ∀ number < states.length, ∃ string, grammar.LeadsFirst states number string)
    {first second : Nat} {one other : List Symbol}
    (oneAccess : grammar.IsLeastAccess states first one)
    (otherAccess : grammar.IsLeastAccess states second other) :
    first < second ↔ grammar.Precedes one other := by
  have ordered {small large : Nat} {less more : List Symbol}
      (lessAccess : grammar.IsLeastAccess states small less)
      (moreAccess : grammar.IsLeastAccess states large more) (below : small < large) :
      grammar.Precedes less more := by
    obtain ⟨_, found⟩ := canonical.getElem?_walk lessAccess.leads
    obtain ⟨string, leads⟩ := leadsFirst small (List.getElem?_eq_some_iff.mp found).1
    rw [lessAccess.unique leads.isLeastAccess]
    exact leads.precedes moreAccess.leads below
  refine ⟨ordered oneAccess otherAccess, fun before => ?_⟩
  rcases Nat.lt_trichotomy first second with below | rfl | above
  · exact below
  · rw [oneAccess.unique otherAccess] at before
    exact absurd before before.asymm
  · exact absurd before (ordered otherAccess oneAccess above).asymm

end Access

theorem Collection.mem_symbols_of_next {start : Item} {states : List State}
    (collection : grammar.Collection start states) {number target : Nat} {symbol : Symbol}
    (leads : State.next states number symbol = some target) : symbol ∈ grammar.symbols := by
  obtain ⟨state, found, written⟩ := Option.bind_eq_some_iff.mp leads
  have member := SymbolMap.mem_keys_iff.mpr ⟨target, written⟩
  rw [collection.ordered state (List.mem_of_getElem? found)] at member
  exact (List.mem_filter.mp member).1

/-- The states of an automaton are numbered by their least access strings: shorter strings come
first, and strings of one length come in the order of the alphabet. -/
theorem numbering_shortlex {grammar : Grammar} (augmented : grammar.augmented = true) :
    ∃ states, grammar.automaton = .ok states ∧
      (∀ (number : Nat) (state : State), states[number]? = some state → state.id = number) ∧
      (∀ number < states.length, ∃! string, grammar.IsLeastAccess states number string) ∧
      ∀ first second one other, grammar.IsLeastAccess states first one →
        grammar.IsLeastAccess states second other →
        (first < second ↔ grammar.Precedes one other) := by
  have owned : (Item.start (grammar.startOf augmented)).production ∈ grammar.productions :=
    List.head_mem _
  have collection := statesFrom_collection owned
  have leadsFirst := (statesFrom_inTurn owned).leadsFirst
    fun _ _ _ => collection.mem_symbols_of_next
  refine ⟨_, dif_pos augmented, collection.numbered, fun number inside => ?_,
    fun first second one other oneAccess otherAccess => ?_⟩
  · obtain ⟨string, first⟩ := leadsFirst number inside
    exact ⟨string, first.isLeastAccess, fun _ other => other.unique first.isLeastAccess⟩
  · exact lt_iff_precedes collection.toCanonical leadsFirst oneAccess otherAccess

/-- A number with infinitely many strings that lead to it has one symbol as the least of them, and
so does the number before it. -/
theorem numbering_shortlex_train :
    ∃ states, train.augmented = true ∧ train.automaton = .ok states ∧ states.length = 5 ∧
      State.walk states 0 ["A", "A"] = some 2 ∧ train.IsLeastAccess states 1 ["a"] ∧
      train.IsLeastAccess states 2 ["A"] ∧ train.Precedes ["a"] ["A"] ∧
      ∃ one other, train.IsLeastAccess states 3 one ∧ train.IsLeastAccess states 4 other ∧
        train.Precedes ["A"] one ∧ train.Precedes one other := by
  obtain ⟨states, found, _, exist, order⟩ :=
    numbering_shortlex (show train.augmented = true from rfl)
  have evaluated : (train.automaton.toOption.map fun states => (states.length,
      State.walk states 0 ["A", "A"], train.symbols.map fun symbol =>
        State.walk states 0 [symbol])) = some (5, some 2, [none, some 1, none, some 2]) := by
    decide +kernel
  rw [found] at evaluated
  obtain ⟨five, rest⟩ := Prod.mk.inj (Option.some_inj.mp evaluated)
  obtain ⟨again, singles⟩ := Prod.mk.inj rest
  have alphabet : train.symbols = ["b", "a", "S", "A"] := by decide
  rw [alphabet] at singles
  simp only [List.map_cons, List.map_nil, List.cons.injEq, and_true] at singles
  obtain ⟨atB, atA, atS, atCapital⟩ := singles
  have single {symbol : Symbol} {number : Nat} (later : number ≠ 0)
      (listed : symbol ∈ train.symbols) (leads : State.walk states 0 [symbol] = some number)
      (only : ∀ other ∈ train.symbols, State.walk states 0 [other] = some number →
        other = symbol) : train.IsLeastAccess states number [symbol] := by
    refine ⟨fun one member => List.mem_singleton.mp member ▸ listed, leads, ?_⟩
    rintro (_ | ⟨first, _ | ⟨second, rest⟩⟩) inside reached
    · exact absurd (Option.some_inj.mp reached).symm later
    · rw [only first (inside first List.mem_cons_self) reached]
      exact .inl rfl
    · exact .inr (.of_length_lt (Nat.succ_lt_succ (Nat.succ_pos _)))
  have first : train.IsLeastAccess states 1 ["a"] := by
    refine single Nat.one_ne_zero (by decide) atA ?_
    simp [alphabet, atB, atS, atCapital]
  have second : train.IsLeastAccess states 2 ["A"] := by
    refine single (Nat.succ_ne_zero 1) (by decide) atCapital ?_
    simp [alphabet, atB, atS, atA]
  obtain ⟨one, third, _⟩ := exist 3 (by omega)
  obtain ⟨other, fourth, _⟩ := exist 4 (by omega)
  exact ⟨states, rfl, found, five, again, first, second,
    (order 1 2 _ _ first second).mp (by decide), one, other, third, fourth,
    (order 2 3 _ _ second third).mp (by decide), (order 3 4 _ _ third fourth).mp (by decide)⟩

end Grammar

end ShiftReduce
