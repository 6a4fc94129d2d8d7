/-
This file proves that augmenting a grammar adds a start production and changes nothing else. The
other productions move up by one id, and the fresh symbol is the only new one. It heads the start
production and stands in no body, so it occurs in no string that is derived from old symbols, and
old symbols derive what they derived before. FIRST and FOLLOW sets are determined by what is
derived, so the old symbols keep their sets as well, although the passes that compute them do not
line up.
-/

import ShiftReduce.Proofs.FollowExact

namespace ShiftReduce

namespace Grammar

/-- One symbol can only be replaced by the body of a production that it heads. -/
theorem Replaces.of_single {grammar : Grammar} {symbol : Symbol} {string : List Symbol}
    (replaced : grammar.Replaces [symbol] string) :
    ∃ production ∈ grammar.productionsFor symbol, string = production.body := by
  generalize same : [symbol] = whole at replaced
  obtain ⟨before, after, production, member⟩ := replaced
  rcases List.cons_eq_append_iff.mp same with ⟨rfl, here⟩ | ⟨_, _, later⟩
  · obtain ⟨headed, rfl⟩ := List.cons.inj here
    exact ⟨production, mem_productionsFor.mpr ⟨member, headed⟩, List.append_nil _⟩
  · exact absurd later.symm (List.append_ne_nil_of_right_ne_nil _ (List.cons_ne_nil _ _))

namespace Augments

section Derivations

variable {grammar augmented : Grammar} {start symbol member : Symbol} {string other : List Symbol}

/-! ### What is derived -/

theorem replaces (augments : grammar.Augments augmented start)
    (replaced : grammar.Replaces string other) : augmented.Replaces string other := by
  obtain ⟨before, after, production, productionMember⟩ := replaced
  exact .once before after (moved production) (augments.moved_mem productionMember)

theorem derives (augments : grammar.Augments augmented start)
    (derived : grammar.Derives string other) : augmented.Derives string other := by
  induction derived with
  | refl => exact .refl _
  | tail _ replaced inductionHypothesis =>
    exact .tail inductionHypothesis (augments.replaces replaced)

/-- Where the fresh symbol is absent only old productions apply, and they do not bring it in. -/
theorem replaces_without (augments : grammar.Augments augmented start)
    (absent : grammar.freshStart start ∉ string) (replaced : augmented.Replaces string other) :
    grammar.Replaces string other ∧ grammar.freshStart start ∉ other := by
  obtain ⟨before, after, production, productionMember⟩ := replaced
  have unused := augments.not_mem_body productionMember
  rcases augments.mem_productions.mp productionMember with rfl | ⟨old, oldMember, rfl⟩
  · exact absurd (List.mem_append_right _ List.mem_cons_self) absent
  · rw [List.mem_append, not_or, List.mem_cons, not_or] at absent
    refine ⟨.once before after old oldMember, ?_⟩
    rw [List.mem_append, List.mem_append, not_or, not_or]
    exact ⟨⟨absent.1, unused⟩, absent.2.2⟩

theorem derives_without (augments : grammar.Augments augmented start)
    (absent : grammar.freshStart start ∉ string) (derived : augmented.Derives string other) :
    grammar.Derives string other ∧ grammar.freshStart start ∉ other := by
  induction derived with
  | refl => exact ⟨.refl _, absent⟩
  | tail _ replaced inductionHypothesis =>
    obtain ⟨before, stillAbsent⟩ := inductionHypothesis
    obtain ⟨last, finallyAbsent⟩ := augments.replaces_without stillAbsent replaced
    exact ⟨.tail before last, finallyAbsent⟩

theorem freshStart_not_mem_of_old (old : ∀ symbol ∈ string, symbol ∈ grammar.symbols) :
    grammar.freshStart start ∉ string :=
  fun inside => grammar.freshStart_not_mem start (old _ inside)

/-- Old symbols derive what they derived before. -/
theorem derives_iff (augments : grammar.Augments augmented start)
    (old : ∀ symbol ∈ string, symbol ∈ grammar.symbols) :
    augmented.Derives string other ↔ grammar.Derives string other :=
  ⟨fun derived => (augments.derives_without (freshStart_not_mem_of_old old) derived).1,
    augments.derives⟩

theorem start_mem_symbols (augments : grammar.Augments augmented start) :
    start ∈ grammar.symbols :=
  mem_symbols_iff.mpr (.inr (startSymbol_isNonTerminal augments.started))

/-- What the old start symbol derives is free of the fresh symbol. -/
theorem freshStart_not_mem_of_derives (augments : grammar.Augments augmented start)
    (derived : grammar.Derives [start] string) : grammar.freshStart start ∉ string :=
  freshStart_not_mem_of_old
    (derived.mem_symbols (List.forall_mem_singleton.mpr augments.start_mem_symbols))

/-- The fresh symbol derives itself and what the old start symbol derives. -/
theorem derives_freshStart_iff (augments : grammar.Augments augmented start) :
    augmented.Derives [grammar.freshStart start] string ↔
      string = [grammar.freshStart start] ∨ grammar.Derives [start] string := by
  constructor
  · intro derived
    induction derived with
    | refl => exact .inl rfl
    | tail _ replaced inductionHypothesis =>
      rcases inductionHypothesis with rfl | before
      · obtain ⟨production, headed, rfl⟩ := replaced.of_single
        rw [augments.mem_productionsFor_freshStart.mp headed]
        exact .inr (.refl _)
      · have absent := augments.freshStart_not_mem_of_derives before
        exact .inr (.tail before (augments.replaces_without absent replaced).1)
  · rintro (rfl | derived)
    · exact .refl _
    · exact (Derives.single augments.root_mem).trans (augments.derives derived)

/-! ### What strings start with -/

theorem starts_iff (augments : grammar.Augments augmented start)
    (old : ∀ symbol ∈ string, symbol ∈ grammar.symbols) :
    augmented.Starts string member ↔ grammar.Starts string member := by
  simp only [Starts, augments.isTerminal_iff_isTerminal, augments.derives_iff old]

/-- The fresh symbol starts with what the old start symbol starts with. -/
theorem starts_freshStart_iff (augments : grammar.Augments augmented start) :
    augmented.Starts [grammar.freshStart start] member ↔ grammar.Starts [start] member := by
  simp only [Starts, augments.isTerminal_iff_isTerminal, augments.derives_freshStart_iff]
  constructor
  · rintro (⟨terminal, rest, same | derived⟩ | ⟨empty, same | derived⟩)
    · obtain ⟨rfl, _⟩ := List.cons.inj same
      exact absurd (mem_symbols_iff.mpr (.inl terminal)) (grammar.freshStart_not_mem start)
    · exact .inl ⟨terminal, rest, derived⟩
    · cases same
    · exact .inr ⟨empty, derived⟩
  · exact Or.imp (.imp_right fun ⟨rest, derived⟩ => ⟨rest, .inr derived⟩) (.imp_right .inr)

/-! ### What stands behind symbols -/

/-- An old symbol is followed by what it was followed by before. -/
theorem trails_iff (augments : grammar.Augments augmented start)
    (old : symbol ∈ grammar.symbols) :
    augmented.Trails symbol member ↔ grammar.Trails symbol member := by
  have other : symbol ≠ grammar.freshStart start := fun same =>
    grammar.freshStart_not_mem start (same ▸ old)
  have derived_start {before after : List Symbol}
      (derived : augmented.Derives [grammar.freshStart start] (before ++ symbol :: after)) :
      grammar.Derives [start] (before ++ symbol :: after) := by
    refine (augments.derives_freshStart_iff.mp derived).resolve_left fun same => other ?_
    exact List.mem_singleton.mp (same ▸ List.mem_append_right _ List.mem_cons_self)
  constructor
  · rintro (⟨terminal, head, before, after, headed, derived⟩ |
      ⟨ending, top, before, begins, derived⟩)
    · rw [augments.isTerminal_iff_isTerminal] at terminal
      rcases (augments.isNonTerminal_iff_or head).mp headed with rfl | oldHead
      · exact .inl ⟨terminal, start, before, after, startSymbol_isNonTerminal augments.started,
          derived_start derived⟩
      · refine .inl ⟨terminal, head, before, after, oldHead, (augments.derives_iff ?_).mp derived⟩
        exact List.forall_mem_singleton.mpr (mem_symbols_iff.mpr (.inr oldHead))
    · rw [augments.startSymbol_eq, Option.some_inj] at begins
      subst begins
      exact .inr ⟨ending, start, before, augments.started, derived_start derived⟩
  · rintro (⟨terminal, head, before, after, headed, derived⟩ |
      ⟨ending, top, before, begins, derived⟩)
    · exact .inl ⟨(augments.isTerminal_iff_isTerminal member).mpr terminal, head, before, after,
        (augments.isNonTerminal_iff_or head).mpr (.inr headed), augments.derives derived⟩
    · rw [augments.started, Option.some_inj] at begins
      subst begins
      exact .inr ⟨ending, _, before, augments.startSymbol_eq,
        augments.derives_freshStart_iff.mpr (.inr derived)⟩

/-- Nothing but the end of the input follows the fresh symbol. -/
theorem trails_freshStart_iff (augments : grammar.Augments augmented start) :
    augmented.Trails (grammar.freshStart start) member ↔ member = Symbol.endMarker := by
  constructor
  · rintro (⟨_, head, before, after, headed, derived⟩ | ⟨ending, _⟩)
    · have inside : grammar.freshStart start ∈
          before ++ grammar.freshStart start :: member :: after :=
        List.mem_append_right _ List.mem_cons_self
      rcases (augments.isNonTerminal_iff_or head).mp headed with rfl | oldHead
      · rcases augments.derives_freshStart_iff.mp derived with same | fromStart
        · have lengths := congrArg List.length same
          rw [List.length_append, List.length_cons, List.length_cons, List.length_singleton]
            at lengths
          omega
        · exact absurd inside (augments.freshStart_not_mem_of_derives fromStart)
      · refine absurd inside (augments.derives_without (freshStart_not_mem_of_old ?_) derived).2
        exact List.forall_mem_singleton.mpr (mem_symbols_iff.mpr (.inr oldHead))
    · exact ending
  · rintro rfl
    exact .inr ⟨rfl, _, [], augments.startSymbol_eq, .refl _⟩

end Derivations

/-! ### Symbols in order -/

section Symbols

variable {grammar augmented : Grammar} {start : Symbol}

theorem nonTerminals_eq (augments : grammar.Augments augmented start) :
    augmented.nonTerminals = grammar.freshStart start :: grammar.nonTerminals := by
  have heads : (grammar.productions.map moved).map Production.head =
      grammar.productions.map Production.head := List.map_map
  have others : (grammar.productions.map Production.head).filter
      (fun head => !head == grammar.freshStart start) =
        grammar.productions.map Production.head := by
    refine List.filter_eq_self.mpr fun head listed => ?_
    obtain ⟨production, member, rfl⟩ := List.mem_map.mp listed
    rw [beq_eq_false_iff_ne.mpr (head_ne_freshStart member)]
    rfl
  rw [nonTerminals, augments.productions, List.map_cons, heads, List.eraseDups_cons]
  exact congrArg (fun rest => grammar.freshStart start :: List.eraseDups rest) others

theorem terminals_eq (augments : grammar.Augments augmented start) :
    augmented.terminals = grammar.terminals := by
  have bodies : augmented.productions.flatMap Production.body =
      start :: grammar.productions.flatMap Production.body := by
    rw [augments.productions, List.flatMap_cons, List.flatMap_map]
    rfl
  have oldStart : augmented.isNonTerminal start = true :=
    (augments.isNonTerminal_iff_or start).mpr (.inr (startSymbol_isNonTerminal augments.started))
  rw [terminals, bodies, List.filter_cons, oldStart, terminals]
  refine congrArg List.eraseDups (List.filter_congr fun symbol listed => ?_)
  obtain ⟨production, member, inside⟩ := List.mem_flatMap.mp listed
  have other : symbol ≠ grammar.freshStart start := by
    rintro rfl
    exact grammar.freshStart_not_mem start (mem_symbols_iff.mpr (body_symbol member inside))
  refine congrArg Bool.not (Bool.eq_iff_iff.mpr ?_)
  rw [augments.isNonTerminal_iff_or, or_iff_right other]

theorem mem_symbols_of_mem (augments : grammar.Augments augmented start) {symbol : Symbol}
    (old : symbol ∈ grammar.symbols) : symbol ∈ augmented.symbols := by
  rw [mem_symbols_iff] at old ⊢
  rw [augments.isTerminal_iff_isTerminal, augments.isNonTerminal_iff_or]
  exact old.imp_right .inr

end Symbols

end Augments

/-! ### The augmentation and its sets -/

/-- A start symbol with the least positive number of apostrophes that makes it new. -/
def IsFresh (grammar : Grammar) (start fresh : Symbol) : Prop :=
  ∃ count, 1 ≤ count ∧ fresh = primes count start ∧ fresh ∉ grammar.symbols ∧
    ∀ earlier, 1 ≤ earlier → earlier < count → primes earlier start ∈ grammar.symbols

theorem freshStart_isFresh (grammar : Grammar) (start : Symbol) :
    grammar.IsFresh start (grammar.freshStart start) := by
  obtain ⟨count, same, new, taken⟩ := grammar.freshStart_eq_primes start
  refine ⟨count + 1, Nat.succ_pos _, same, same ▸ new, fun earlier positive below => ?_⟩
  obtain ⟨before, rfl⟩ := Nat.exists_eq_add_one_of_ne_zero (Nat.ne_zero_of_lt positive)
  exact taken before (Nat.lt_of_succ_lt_succ below)

/-- A start production in front of the productions of a grammar, which keep their order, and a
fresh symbol in front of its non-terminals. Strings of old symbols derive what they derived. -/
structure Conserves (grammar augmented : Grammar) (start fresh : Symbol) : Prop where
  flagged : augmented.augmented = true
  started : augmented.startSymbol = some fresh
  root : augmented.productions[0]? = some ⟨0, fresh, [start]⟩
  moved : ∀ place, augmented.productions[place + 1]? =
    grammar.productions[place]?.map fun production =>
      ⟨place + 1, production.head, production.body⟩
  alone : ∀ production ∈ augmented.productions, production.head = fresh → production.id = 0
  unused : ∀ production ∈ augmented.productions, fresh ∉ production.body
  terminals : augmented.terminals = grammar.terminals
  nonTerminals : augmented.nonTerminals = fresh :: grammar.nonTerminals
  derives : ∀ string other, (∀ symbol ∈ string, symbol ∈ grammar.symbols) →
    (augmented.Derives string other ↔ grammar.Derives string other)

/-- The sets of an augmented grammar, beside those of the grammar: old symbols have the sets
they had, the fresh symbol starts like the old start symbol, and only the end of the input
follows it. -/
structure ConservesSets (grammar : Grammar) (start fresh : Symbol)
    (sets augmentedSets : LookaheadSets) : Prop where
  first : ∀ symbol ∈ grammar.symbols, ∃ set, sets.first.get? symbol = some set ∧
    augmentedSets.first.get? symbol = some set
  follow : ∀ symbol ∈ grammar.symbols,
    augmentedSets.follow.get? symbol = sets.follow.get? symbol
  followed : ∀ symbol ∈ grammar.nonTerminals, ∃ set, sets.follow.get? symbol = some set
  freshFirst : ∃ set, sets.first.get? start = some set ∧
    augmentedSets.first.get? fresh = some set
  freshFollow : augmentedSets.follow.get? fresh = some (SymbolSet.only Symbol.endMarker)

namespace Augments

variable {grammar augmented : Grammar} {start : Symbol} {sets augmentedSets : LookaheadSets}

theorem conserves (augments : grammar.Augments augmented start) :
    grammar.Conserves augmented start (grammar.freshStart start) where
  flagged := augments.flagged
  started := augments.startSymbol_eq
  root := by
    rw [augments.productions]
    rfl
  moved place := by
    rw [augments.productions, List.getElem?_cons_succ, List.getElem?_map]
    cases found : grammar.productions[place]? with
    | none => rfl
    | some production =>
      have dense := grammar.wellFormed.dense place production found
      rw [Option.map_some, Option.map_some, Grammar.moved, dense]
  alone production member headed := by
    have listed := mem_productionsFor.mpr ⟨member, headed⟩
    rw [augments.mem_productionsFor_freshStart.mp listed]
    rfl
  unused _ member := augments.not_mem_body member
  terminals := augments.terminals_eq
  nonTerminals := augments.nonTerminals_eq
  derives _ _ old := augments.derives_iff old

/-- Exact sets of both grammars agree, as they are determined by what is derived. -/
theorem conservesSets (augments : grammar.Augments augmented start)
    (exact : grammar.ExactSets sets) (augmentedExact : augmented.ExactSets augmentedSets) :
    grammar.ConservesSets start (grammar.freshStart start) sets augmentedSets where
  first symbol old := by
    obtain ⟨set, found⟩ := exact.first_exists old
    refine ⟨set, found, found ▸ augmentedExact.first_eq exact ?_ fun _ => ?_⟩
    · exact iff_of_true (augments.mem_symbols_of_mem old) old
    · exact augments.starts_iff (List.forall_mem_singleton.mpr old)
  follow symbol old := by
    have other : symbol ≠ grammar.freshStart start := fun same =>
      grammar.freshStart_not_mem start (same ▸ old)
    refine augmentedExact.follow_eq exact ?_ fun _ => augments.trails_iff old
    rw [augments.nonTerminals_eq, List.mem_cons, or_iff_right other]
  followed symbol headed := exact.covers symbol ((isNonTerminal_iff _ _).mpr headed)
  freshFirst := by
    obtain ⟨set, found⟩ := exact.first_exists augments.start_mem_symbols
    refine ⟨set, found, found ▸ augmentedExact.first_eq exact ?_ fun _ => ?_⟩
    · exact iff_of_true (mem_symbols_iff.mpr (.inr (startSymbol_isNonTerminal
        augments.startSymbol_eq))) augments.start_mem_symbols
    · exact augments.starts_freshStart_iff
  freshFollow := by
    obtain ⟨set, found⟩ := augmentedExact.covers _ (startSymbol_isNonTerminal
      augments.startSymbol_eq)
    rw [found, Option.some_inj]
    refine SymbolSet.ext fun member => ?_
    simp [augmentedExact.follow _ set found, augments.trails_freshStart_iff]

end Augments

/-- Augmenting a grammar that has productions ends, with a fresh start symbol, and conserves the
grammar: its productions, its symbols, what they derive, and the sets that are computed for
them. -/
theorem augment_conserves {grammar : Grammar} (plain : grammar.augmented = false)
    (nonempty : grammar.productions ≠ []) :
    ∃ augmented start fresh, ∃ sets augmentedSets : LookaheadSets,
      grammar.startSymbol = some start ∧ grammar.augment = .ok augmented ∧
      (∀ more, primed grammar.symbols (grammar.symbols.length + more) start = fresh) ∧
      grammar.IsFresh start fresh ∧ grammar.Conserves augmented start fresh ∧
      grammar.first = .ok sets.first ∧ grammar.follow sets.first = .ok sets.follow ∧
      augmented.first = .ok augmentedSets.first ∧
      augmented.follow augmentedSets.first = .ok augmentedSets.follow ∧
      grammar.ConservesSets start fresh sets augmentedSets := by
  obtain ⟨augmented, start, found, augments⟩ := augment_exists plain nonempty
  obtain ⟨sets, first, follow, _, exact⟩ := grammar.exactSets_exists
  obtain ⟨augmentedSets, augmentedFirst, augmentedFollow, _, augmentedExact⟩ :=
    augmented.exactSets_exists
  exact ⟨augmented, start, grammar.freshStart start, sets, augmentedSets, augments.started, found,
    primed_more (grammar.freshStart_not_mem start), grammar.freshStart_isFresh start,
    augments.conserves, first, follow, augmentedFirst, augmentedFollow,
    augments.conservesSets exact augmentedExact⟩

/-- A start symbol that stands in its own body, and two of its primed forms that are taken: one
by a terminal and one by a head. -/
def decorated : Grammar :=
  ⟨[⟨0, "S", ["S''", "S"]⟩, ⟨1, "S", []⟩, ⟨2, "S''", ["S'"]⟩], false,
    (faultOf_eq_none_iff _ _).mp (by decide)⟩

/-- The third apostrophe makes the start symbol new. -/
theorem augment_conserves_decorated :
    ∃ augmented, ∃ sets augmentedSets : LookaheadSets,
      decorated.augmented = false ∧ decorated.productions ≠ [] ∧
      decorated.augment = .ok augmented ∧ decorated.IsFresh "S" "S'''" ∧
      decorated.Conserves augmented "S" "S'''" ∧ augmented.productions.length = 4 ∧
      decorated.first = .ok sets.first ∧ augmented.first = .ok augmentedSets.first ∧
      (augmentedSets.first.get? "S'''").map SymbolSet.members = some ["S'", "ε"] ∧
      decorated.ConservesSets "S" "S'''" sets augmentedSets := by
  obtain ⟨augmented, start, fresh, sets, augmentedSets, started, found, ends, new, conserves, first,
    _, augmentedFirst, _, same⟩ := @augment_conserves decorated rfl (List.cons_ne_nil _ _)
  obtain rfl : "S" = start := Option.some_inj.mp started
  obtain rfl : "S'''" = fresh := (show _ = "S'''" by decide +kernel).symm.trans (ends 0)
  have evaluated : (decorated.augment.toOption.bind fun augmented =>
      augmented.first.toOption.map fun first => (augmented.productions.length,
        (first.get? "S'''").map SymbolSet.members)) = some (4, some ["S'", "ε"]) := by
    decide +kernel
  rw [found] at evaluated
  change (augmented.first.toOption.map _) = _ at evaluated
  rw [augmentedFirst] at evaluated
  obtain ⟨long, members⟩ := Prod.mk.inj (Option.some_inj.mp evaluated)
  exact ⟨augmented, sets, augmentedSets, rfl, List.cons_ne_nil _ _, found, new, conserves, long,
    first, augmentedFirst, members, same⟩

end Grammar

end ShiftReduce
