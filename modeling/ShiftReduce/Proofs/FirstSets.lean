/-
This file proves that the passes over FIRST sets settle, and that the sets they settle on
cover what trees start with. Every pass keeps the alphabet of the map, the sets of terminals,
and the terminals and the empty word as the only members, which bounds the members there can
be. A map that a pass leaves alone is closed: the set of a head holds what its bodies can
start with. In a closed map the first token of a tree is in the set of its root, and the
empty word is if there are no tokens, by induction on the tree.
-/

import ShiftReduce.Proofs.Lists
import ShiftReduce.Proofs.Settling
import ShiftReduce.Proofs.Trees

namespace ShiftReduce

/-! ### FIRST of a string -/

section Strings

variable {first : SetMap} {symbol : Symbol} {here : SymbolSet} {string : List Symbol}

theorem firstOf_cons_of_not_mem (found : first.get? symbol = some here)
    (visible : Symbol.epsilon ∉ here) : firstOf first (symbol :: string) = .ok here := by
  rw [firstOf, SymbolMap.lookup_eq_ok_iff.mpr found]
  exact if_neg visible

theorem firstOf_cons_of_mem (found : first.get? symbol = some here)
    (vanishes : Symbol.epsilon ∈ here) {later : SymbolSet}
    (read : firstOf first string = .ok later) :
    firstOf first (symbol :: string) = .ok (here.erase Symbol.epsilon ∪ later) := by
  rw [firstOf, SymbolMap.lookup_eq_ok_iff.mpr found, read]
  exact if_pos vanishes

/-- FIRST of a string whose symbols all have sets holds nothing but members of these sets and
the empty word. -/
theorem firstOf_exists (covered : ∀ symbol ∈ string, ∃ set, first.get? symbol = some set) :
    ∃ set, firstOf first string = .ok set ∧ ∀ member ∈ set, member = Symbol.epsilon ∨
      ∃ symbol ∈ string, ∃ here, first.get? symbol = some here ∧ member ∈ here := by
  induction string with
  | nil => exact ⟨_, rfl, fun member inside => .inl (SymbolSet.mem_only.mp inside)⟩
  | cons symbol rest inductionHypothesis =>
    obtain ⟨here, found⟩ := covered symbol List.mem_cons_self
    obtain ⟨later, read, members⟩ :=
      inductionHypothesis fun other member => covered other (List.mem_cons_of_mem _ member)
    by_cases vanishes : Symbol.epsilon ∈ here
    · refine ⟨_, firstOf_cons_of_mem found vanishes read, fun member inside => ?_⟩
      simp only [SymbolSet.mem_union, SymbolSet.mem_erase] at inside
      rcases inside with ⟨own, _⟩ | ofRest
      · exact .inr ⟨symbol, List.mem_cons_self, here, found, own⟩
      · refine (members member ofRest).imp_right ?_
        rintro ⟨other, otherMember, set, otherFound, inOther⟩
        exact ⟨other, List.mem_cons_of_mem _ otherMember, set, otherFound, inOther⟩
    · exact ⟨here, firstOf_cons_of_not_mem found vanishes, fun member inside =>
        .inr ⟨symbol, List.mem_cons_self, here, found, inside⟩⟩

end Strings

namespace Grammar

/-! ### The alphabet -/

theorem nodup_symbols (grammar : Grammar) : grammar.symbols.Nodup := by
  refine List.nodup_append.mpr ⟨nodup_eraseDups _, nodup_eraseDups _, ?_⟩
  rintro symbol terminal other nonTerminal rfl
  exact not_isNonTerminal_of_isTerminal ((grammar.isTerminal_iff symbol).mpr terminal)
    ((grammar.isNonTerminal_iff symbol).mpr nonTerminal)

theorem epsilon_not_isTerminal (grammar : Grammar) :
    ¬ grammar.isTerminal Symbol.epsilon = true :=
  fun terminal => not_reserved_of_isTerminal terminal Symbol.epsilon_reserved

/-! ### What every pass keeps -/

/-- The maps that passes over FIRST sets go through. -/
structure KeepsFirst (grammar : Grammar) (first : SetMap) : Prop where
  keys : first.keys = grammar.symbols
  terminals : ∀ symbol, grammar.isTerminal symbol = true →
    first.get? symbol = some (SymbolSet.only symbol)
  members : ∀ symbol set, first.get? symbol = some set → ∀ member ∈ set,
    member = Symbol.epsilon ∨ grammar.isTerminal member = true

/-- The set of every head holds what its bodies can start with. -/
structure ClosedFirst (grammar : Grammar) (first : SetMap) : Prop where
  terminals : ∀ symbol, grammar.isTerminal symbol = true →
    first.get? symbol = some (SymbolSet.only symbol)
  productions : ∀ production ∈ grammar.productions, ∃ known found,
    first.get? production.head = some known ∧ firstOf first production.body = .ok found ∧
      ∀ member ∈ found, member ∈ known

section Passes

variable {grammar : Grammar} {first : SetMap}

theorem KeepsFirst.covered (keeps : grammar.KeepsFirst first) {symbol : Symbol}
    (member : symbol ∈ grammar.symbols) : ∃ set, first.get? symbol = some set := by
  rw [← keeps.keys] at member
  exact SymbolMap.mem_keys_iff.mp member

theorem KeepsFirst.firstOf_exists (keeps : grammar.KeepsFirst first) {string : List Symbol}
    (inside : ∀ symbol ∈ string, symbol ∈ grammar.symbols) :
    ∃ set, firstOf first string = .ok set ∧ ∀ member ∈ set,
      member = Symbol.epsilon ∨ grammar.isTerminal member = true := by
  obtain ⟨set, read, members⟩ :=
    ShiftReduce.firstOf_exists fun symbol member => keeps.covered (inside symbol member)
  refine ⟨set, read, fun member inSet => ?_⟩
  rcases members member inSet with empty | ⟨symbol, _, here, found, inHere⟩
  · exact .inl empty
  · exact keeps.members symbol here found member inHere

theorem initialFirst_keys (grammar : Grammar) :
    ((grammar.terminals.map (fun symbol => (symbol, SymbolSet.only symbol)) ++
      grammar.nonTerminals.map fun symbol => (symbol, (∅ : SymbolSet))).map Prod.fst) =
        grammar.symbols := by
  rw [List.map_append, List.map_map, List.map_map]
  exact congrArg₂ _ (List.map_id _) (List.map_id _)

/-- Initially a terminal has itself, and a non-terminal nothing. -/
theorem get?_initialFirst {grammar : Grammar} {symbol : Symbol} {set : SymbolSet} :
    grammar.initialFirst.get? symbol = some set ↔
      grammar.isTerminal symbol = true ∧ set = SymbolSet.only symbol ∨
        grammar.isNonTerminal symbol = true ∧ set = ∅ := by
  have different := grammar.nodup_symbols
  rw [← grammar.initialFirst_keys] at different
  rw [initialFirst, SymbolMap.get?_ofList_eq_some_iff different, List.mem_append, List.mem_map,
    List.mem_map, isTerminal_iff, isNonTerminal_iff]
  constructor
  · rintro (⟨_, listed, same⟩ | ⟨_, listed, same⟩)
    · obtain ⟨rfl, rfl⟩ := Prod.mk.inj same
      exact .inl ⟨listed, rfl⟩
    · obtain ⟨rfl, rfl⟩ := Prod.mk.inj same
      exact .inr ⟨listed, rfl⟩
  · rintro (⟨listed, rfl⟩ | ⟨listed, rfl⟩)
    · exact .inl ⟨symbol, listed, rfl⟩
    · exact .inr ⟨symbol, listed, rfl⟩

theorem initialFirst_keeps (grammar : Grammar) : grammar.KeepsFirst grammar.initialFirst := by
  constructor
  · have different := grammar.nodup_symbols
    rw [← grammar.initialFirst_keys] at different
    rw [initialFirst, SymbolMap.keys_ofList different, initialFirst_keys]
  · exact fun symbol terminal => get?_initialFirst.mpr (.inl ⟨terminal, rfl⟩)
  · intro symbol set found member inside
    rcases get?_initialFirst.mp found with ⟨terminal, rfl⟩ | ⟨_, rfl⟩
    · rw [SymbolSet.mem_only.mp inside]
      exact .inr terminal
    · exact absurd inside (SymbolSet.not_mem_empty member)

theorem firstStep_grows (keeps : grammar.KeepsFirst first) {production : Production}
    (member : production ∈ grammar.productions) :
    ∃ known found, first.get? production.head = some known ∧
      firstOf first production.body = .ok found ∧
      firstStep first production = .ok (first.insert production.head (known ∪ found)) ∧
      grammar.KeepsFirst (first.insert production.head (known ∪ found)) ∧
      first.Within (first.insert production.head (known ∪ found)) := by
  have headed := head_mem_nonTerminals member
  have listed : production.head ∈ grammar.symbols := mem_symbols_iff.mpr (.inr headed)
  obtain ⟨known, knownFound⟩ := keeps.covered listed
  obtain ⟨found, read, members⟩ :=
    keeps.firstOf_exists fun symbol inside => mem_symbols_iff.mpr (body_symbol member inside)
  have present : production.head ∈ first.keys := SymbolMap.mem_keys_iff.mpr ⟨known, knownFound⟩
  refine ⟨known, found, knownFound, read, ?_, ⟨?_, fun symbol terminal => ?_,
    fun symbol set inserted other inside => ?_⟩,
    SetMap.within_insert knownFound fun _ old => SymbolSet.mem_union.mpr (.inl old)⟩
  · rw [firstStep, SymbolMap.lookup_eq_ok_iff.mpr knownFound, read]
    rfl
  · rw [SymbolMap.keys_insert_of_mem present, keeps.keys]
  · have different : symbol ≠ production.head := fun same =>
      not_isNonTerminal_of_isTerminal terminal (same ▸ headed)
    rw [SymbolMap.get?_insert_other _ different, keeps.terminals symbol terminal]
  · rcases SymbolMap.get?_insert_eq_some_iff.mp inserted with ⟨rfl, rfl⟩ | ⟨_, inserted⟩
    · rcases SymbolSet.mem_union.mp inside with old | new
      · exact keeps.members _ known knownFound other old
      · exact members other new
    · exact keeps.members symbol set inserted other inside

/-- A map that a pass leaves alone is closed. -/
theorem firstPass_grows (keeps : grammar.KeepsFirst first) :
    ∃ next, grammar.firstPass first = .ok next ∧ grammar.KeepsFirst next ∧ first.Within next ∧
      (next = first → grammar.ClosedFirst first) := by
  obtain ⟨next, passed, nextKeeps, within, still⟩ :=
    SetMap.foldlM_grows grammar.productions
      (fun production member sets setsKeep => by
        obtain ⟨_, _, _, _, stepped, nextKeeps, grown⟩ := firstStep_grows setsKeep member
        exact ⟨_, stepped, nextKeeps, grown⟩) keeps
  refine ⟨next, passed, nextKeeps, within, fun same =>
    ⟨keeps.terminals, fun production member => ?_⟩⟩
  obtain ⟨known, found, knownFound, read, stepped, _⟩ := firstStep_grows keeps member
  refine ⟨known, found, knownFound, read, fun other inside => ?_⟩
  have unchanged := still same production member
  rw [stepped] at unchanged
  have full : first.get? production.head = some (known ∪ found) :=
    (congrArg (SymbolMap.get? · production.head) (Except.ok.inj unchanged)).symm.trans
      (SymbolMap.get?_insert_self _ _ _)
  rw [knownFound, Option.some_inj] at full
  rw [full]
  exact SymbolSet.mem_union.mpr (.inr inside)

/-! ### How many members there can be -/

theorem sum_terminals (keeps : grammar.KeepsFirst first) :
    (grammar.terminals.map first.sizeAt).sum = grammar.terminals.length := by
  have sizes : grammar.terminals.map first.sizeAt = grammar.terminals.map fun _ => 1 := by
    refine List.map_congr_left fun symbol listed => ?_
    rw [SetMap.sizeAt, keeps.terminals symbol ((grammar.isTerminal_iff symbol).mpr listed)]
    rfl
  rw [sizes, List.map_const', List.sum_replicate, Nat.nsmul_eq_mul, Nat.mul_one]

theorem KeepsFirst.volume_eq (keeps : grammar.KeepsFirst first) :
    first.volume =
      grammar.terminals.length + (grammar.nonTerminals.map first.sizeAt).sum := by
  rw [SetMap.volume, keeps.keys, symbols, List.map_append, List.sum_append, sum_terminals keeps]

theorem KeepsFirst.volume_le (keeps : grammar.KeepsFirst first) :
    first.volume ≤ grammar.terminals.length +
      grammar.nonTerminals.length * (grammar.terminals.length + 1) := by
  rw [keeps.volume_eq]
  refine Nat.add_le_add_left (SetMap.sum_sizeAt_le (Symbol.epsilon ::
    grammar.terminals) fun symbol _ set found member inside => ?_) _
  rcases keeps.members symbol set found member inside with rfl | terminal
  · exact List.mem_cons_self
  · exact List.mem_cons_of_mem _ ((grammar.isTerminal_iff member).mp terminal)

end Passes

/-- The passes settle within their rounds, on closed sets. These keep what every visit to a
production keeps. -/
theorem first_climbs (grammar : Grammar) (Keeps : SetMap → Prop)
    (initially : Keeps grammar.initialFirst)
    (visited : ∀ production ∈ grammar.productions, ∀ first known found, Keeps first →
      first.get? production.head = some known → firstOf first production.body = .ok found →
      Keeps (first.insert production.head (known ∪ found))) :
    ∃ results, SetMap.Climbs grammar.firstPass grammar.initialFirst results ∧
      results.length ≤ grammar.firstRounds ∧ grammar.KeepsFirst (SetMap.settled results) ∧
      grammar.ClosedFirst (SetMap.settled results) ∧ Keeps (SetMap.settled results) := by
  have keeps := grammar.initialFirst_keeps
  have visits : ∀ production ∈ grammar.productions, ∀ first,
      grammar.KeepsFirst first ∧ Keeps first → ∃ next, firstStep first production = .ok next ∧
        (grammar.KeepsFirst next ∧ Keeps next) ∧ first.Within next := by
    rintro production member first ⟨firstKeeps, kept⟩
    obtain ⟨known, found, knownFound, read, stepped, nextKeeps, grown⟩ :=
      firstStep_grows firstKeeps member
    exact ⟨_, stepped,
      ⟨nextKeeps, visited production member first known found kept knownFound read⟩, grown⟩
  have grows : ∀ sets, grammar.KeepsFirst sets ∧ Keeps sets → ∃ next,
      grammar.firstPass sets = .ok next ∧ (grammar.KeepsFirst next ∧ Keeps next) ∧
        sets.Within next := by
    intro sets setsKeep
    obtain ⟨next, passed, nextKeeps, within, _⟩ :=
      @SetMap.foldlM_grows (fun first => grammar.KeepsFirst first ∧ Keeps first) _ _ _ visits _
        setsKeep
    exact ⟨next, passed, nextKeeps, within⟩
  obtain ⟨results, climbs, ⟨finalKeeps, kept⟩, short⟩ :=
    SetMap.passes_climb grows (fun _ setsKeep => setsKeep.1.volume_le) ⟨keeps, initially⟩
  obtain ⟨next, again, _, _, closed⟩ := firstPass_grows finalKeeps
  rw [climbs.settles] at again
  refine ⟨results, climbs, ?_, finalKeeps, closed (Except.ok.inj again).symm, kept⟩
  rw [keeps.volume_eq] at short
  rw [firstRounds]
  omega

/-- The FIRST sets exist and are closed, and they keep what every visit to a production keeps. -/
theorem first_settles (grammar : Grammar) (Keeps : SetMap → Prop)
    (initially : Keeps grammar.initialFirst)
    (visited : ∀ production ∈ grammar.productions, ∀ first known found, Keeps first →
      first.get? production.head = some known → firstOf first production.body = .ok found →
      Keeps (first.insert production.head (known ∪ found))) :
    ∃ first, grammar.first = .ok first ∧ grammar.KeepsFirst first ∧ grammar.ClosedFirst first ∧
      Keeps first := by
  obtain ⟨results, climbs, short, final⟩ := grammar.first_climbs Keeps initially visited
  refine ⟨SetMap.settled results, ?_, final⟩
  rw [Grammar.first, firstPasses, climbs.passes_eq short]
  rfl

/-- The FIRST sets of every grammar exist and are closed. -/
theorem first_exists (grammar : Grammar) :
    ∃ first, grammar.first = .ok first ∧ grammar.KeepsFirst first ∧ grammar.ClosedFirst first := by
  obtain ⟨first, found, keeps, closed, _⟩ :=
    grammar.first_settles (fun _ => True) trivial fun _ _ _ _ _ _ _ _ => trivial
  exact ⟨first, found, keeps, closed⟩

/-! ### The first tokens of trees -/

section Trees

open DerivationTree

variable {grammar : Grammar} {first : SetMap}

/-- The first token, or the empty word if there is none. -/
def opener (string : List Symbol) : Symbol :=
  string.headD Symbol.epsilon

/-- The first token of a forest, or the empty word, is in FIRST of its roots if that of each tree is
in the set of its root. -/
theorem opener_mem_firstOf_of_each {trees : List DerivationTree}
    (belong : AllBelong grammar trees)
    (each : ∀ tree ∈ trees, ∃ set, first.get? tree.symbol = some set ∧
      opener tree.tokens ∈ set) :
    ∃ set, firstOf first (trees.map symbol) = .ok set ∧ opener (tokensOf trees) ∈ set := by
  induction trees with
  | nil => exact ⟨_, rfl, SymbolSet.mem_only.mpr rfl⟩
  | cons tree rest inductionHypothesis =>
    obtain ⟨here, found, opens⟩ := each tree List.mem_cons_self
    rw [allBelong_cons] at belong
    obtain ⟨later, read, restOpens⟩ := inductionHypothesis belong.2
      fun other member => each other (List.mem_cons_of_mem _ member)
    rw [List.map_cons, tokensOf]
    cases spelled : tree.tokens with
    | nil =>
      rw [spelled] at opens
      exact ⟨_, firstOf_cons_of_mem found opens read, SymbolSet.mem_union.mpr (.inr restOpens)⟩
    | cons token others =>
      have visible : token ≠ Symbol.epsilon := by
        rintro rfl
        exact grammar.epsilon_not_isTerminal (belong.1.terminal (by
          rw [spelled]
          exact List.mem_cons_self))
      rw [spelled] at opens
      by_cases vanishes : Symbol.epsilon ∈ here
      · exact ⟨_, firstOf_cons_of_mem found vanishes read,
          SymbolSet.mem_union.mpr (.inl (SymbolSet.mem_erase.mpr ⟨opens, visible⟩))⟩
      · exact ⟨here, firstOf_cons_of_not_mem found vanishes, opens⟩

/-- The first token of a tree is in the set of its root. -/
theorem ClosedFirst.opener_mem (closed : grammar.ClosedFirst first) {tree : DerivationTree}
    (belongs : tree.Belongs grammar) :
    ∃ set, first.get? tree.symbol = some set ∧ opener tree.tokens ∈ set := by
  induction belongs with
  | leaf token terminal =>
    exact ⟨_, closed.terminals token terminal, SymbolSet.mem_only.mpr rfl⟩
  | branch production children member spelled each inductionHypothesis =>
    obtain ⟨known, found, knownFound, read, inside⟩ := closed.productions production member
    obtain ⟨set, ofChildren, opens⟩ := opener_mem_firstOf_of_each each inductionHypothesis
    rw [spelled, read] at ofChildren
    rw [← Except.ok.inj ofChildren] at opens
    exact ⟨known, knownFound, inside _ opens⟩

/-- The first token of several trees is in FIRST of their roots. -/
theorem ClosedFirst.opener_mem_firstOf (closed : grammar.ClosedFirst first)
    {trees : List DerivationTree} (belong : AllBelong grammar trees) :
    ∃ set, firstOf first (trees.map symbol) = .ok set ∧ opener (tokensOf trees) ∈ set :=
  opener_mem_firstOf_of_each belong fun tree member => closed.opener_mem (belong tree member)

end Trees

end Grammar

end ShiftReduce
