/-
This file proves that the passes over FOLLOW sets settle, for any FIRST sets that cover the
bodies, and that the sets they settle on cover what stands behind non-terminals. The members
come from the FIRST sets, but for the end marker, which bounds them. What every visit to an
occurrence of a non-terminal in a body keeps, the passes keep. A map that a pass leaves alone
is closed at every such occurrence: its set holds what the rest of the body can start with,
and what follows the head when the rest can vanish. In a closed map the set of a non-terminal
therefore holds the first token behind it.
-/

import ShiftReduce.Proofs.FirstSets

namespace ShiftReduce

namespace Grammar

/-- All symbols of all bodies have FIRST sets. -/
def CoversBodies (grammar : Grammar) (first : SetMap) : Prop :=
  ∀ production ∈ grammar.productions, ∀ symbol ∈ production.body,
    ∃ set, first.get? symbol = some set

theorem KeepsFirst.coversBodies {grammar : Grammar} {first : SetMap}
    (keeps : grammar.KeepsFirst first) : grammar.CoversBodies first :=
  fun _ member _ inside => keeps.covered (mem_symbols_iff.mpr (body_symbol member inside))

/-- An occurrence of a symbol, with a string behind it in the body of a head, has handed on
what can follow it. -/
def Handed (first follow : SetMap) (head symbol : Symbol) (after : List Symbol) : Prop :=
  ∃ set ahead, follow.get? symbol = some set ∧ firstOf first after = .ok ahead ∧
    (∀ member ∈ ahead, member ≠ Symbol.epsilon → member ∈ set) ∧
    (Symbol.epsilon ∈ ahead →
      ∃ above, follow.get? head = some above ∧ ∀ member ∈ above, member ∈ set)

/-- All occurrences of non-terminals have handed on what can follow them. -/
def ClosedFollow (grammar : Grammar) (first follow : SetMap) : Prop :=
  ∀ production ∈ grammar.productions, ∀ before symbol after,
    production.body = before ++ symbol :: after → grammar.isNonTerminal symbol = true →
    Handed first follow production.head symbol after

/-- All non-terminals have FOLLOW sets. -/
def CoversHeads (grammar : Grammar) (follow : SetMap) : Prop :=
  ∀ symbol, grammar.isNonTerminal symbol = true → ∃ set, follow.get? symbol = some set

/-! ### What every pass keeps -/

/-- The maps that passes over FOLLOW sets go through. -/
structure KeepsFollow (grammar : Grammar) (first follow : SetMap) : Prop where
  keys : follow.keys = grammar.nonTerminals
  members : ∀ symbol set, follow.get? symbol = some set → ∀ member ∈ set,
    member = Symbol.endMarker ∨ member ∈ heldSymbols first

@[simp] theorem mem_heldSymbols {sets : SetMap} {member : Symbol} :
    member ∈ heldSymbols sets ↔
      member ≠ Symbol.epsilon ∧ ∃ symbol set, sets.get? symbol = some set ∧ member ∈ set := by
  rw [heldSymbols, SymbolSet.mem_erase, SymbolSet.mem_ofList, List.mem_flatMap, and_comm]
  refine and_congr_right fun _ => ⟨?_, ?_⟩
  · rintro ⟨set, listed, inside⟩
    obtain ⟨⟨symbol, _⟩, entry, rfl⟩ := List.mem_map.mp listed
    exact ⟨symbol, _, (sets.get?_eq_some_iff symbol _).mpr entry, inside⟩
  · rintro ⟨symbol, set, found, inside⟩
    exact ⟨set, List.mem_map_of_mem ((sets.get?_eq_some_iff symbol set).mp found), inside⟩

section Passes

variable {grammar : Grammar} {first follow : SetMap}

theorem KeepsFollow.covers (keeps : grammar.KeepsFollow first follow) :
    grammar.CoversHeads follow := by
  intro symbol nonTerminal
  rw [isNonTerminal_iff, ← keeps.keys] at nonTerminal
  exact SymbolMap.mem_keys_iff.mp nonTerminal

theorem KeepsFollow.insert (keeps : grammar.KeepsFollow first follow) {symbol : Symbol}
    (nonTerminal : grammar.isNonTerminal symbol = true) {larger : SymbolSet}
    (members : ∀ member ∈ larger, member = Symbol.endMarker ∨ member ∈ heldSymbols first) :
    grammar.KeepsFollow first (follow.insert symbol larger) := by
  have present : symbol ∈ follow.keys := by
    rw [keeps.keys]
    exact (grammar.isNonTerminal_iff symbol).mp nonTerminal
  refine ⟨by rw [SymbolMap.keys_insert_of_mem present, keeps.keys], fun other set inserted => ?_⟩
  rcases SymbolMap.get?_insert_eq_some_iff.mp inserted with ⟨rfl, rfl⟩ | ⟨_, inserted⟩
  · exact members
  · exact keeps.members other set inserted

theorem inherited_exists (keeps : grammar.KeepsFollow first follow) {head : Symbol}
    (headed : grammar.isNonTerminal head = true) (ahead : SymbolSet) :
    ∃ above, inherited follow head ahead = .ok above ∧
      (∀ member ∈ above, member = Symbol.endMarker ∨ member ∈ heldSymbols first) ∧
      (Symbol.epsilon ∈ ahead → follow.get? head = some above) := by
  obtain ⟨set, found⟩ := keeps.covers head headed
  unfold inherited
  by_cases vanishes : Symbol.epsilon ∈ ahead
  · rw [if_pos vanishes]
    exact ⟨set, SymbolMap.lookup_eq_ok_iff.mpr found, keeps.members head set found, fun _ => found⟩
  · rw [if_neg vanishes]
    exact ⟨∅, rfl, fun member inside => absurd inside (SymbolSet.not_mem_empty member),
      fun vanishing => absurd vanishing vanishes⟩

theorem mem_inherited {head : Symbol} {ahead above : SymbolSet}
    (passedOn : inherited follow head ahead = .ok above) {member : Symbol}
    (inside : member ∈ above) :
    Symbol.epsilon ∈ ahead ∧ follow.get? head = some above := by
  unfold inherited at passedOn
  split at passedOn
  · rename_i vanishes
    exact ⟨vanishes, SymbolMap.lookup_eq_ok_iff.mp passedOn⟩
  · rw [← Except.ok.inj passedOn] at inside
    exact absurd inside (SymbolSet.not_mem_empty member)

/-- What a visit to an occurrence of a symbol, with a string behind it in the body of a head,
makes of a map. -/
def Visits (first : SetMap) (head symbol : Symbol) (after : List Symbol)
    (follow next : SetMap) : Prop :=
  ∃ known ahead above, follow.get? symbol = some known ∧ firstOf first after = .ok ahead ∧
    inherited follow head ahead = .ok above ∧
    next = follow.insert symbol (known ∪ ahead.erase Symbol.epsilon ∪ above)

/-- Visiting one occurrence grows the map, and changes nothing only if the occurrence has
handed on what can follow it. -/
theorem followBody_cons_grows (keeps : grammar.KeepsFollow first follow) {head symbol : Symbol}
    {rest : List Symbol} (headed : grammar.isNonTerminal head = true)
    (nonTerminal : grammar.isNonTerminal symbol = true)
    (covered : ∀ other ∈ rest, ∃ set, first.get? other = some set) :
    ∃ next, grammar.followBody first head (symbol :: rest) follow =
        grammar.followBody first head rest next ∧
      Visits first head symbol rest follow next ∧
      grammar.KeepsFollow first next ∧ follow.Within next ∧
      (next = follow → Handed first follow head symbol rest) := by
  obtain ⟨known, knownFound⟩ := keeps.covers symbol nonTerminal
  obtain ⟨ahead, read, aheadMembers⟩ := firstOf_exists covered
  obtain ⟨above, passedOn, aboveMembers, whole⟩ := inherited_exists keeps headed ahead
  have members : ∀ member ∈ known ∪ ahead.erase Symbol.epsilon ∪ above,
      member = Symbol.endMarker ∨ member ∈ heldSymbols first := by
    intro member inside
    simp only [SymbolSet.mem_union, SymbolSet.mem_erase] at inside
    rcases inside with (old | ⟨inAhead, visible⟩) | fromAbove
    · exact keeps.members symbol known knownFound member old
    · obtain ⟨other, _, set, found, inSet⟩ := (aheadMembers member inAhead).resolve_left visible
      exact .inr (mem_heldSymbols.mpr ⟨visible, other, set, found, inSet⟩)
    · exact aboveMembers member fromAbove
  refine ⟨follow.insert symbol (known ∪ ahead.erase Symbol.epsilon ∪ above), ?_,
    ⟨known, ahead, above, knownFound, read, passedOn, rfl⟩,
    keeps.insert nonTerminal members, SetMap.within_insert knownFound fun _ old => by simp [old],
    fun same => ?_⟩
  · rw [followBody, if_pos nonTerminal, SymbolMap.lookup_eq_ok_iff.mpr knownFound, read]
    show (inherited follow head ahead >>= _) = _
    rw [passedOn]
    rfl
  · have full := (congrArg (SymbolMap.get? · symbol) same).symm.trans
      (SymbolMap.get?_insert_self _ _ _)
    exact ⟨_, ahead, full, read, fun member inside visible => by simp [inside, visible],
      fun vanishes => ⟨above, whole vanishes, fun member inside => by simp [inside]⟩⟩

/-- Visiting a body grows the map, and changes nothing only if all occurrences in it have
handed on what can follow them. What every visit to one of them keeps is kept. -/
theorem followBody_grows {Keeps : SetMap → Prop} (keeps : grammar.KeepsFollow first follow)
    {head : Symbol} {string : List Symbol} (headed : grammar.isNonTerminal head = true)
    (covered : ∀ other ∈ string, ∃ set, first.get? other = some set)
    (visited : ∀ before symbol after, string = before ++ symbol :: after →
      grammar.isNonTerminal symbol = true → ∀ sets next, Keeps sets →
      Visits first head symbol after sets next → Keeps next) :
    ∃ next, grammar.followBody first head string follow = .ok next ∧
      grammar.KeepsFollow first next ∧ (Keeps follow → Keeps next) ∧ follow.Within next ∧
      (next = follow → ∀ before symbol after, string = before ++ symbol :: after →
        grammar.isNonTerminal symbol = true → Handed first follow head symbol after) := by
  induction string generalizing follow with
  | nil =>
    refine ⟨follow, rfl, keeps, id, .refl _, fun _ before symbol after split => ?_⟩
    exact absurd split.symm (List.append_ne_nil_of_right_ne_nil _ (List.cons_ne_nil _ _))
  | cons first' rest inductionHypothesis =>
    have restCovered := fun other member => covered other (List.mem_cons_of_mem first' member)
    have restVisited := fun before symbol after split =>
      visited (first' :: before) symbol after (congrArg (first' :: ·) split)
    cases kind : grammar.isNonTerminal first' with
    | false =>
      obtain ⟨next, done, nextKeeps, kept, within, still⟩ :=
        inductionHypothesis keeps restCovered restVisited
      refine ⟨next, ?_, nextKeeps, kept, within,
        fun same before symbol after split nonTerminal => ?_⟩
      · rw [followBody, kind]
        exact done
      · rcases List.cons_eq_append_iff.mp split with ⟨_, here⟩ | ⟨others, _, later⟩
        · obtain ⟨rfl, _⟩ := List.cons.inj here
          rw [nonTerminal] at kind
          cases kind
        · exact still same others symbol after later nonTerminal
    | true =>
      obtain ⟨middle, stepped, visit, middleKeeps, grown, handed⟩ :=
        followBody_cons_grows keeps headed kind restCovered
      obtain ⟨next, done, nextKeeps, kept, within, still⟩ :=
        inductionHypothesis middleKeeps restCovered restVisited
      refine ⟨next, stepped.trans done, nextKeeps,
        fun old => kept (visited [] first' rest rfl kind follow middle old visit),
        grown.trans within, fun same before symbol after split nonTerminal => ?_⟩
      have unmoved : middle = follow := grown.antisymm (same ▸ within)
      rcases List.cons_eq_append_iff.mp split with ⟨_, here⟩ | ⟨others, _, later⟩
      · obtain ⟨rfl, rfl⟩ := List.cons.inj here
        exact handed unmoved
      · rw [← unmoved]
        exact still (same.trans unmoved.symm) others symbol after later nonTerminal

/-- A property of maps that every visit to an occurrence of a non-terminal keeps. -/
def KeptByVisits (grammar : Grammar) (first : SetMap) (Keeps : SetMap → Prop) : Prop :=
  ∀ production ∈ grammar.productions, ∀ before symbol after,
    production.body = before ++ symbol :: after → grammar.isNonTerminal symbol = true →
    ∀ follow next, Keeps follow → Visits first production.head symbol after follow next →
    Keeps next

theorem followPass_grows {Keeps : SetMap → Prop} (covers : grammar.CoversBodies first)
    (visited : grammar.KeptByVisits first Keeps) (keeps : grammar.KeepsFollow first follow)
    (kept : Keeps follow) :
    ∃ next, grammar.followPass first follow = .ok next ∧ grammar.KeepsFollow first next ∧
      Keeps next ∧ follow.Within next ∧ (next = follow → grammar.ClosedFollow first follow) := by
  have visit {sets : SetMap} (setsKeep : grammar.KeepsFollow first sets) {production : Production}
      (member : production ∈ grammar.productions) :=
    followBody_grows setsKeep (head_mem_nonTerminals member) (covers production member)
      (visited production member)
  obtain ⟨next, passed, ⟨nextKeeps, nextKept⟩, within, still⟩ :=
    @SetMap.foldlM_grows (fun sets => grammar.KeepsFollow first sets ∧ Keeps sets) _ _
      grammar.productions
      (fun production member sets setsKeep => by
        obtain ⟨next, done, nextKeeps, nextKept, grown, _⟩ := visit setsKeep.1 member
        exact ⟨next, done, ⟨nextKeeps, nextKept setsKeep.2⟩, grown⟩) _ ⟨keeps, kept⟩
  refine ⟨next, passed, nextKeeps, nextKept, within, fun same production member => ?_⟩
  obtain ⟨own, done, _, _, _, handed⟩ := visit keeps member
  rw [still same production member] at done
  exact handed (Except.ok.inj done).symm

theorem KeepsFollow.volume_le (keeps : grammar.KeepsFollow first follow) :
    follow.volume ≤ grammar.nonTerminals.length * ((heldSymbols first).size + 1) := by
  rw [SetMap.volume, keeps.keys]
  refine SetMap.sum_sizeAt_le (Symbol.endMarker :: (heldSymbols first).members)
    fun symbol _ set found member inside => ?_
  rcases keeps.members symbol set found member inside with rfl | held
  · exact List.mem_cons_self
  · exact List.mem_cons_of_mem _ held

/-- The map that knows nothing of the non-terminals yet has them in order, with empty sets. -/
theorem unknown_sets (grammar : Grammar) :
    (SymbolMap.ofList (grammar.nonTerminals.map fun symbol => (symbol, (∅ : SymbolSet)))).keys =
      grammar.nonTerminals ∧
    ∀ symbol set, (SymbolMap.ofList (grammar.nonTerminals.map fun symbol =>
      (symbol, (∅ : SymbolSet)))).get? symbol = some set → set = ∅ := by
  have keys : (grammar.nonTerminals.map fun symbol => (symbol, (∅ : SymbolSet))).map Prod.fst =
      grammar.nonTerminals := by
    rw [List.map_map]
    exact List.map_id _
  have different : grammar.nonTerminals.Nodup := nodup_eraseDups _
  rw [← keys] at different
  refine ⟨by rw [SymbolMap.keys_ofList different, keys], fun symbol set found => ?_⟩
  obtain ⟨_, _, same⟩ :=
    List.mem_map.mp ((SymbolMap.get?_ofList_eq_some_iff different).mp found)
  exact (Prod.mk.inj same).2.symm

@[simp] theorem initialFollow_keys (grammar : Grammar) :
    grammar.initialFollow.keys = grammar.nonTerminals := by
  obtain ⟨keys, _⟩ := grammar.unknown_sets
  unfold initialFollow
  cases started : grammar.startSymbol with
  | none => exact keys
  | some start =>
    refine (SymbolMap.keys_insert_of_mem ?_ _).trans keys
    rw [keys, ← isNonTerminal_iff]
    exact startSymbol_isNonTerminal started

/-- Initially nothing but the end marker follows the start symbol, and nothing any other. -/
theorem eq_of_mem_initialFollow {symbol : Symbol} {set : SymbolSet} {member : Symbol}
    (found : grammar.initialFollow.get? symbol = some set) (inside : member ∈ set) :
    grammar.startSymbol = some symbol ∧ member = Symbol.endMarker := by
  have other {set : SymbolSet} (found : (SymbolMap.ofList (grammar.nonTerminals.map fun symbol =>
      (symbol, (∅ : SymbolSet)))).get? symbol = some set) : member ∉ set := by
    rw [grammar.unknown_sets.2 symbol set found]
    exact SymbolSet.not_mem_empty member
  unfold initialFollow at found
  cases started : grammar.startSymbol with
  | none =>
    rw [started] at found
    exact absurd inside (other found)
  | some start =>
    rw [started] at found
    change (SymbolMap.insert _ start _).get? symbol = some set at found
    rcases SymbolMap.get?_insert_eq_some_iff.mp found with ⟨rfl, rfl⟩ | ⟨_, found⟩
    · exact ⟨rfl, SymbolSet.mem_only.mp inside⟩
    · exact absurd inside (other found)

theorem initialFollow_keeps (grammar : Grammar) (first : SetMap) :
    grammar.KeepsFollow first grammar.initialFollow where
  keys := grammar.initialFollow_keys
  members _ _ found _ inside := .inl (eq_of_mem_initialFollow found inside).2

theorem get?_initialFollow_start {start : Symbol} (started : grammar.startSymbol = some start) :
    grammar.initialFollow.get? start = some (SymbolSet.only Symbol.endMarker) := by
  rw [initialFollow, started]
  exact SymbolMap.get?_insert_self _ _ _

end Passes

/-- For FIRST sets that cover the bodies, the passes settle within their rounds, on closed sets
that give the start symbol the end marker. These keep what every visit to an occurrence keeps. -/
theorem follow_climbs {grammar : Grammar} {first : SetMap} (covers : grammar.CoversBodies first)
    (Keeps : SetMap → Prop) (initially : Keeps grammar.initialFollow)
    (visited : grammar.KeptByVisits first Keeps) :
    ∃ results, SetMap.Climbs (grammar.followPass first) grammar.initialFollow results ∧
      results.length ≤ grammar.followRounds first ∧
      grammar.KeepsFollow first (SetMap.settled results) ∧
      grammar.ClosedFollow first (SetMap.settled results) ∧
      (∀ start, grammar.startSymbol = some start →
        ∃ set, (SetMap.settled results).get? start = some set ∧ Symbol.endMarker ∈ set) ∧
      Keeps (SetMap.settled results) := by
  have grows : ∀ sets, grammar.KeepsFollow first sets ∧ Keeps sets → ∃ next,
      grammar.followPass first sets = .ok next ∧
        (grammar.KeepsFollow first next ∧ Keeps next) ∧ sets.Within next := by
    rintro sets ⟨setsKeep, kept⟩
    obtain ⟨next, passed, nextKeeps, nextKept, grown, _⟩ :=
      followPass_grows covers visited setsKeep kept
    exact ⟨next, passed, ⟨nextKeeps, nextKept⟩, grown⟩
  obtain ⟨results, climbs, ⟨keeps, kept⟩, short⟩ :=
    SetMap.passes_climb grows (fun _ setsKeep => setsKeep.1.volume_le)
      ⟨grammar.initialFollow_keeps first, initially⟩
  obtain ⟨next, again, _, _, _, closed⟩ := followPass_grows covers visited keeps kept
  rw [climbs.settles] at again
  refine ⟨results, climbs, ?_, keeps, closed (Except.ok.inj again).symm, fun start started => ?_,
    kept⟩
  · rw [followRounds]
    omega
  · obtain ⟨set, found, inside⟩ := climbs.within.sets start _ (get?_initialFollow_start started)
    exact ⟨set, found, inside _ (SymbolSet.mem_only.mpr rfl)⟩

/-- For FIRST sets that cover the bodies, FOLLOW sets exist and are closed, and they keep what
every visit to an occurrence keeps. -/
theorem follow_settles {grammar : Grammar} {first : SetMap} (covers : grammar.CoversBodies first)
    (Keeps : SetMap → Prop) (initially : Keeps grammar.initialFollow)
    (visited : grammar.KeptByVisits first Keeps) :
    ∃ follow, grammar.follow first = .ok follow ∧ grammar.KeepsFollow first follow ∧
      grammar.ClosedFollow first follow ∧ (∀ start, grammar.startSymbol = some start →
        ∃ set, follow.get? start = some set ∧ Symbol.endMarker ∈ set) ∧ Keeps follow := by
  obtain ⟨results, climbs, short, final⟩ := follow_climbs covers Keeps initially visited
  refine ⟨SetMap.settled results, ?_, final⟩
  rw [Grammar.follow, followPasses, climbs.passes_eq short]
  rfl

/-- Sets that cover what trees start with and what stands behind non-terminals. -/
structure ClosedSets (grammar : Grammar) (sets : LookaheadSets) : Prop where
  first : grammar.ClosedFirst sets.first
  follow : grammar.ClosedFollow sets.first sets.follow
  covers : grammar.CoversHeads sets.follow
  ends : ∀ start, grammar.startSymbol = some start →
    ∃ set, sets.follow.get? start = some set ∧ Symbol.endMarker ∈ set

/-- Every grammar has FIRST and FOLLOW sets, and they are closed. -/
theorem lookaheadSets_exists (grammar : Grammar) :
    ∃ sets, grammar.lookaheadSets = .ok sets ∧ grammar.ClosedSets sets := by
  obtain ⟨first, firstFound, firstKeeps, firstClosed⟩ := grammar.first_exists
  obtain ⟨follow, followFound, followKeeps, followClosed, ends, _⟩ :=
    follow_settles firstKeeps.coversBodies (fun _ => True) trivial
      fun _ _ _ _ _ _ _ _ _ _ _ => trivial
  refine ⟨⟨first, follow⟩, ?_, firstClosed, followClosed, followKeeps.covers, ends⟩
  rw [lookaheadSets, firstFound]
  show (grammar.follow first >>= _) = _
  rw [followFound]
  rfl

/-! ### The first token behind a non-terminal -/

section Trees

open DerivationTree

variable {grammar : Grammar} {first follow : SetMap}

/-- What follows a head follows the last non-terminal of its body, and what later trees of the
body start with follows an earlier one. -/
theorem ClosedFollow.opener_mem (closed : grammar.ClosedFollow first follow)
    (firstClosed : grammar.ClosedFirst first) {production : Production}
    (member : production ∈ grammar.productions) {before : List Symbol} {symbol : Symbol}
    {later : List DerivationTree} (belong : AllBelong grammar later)
    (split : production.body = before ++ symbol :: later.map DerivationTree.symbol)
    (nonTerminal : grammar.isNonTerminal symbol = true) {rest : List Symbol} {above : SymbolSet}
    (known : follow.get? production.head = some above) (ahead : opener rest ∈ above) :
    ∃ set, follow.get? symbol = some set ∧ opener (tokensOf later ++ rest) ∈ set := by
  obtain ⟨set, found, setFound, read, visible, vanishing⟩ :=
    closed production member before symbol _ split nonTerminal
  obtain ⟨actual, actualRead, opens⟩ := firstClosed.opener_mem_firstOf belong
  rw [read] at actualRead
  rw [← Except.ok.inj actualRead] at opens
  refine ⟨set, setFound, ?_⟩
  cases spelled : tokensOf later with
  | nil =>
    rw [spelled] at opens
    obtain ⟨outer, outerFound, inside⟩ := vanishing opens
    rw [known, Option.some_inj] at outerFound
    exact inside _ (outerFound ▸ ahead)
  | cons token others =>
    rw [spelled] at opens
    refine visible token opens ?_
    rintro rfl
    exact grammar.epsilon_not_isTerminal (belong.terminal (by
      rw [spelled]
      exact List.mem_cons_self))

end Trees

/-! ### The grammar that is augmented -/

namespace Augments

variable {grammar augmented : Grammar} {start : Symbol}

theorem closedFirst (augments : grammar.Augments augmented start) {first : SetMap}
    (closed : augmented.ClosedFirst first) : grammar.ClosedFirst first where
  terminals symbol terminal :=
    closed.terminals symbol ((augments.isTerminal_iff_isTerminal symbol).mpr terminal)
  productions production member :=
    closed.productions (moved production) (augments.moved_mem member)

theorem closedFollow (augments : grammar.Augments augmented start) {first follow : SetMap}
    (closed : augmented.ClosedFollow first follow) : grammar.ClosedFollow first follow :=
  fun _ member before symbol after split nonTerminal =>
    closed (moved _) (augments.moved_mem member) before symbol after split
      ((augments.isNonTerminal_iff_or symbol).mpr (.inr nonTerminal))

/-- The end marker follows the start symbol of the grammar that is augmented. -/
theorem end_follows (augments : grammar.Augments augmented start) {sets : LookaheadSets}
    (closed : augmented.ClosedSets sets) :
    ∃ set, sets.follow.get? start = some set ∧ Symbol.endMarker ∈ set := by
  obtain ⟨above, known, ends⟩ := closed.ends _ augments.startSymbol_eq
  obtain ⟨set, ahead, found, read, _, vanishing⟩ := closed.follow _ augments.root_mem [] start []
    rfl ((augments.isNonTerminal_iff_or start).mpr
      (.inr (startSymbol_isNonTerminal augments.started)))
  rw [← Except.ok.inj read] at vanishing
  obtain ⟨outer, outerFound, inside⟩ := vanishing (SymbolSet.mem_only.mpr rfl)
  rw [show (grammar.root start).head = grammar.freshStart start from rfl, known,
    Option.some_inj] at outerFound
  exact ⟨set, found, inside _ (outerFound ▸ ends)⟩

end Augments

end Grammar

end ShiftReduce
