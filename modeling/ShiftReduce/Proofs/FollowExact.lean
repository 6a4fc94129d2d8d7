/-
This file proves that FOLLOW sets are exact: the set of a non-terminal holds the terminals right
behind it in what some non-terminal derives, reachable or not, the end marker if the start symbol
derives a string that ends in it, and nothing else. That every member is derived holds of the
initial sets and is kept by every visit to an occurrence. That none is missing holds of all
closed sets, by induction on the derivation: an occurrence in a derived string hands on what can
follow it like an occurrence in a body, and a body that replaces its head leaves the string
behind it where what follows the head follows the end of the body.
-/

import ShiftReduce.Proofs.FirstExact
import ShiftReduce.Proofs.FollowSets

namespace ShiftReduce

namespace Grammar

/-! ### What stands behind a symbol -/

/-- What can stand right behind a symbol: a terminal, in what some non-terminal derives, or the
end marker, if the start symbol derives a string that ends in the symbol. -/
def Trails (grammar : Grammar) (symbol member : Symbol) : Prop :=
  grammar.isTerminal member = true ∧ (∃ head before after, grammar.isNonTerminal head = true ∧
      grammar.Derives [head] (before ++ symbol :: member :: after)) ∨
    member = Symbol.endMarker ∧ ∃ start before, grammar.startSymbol = some start ∧
      grammar.Derives [start] (before ++ [symbol])

/-- A set holds the terminals right behind a symbol in what non-terminals derive, the end marker
if the start symbol derives a string that ends in the symbol, and nothing else, so never the
empty word. -/
structure IsFollow (grammar : Grammar) (symbol : Symbol) (set : SymbolSet) : Prop where
  terminals : ∀ token, grammar.isTerminal token = true → (token ∈ set ↔
    ∃ head before after, grammar.isNonTerminal head = true ∧
      grammar.Derives [head] (before ++ symbol :: token :: after))
  ending : Symbol.endMarker ∈ set ↔ ∃ start before, grammar.startSymbol = some start ∧
    grammar.Derives [start] (before ++ [symbol])
  only : ∀ member ∈ set, grammar.isTerminal member = true ∨ member = Symbol.endMarker
  visible : Symbol.epsilon ∉ set

section Behind

variable {grammar : Grammar} {production : Production} {before after : List Symbol}
  {symbol member : Symbol} {set : SymbolSet}

theorem endMarker_not_isTerminal (grammar : Grammar) :
    ¬ grammar.isTerminal Symbol.endMarker = true :=
  fun terminal => not_reserved_of_isTerminal terminal Symbol.endMarker_reserved

theorem isFollow_of_trails (exact : ∀ member, member ∈ set ↔ grammar.Trails symbol member) :
    grammar.IsFollow symbol set where
  terminals token terminal := by
    rw [exact]
    refine ⟨fun trails => ?_, fun derived => .inl ⟨terminal, derived⟩⟩
    refine (trails.resolve_right fun both => ?_).2
    exact grammar.endMarker_not_isTerminal (both.1 ▸ terminal)
  ending := by
    rw [exact]
    refine ⟨fun trails => ?_, fun derived => .inr ⟨rfl, derived⟩⟩
    exact (trails.resolve_left fun both => grammar.endMarker_not_isTerminal both.1).2
  only member inside := ((exact member).mp inside).imp And.left And.left
  visible inside := by
    rcases (exact _).mp inside with ⟨terminal, _⟩ | ⟨same, _⟩
    · exact grammar.epsilon_not_isTerminal terminal
    · exact Symbol.epsilon_ne_endMarker same

/-- What the rest of a body starts with stands behind the symbol in front of the rest. -/
theorem trails_of_starts (productionMember : production ∈ grammar.productions)
    (split : production.body = before ++ symbol :: after)
    (starts : grammar.Starts after member) (visible : member ≠ Symbol.epsilon) :
    grammar.Trails symbol member := by
  obtain ⟨terminal, rest, derived⟩ := starts.leads visible
  refine .inl ⟨terminal, production.head, before, rest, head_mem_nonTerminals productionMember, ?_⟩
  have inner := derived.within (before ++ [symbol]) []
  rw [List.append_nil, List.append_nil, List.append_assoc, List.append_assoc] at inner
  exact (split ▸ Derives.single productionMember).trans inner

/-- What stands behind a head stands behind a symbol of its body, if the rest of the body can
vanish. -/
theorem Trails.inherited (trails : grammar.Trails production.head member)
    (productionMember : production ∈ grammar.productions)
    (split : production.body = before ++ symbol :: after) (vanishes : grammar.Derives after []) :
    grammar.Trails symbol member := by
  have ends : grammar.Derives [production.head] (before ++ [symbol]) := by
    have inner := vanishes.within (before ++ [symbol]) []
    rw [List.append_nil, List.append_nil, List.append_nil, List.append_assoc] at inner
    exact (split ▸ Derives.single productionMember).trans inner
  rcases trails with ⟨terminal, head, outer, behind, headed, derived⟩ |
    ⟨ending, start, outer, started, derived⟩
  · refine .inl ⟨terminal, head, outer ++ before, behind, headed, ?_⟩
    have inner := ends.within outer (member :: behind)
    simp only [List.append_assoc, List.singleton_append] at inner ⊢
    exact derived.trans inner
  · refine .inr ⟨ending, start, outer ++ before, started, ?_⟩
    have inner := ends.within outer []
    simp only [List.append_assoc, List.append_nil] at inner ⊢
    exact derived.trans inner

end Behind

/-! ### Every member is derived -/

/-- The sets of a map hold nothing but what can stand behind their symbols. -/
def SoundFollow (grammar : Grammar) (follow : SetMap) : Prop :=
  ∀ symbol set, follow.get? symbol = some set → ∀ member ∈ set, grammar.Trails symbol member

section Sound

variable {grammar : Grammar} {first : SetMap}

theorem initialFollow_sound (grammar : Grammar) : grammar.SoundFollow grammar.initialFollow := by
  intro symbol set found member inside
  obtain ⟨started, ending⟩ := eq_of_mem_initialFollow found inside
  exact .inr ⟨ending, symbol, [], started, .refl _⟩

/-- A visit to an occurrence adds nothing but what can stand behind its symbol. -/
theorem SoundFirst.keptByVisits (sound : grammar.SoundFirst first) :
    grammar.KeptByVisits first grammar.SoundFollow := by
  rintro production productionMember before symbol after split _ follow _ followSound
    ⟨known, ahead, above, knownFound, read, passedOn, rfl⟩ other set found member inside
  rcases SymbolMap.get?_insert_eq_some_iff.mp found with ⟨rfl, rfl⟩ | ⟨_, found⟩
  · simp only [SymbolSet.mem_union, SymbolSet.mem_erase] at inside
    rcases inside with (old | ⟨inAhead, visible⟩) | fromAbove
    · exact followSound other known knownFound member old
    · exact trails_of_starts productionMember split (sound.starts read inAhead) visible
    · obtain ⟨vanishes, aboveFound⟩ := mem_inherited passedOn fromAbove
      exact (followSound _ above aboveFound member fromAbove).inherited productionMember split
        (sound.starts read vanishes).vanishes
  · exact followSound other set found member inside

end Sound

/-! ### No member is missing -/

section Closed

variable {grammar : Grammar} {first follow : SetMap} {head middle symbol : Symbol}
  {left right string : List Symbol}

/-- What follows a middle symbol follows the symbols at the end of what it stands for. -/
theorem Handed.trans (inner : Handed first follow middle symbol left)
    (outer : Handed first follow head middle right) :
    Handed first follow head symbol (left ++ right) := by
  obtain ⟨set, near, setFound, nearRead, nearInside, nearEnd⟩ := inner
  obtain ⟨between, far, betweenFound, farRead, farInside, farEnd⟩ := outer
  obtain ⟨ahead, read, members⟩ := firstOf_append nearRead farRead
  have passed : Symbol.epsilon ∈ near → ∀ member ∈ between, member ∈ set := fun vanishes => by
    obtain ⟨above, aboveFound, inside⟩ := nearEnd vanishes
    rw [betweenFound, Option.some_inj] at aboveFound
    exact aboveFound ▸ inside
  refine ⟨set, ahead, setFound, read, fun member listed visible => ?_, fun listed => ?_⟩
  · rcases (members member).mp listed with ⟨inNear, _⟩ | ⟨vanishes, inFar⟩
    · exact nearInside member inNear visible
    · exact passed vanishes member (farInside member inFar visible)
  · obtain ⟨vanishes, inFar⟩ :=
      ((members _).mp listed).resolve_left fun both => both.2 rfl
    obtain ⟨above, aboveFound, inside⟩ := farEnd inFar
    exact ⟨above, aboveFound, fun member inAbove =>
      passed vanishes member (inside member inAbove)⟩

/-- A string behind a symbol hands on no more after a replacement in it. -/
theorem Handed.of_replaces (handed : Handed first follow head symbol left)
    (closed : grammar.ClosedFirst first) (keeps : grammar.KeepsFirst first)
    (inside : ∀ other ∈ left, other ∈ grammar.symbols) (replaced : grammar.Replaces left right) :
    Handed first follow head symbol right := by
  obtain ⟨set, large, setFound, read, within, ending⟩ := handed
  have rightInside := (Derives.tail (.refl left) replaced).mem_symbols inside
  obtain ⟨small, rightRead, _⟩ := keeps.firstOf_exists rightInside
  have smaller := closed.mem_of_replaces keeps inside replaced read rightRead
  exact ⟨set, small, setFound, rightRead, fun member listed => within member (smaller _ listed),
    fun listed => ending (smaller _ listed)⟩

/-- Every occurrence of a non-terminal in a derived string has handed on what can follow it.
Replacing a head changes the string behind the occurrences in front of it, and not the one behind
those that come after it. -/
theorem ClosedFollow.handed_of_derives (closed : grammar.ClosedFollow first follow)
    (covers : grammar.CoversHeads follow) (firstClosed : grammar.ClosedFirst first)
    (keeps : grammar.KeepsFirst first) (headed : grammar.isNonTerminal head = true)
    (derived : grammar.Derives [head] string) :
    ∀ before symbol after, string = before ++ symbol :: after →
      grammar.isNonTerminal symbol = true → Handed first follow head symbol after := by
  induction derived with
  | refl =>
    intro before symbol after split _
    obtain ⟨set, found⟩ := covers head headed
    rcases List.cons_eq_append_iff.mp split with ⟨_, here⟩ | ⟨_, _, later⟩
    · obtain ⟨rfl, rfl⟩ := List.cons.inj here
      refine ⟨set, _, found, rfl, fun member empty visible => ?_, fun _ =>
        ⟨set, found, fun _ member => member⟩⟩
      exact absurd (SymbolSet.mem_only.mp empty) visible
    · exact absurd later.symm (List.append_ne_nil_of_right_ne_nil _ (List.cons_ne_nil _ _))
  | tail derived replaced inductionHypothesis =>
    have inside := derived.mem_symbols
      (List.forall_mem_singleton.mpr (mem_symbols_iff.mpr (.inr headed)))
    obtain ⟨left, right, production, member⟩ := replaced
    have outer := inductionHypothesis left production.head right rfl
      (head_mem_nonTerminals member)
    intro before symbol after split nonTerminal
    rw [List.append_assoc] at split
    rcases append_eq_append_cons_iff.mp split with ⟨rest, rfl, rfl⟩ | ⟨front, rfl, behind⟩
    · have whole : (before ++ symbol :: rest) ++ production.head :: right =
          before ++ symbol :: (rest ++ production.head :: right) := by
        rw [List.append_assoc, List.cons_append]
      refine (inductionHypothesis before symbol _ whole nonTerminal).of_replaces firstClosed
        keeps (fun other listed => inside other ?_) ?_
      · rw [whole]
        exact List.mem_append_right _ (List.mem_cons_of_mem _ listed)
      · rw [← List.append_assoc]
        exact .once rest right production member
    · rcases append_eq_append_cons_iff.mp behind with ⟨rest, inBody, rfl⟩ | ⟨more, rfl, rfl⟩
      · exact (closed production member front symbol rest inBody nonTerminal).trans outer
      · refine inductionHypothesis (left ++ production.head :: more) symbol after ?_ nonTerminal
        rw [List.append_assoc, List.cons_append]

/-- In closed sets the set of a non-terminal holds all that can stand behind it. -/
theorem ClosedFollow.mem_of_trails (closed : grammar.ClosedFollow first follow)
    (covers : grammar.CoversHeads follow) (firstClosed : grammar.ClosedFirst first)
    (keeps : grammar.KeepsFirst first)
    (ends : ∀ start, grammar.startSymbol = some start →
      ∃ set, follow.get? start = some set ∧ Symbol.endMarker ∈ set)
    (nonTerminal : grammar.isNonTerminal symbol = true) {set : SymbolSet}
    (found : follow.get? symbol = some set) {member : Symbol}
    (trails : grammar.Trails symbol member) : member ∈ set := by
  rcases trails with ⟨terminal, head, before, after, headed, derived⟩ |
    ⟨rfl, start, before, started, derived⟩
  · obtain ⟨actual, ahead, actualFound, read, within, _⟩ := closed.handed_of_derives covers
      firstClosed keeps headed derived before symbol _ rfl nonTerminal
    rw [found, Option.some_inj] at actualFound
    have visible : member ≠ Symbol.epsilon := fun empty =>
      grammar.epsilon_not_isTerminal (empty ▸ terminal)
    have own : firstOf first (member :: after) = .ok (SymbolSet.only member) :=
      firstOf_cons_of_not_mem (firstClosed.terminals member terminal)
        (mt SymbolSet.mem_only.mp visible.symm)
    rw [read, Except.ok.injEq] at own
    rw [actualFound]
    exact within member (own ▸ SymbolSet.mem_only.mpr rfl) visible
  · obtain ⟨actual, ahead, actualFound, read, _, vanishing⟩ := closed.handed_of_derives covers
      firstClosed keeps (startSymbol_isNonTerminal started) derived before symbol [] rfl nonTerminal
    rw [found, Option.some_inj] at actualFound
    obtain ⟨above, aboveFound, inside⟩ :=
      vanishing (Except.ok.inj read ▸ SymbolSet.mem_only.mpr rfl)
    obtain ⟨outer, outerFound, ending⟩ := ends start started
    rw [aboveFound, Option.some_inj] at outerFound
    rw [actualFound]
    exact inside _ (outerFound ▸ ending)

end Closed

/-! ### Exact sets -/

/-- FIRST and FOLLOW sets that are determined by what is derived. -/
structure ExactSets (grammar : Grammar) (sets : LookaheadSets) : Prop where
  firstKeys : sets.first.keys = grammar.symbols
  first : ∀ symbol set, sets.first.get? symbol = some set →
    ∀ member, member ∈ set ↔ grammar.Starts [symbol] member
  followKeys : sets.follow.keys = grammar.nonTerminals
  follow : ∀ symbol set, sets.follow.get? symbol = some set →
    ∀ member, member ∈ set ↔ grammar.Trails symbol member

/-- Every grammar has FIRST and FOLLOW sets, and they are exact. -/
theorem exactSets_exists (grammar : Grammar) :
    ∃ sets : LookaheadSets, grammar.first = .ok sets.first ∧
      grammar.follow sets.first = .ok sets.follow ∧ grammar.lookaheadSets = .ok sets ∧
      grammar.ExactSets sets := by
  obtain ⟨first, firstFound, keeps, firstClosed, sound⟩ :=
    grammar.first_settles grammar.SoundFirst grammar.initialFirst_sound
      fun production member _ _ _ sound knownFound read => sound.insert member knownFound read
  obtain ⟨follow, followFound, followKeeps, closed, ends, followSound⟩ :=
    follow_settles keeps.coversBodies grammar.SoundFollow grammar.initialFollow_sound
      sound.keptByVisits
  refine ⟨⟨first, follow⟩, firstFound, followFound, ?_, keeps.keys,
    fun symbol set found member => ?_, followKeeps.keys, fun symbol set found member => ?_⟩
  · rw [lookaheadSets, firstFound]
    show (grammar.follow first >>= _) = _
    rw [followFound]
    rfl
  · have listed : symbol ∈ grammar.symbols :=
      keeps.keys ▸ SymbolMap.mem_keys_iff.mpr ⟨set, found⟩
    obtain ⟨single, read, same⟩ := firstOf_singleton found
    refine ⟨sound symbol set found member, fun starts => (same member).mp ?_⟩
    exact firstClosed.mem_of_starts keeps (List.forall_mem_singleton.mpr listed) read starts
  · have nonTerminal : grammar.isNonTerminal symbol = true := by
      rw [isNonTerminal_iff, ← followKeeps.keys]
      exact SymbolMap.mem_keys_iff.mpr ⟨set, found⟩
    exact ⟨followSound symbol set found member,
      closed.mem_of_trails followKeeps.covers firstClosed keeps ends nonTerminal found⟩

theorem ExactSets.covers {grammar : Grammar} {sets : LookaheadSets}
    (exact : grammar.ExactSets sets) : grammar.CoversHeads sets.follow := by
  intro symbol nonTerminal
  rw [isNonTerminal_iff, ← exact.followKeys] at nonTerminal
  exact SymbolMap.mem_keys_iff.mp nonTerminal

section Exact

variable {one other : Grammar} {sets twins : LookaheadSets} {symbol twin : Symbol}

/-- Symbols that start with the same members have the same exact FIRST set. -/
theorem ExactSets.first_eq (exact : one.ExactSets sets) (twinExact : other.ExactSets twins)
    (known : symbol ∈ one.symbols ↔ twin ∈ other.symbols)
    (same : ∀ member, one.Starts [symbol] member ↔ other.Starts [twin] member) :
    sets.first.get? symbol = twins.first.get? twin := by
  rw [← exact.firstKeys, ← twinExact.firstKeys] at known
  exact SetMap.get?_eq_of_members known fun set twinSet found twinFound member =>
    (exact.first symbol set found member).trans
      ((same member).trans (twinExact.first twin twinSet twinFound member).symm)

/-- Symbols behind which the same members can stand have the same exact FOLLOW set. -/
theorem ExactSets.follow_eq (exact : one.ExactSets sets) (twinExact : other.ExactSets twins)
    (known : symbol ∈ one.nonTerminals ↔ twin ∈ other.nonTerminals)
    (same : ∀ member, one.Trails symbol member ↔ other.Trails twin member) :
    sets.follow.get? symbol = twins.follow.get? twin := by
  rw [← exact.followKeys, ← twinExact.followKeys] at known
  exact SetMap.get?_eq_of_members known fun set twinSet found twinFound member =>
    (exact.follow symbol set found member).trans
      ((same member).trans (twinExact.follow twin twinSet twinFound member).symm)

theorem ExactSets.first_exists (exact : one.ExactSets sets) (listed : symbol ∈ one.symbols) :
    ∃ set, sets.first.get? symbol = some set :=
  SymbolMap.mem_keys_iff.mp (exact.firstKeys ▸ listed)

end Exact

/-- The FOLLOW set of every non-terminal holds exactly what can stand right behind it in what is
derived. -/
theorem follow_exact (grammar : Grammar) :
    ∃ first follow, grammar.first = .ok first ∧ grammar.follow first = .ok follow ∧
      grammar.lookaheadSets = .ok ⟨first, follow⟩ ∧
      ∀ symbol, grammar.isNonTerminal symbol = true →
        ∃ set, follow.get? symbol = some set ∧ grammar.IsFollow symbol set := by
  obtain ⟨⟨first, follow⟩, firstFound, followFound, found, exact⟩ := grammar.exactSets_exists
  refine ⟨first, follow, firstFound, followFound, found, fun symbol nonTerminal => ?_⟩
  obtain ⟨set, setFound⟩ := exact.covers symbol nonTerminal
  exact ⟨set, setFound, isFollow_of_trails (exact.follow symbol set setFound)⟩

/-- Two heads that call for each other and can vanish, and a head that is never reached and
derives no tokens. -/
def trailing : Grammar :=
  ⟨[⟨0, "S", ["A", "N"]⟩, ⟨1, "N", ["M"]⟩, ⟨2, "M", ["N"]⟩, ⟨3, "M", []⟩, ⟨4, "A", ["a"]⟩,
    ⟨5, "U", ["A", "d", "U"]⟩], false, (faultOf_eq_none_iff _ _).mp (by decide)⟩

/-- In front of a head that can vanish the input may end, and the head that is never reached
still brings its terminal. -/
theorem follow_exact_trailing :
    ∃ first follow set, trailing.first = .ok first ∧ trailing.follow first = .ok follow ∧
      trailing.isNonTerminal "A" = true ∧ follow.get? "A" = some set ∧
      set.members = ["$", "d"] ∧ trailing.IsFollow "A" set ∧
      (∃ head before after, trailing.isNonTerminal head = true ∧
        trailing.Derives [head] (before ++ "A" :: "d" :: after)) ∧
      (∃ start before, trailing.startSymbol = some start ∧
        trailing.Derives [start] (before ++ ["A"])) ∧
      ¬ ∃ head before after, trailing.isNonTerminal head = true ∧
        trailing.Derives [head] (before ++ "A" :: "a" :: after) := by
  obtain ⟨first, follow, firstFound, followFound, _, sets⟩ := follow_exact trailing
  have headed : trailing.isNonTerminal "A" = true := by decide
  obtain ⟨set, found, exact⟩ := sets "A" headed
  have evaluated : (trailing.first.toOption.bind fun first =>
      (trailing.follow first).toOption.bind fun follow =>
        (follow.get? "A").map SymbolSet.members) = some ["$", "d"] := by
    decide +kernel
  rw [firstFound] at evaluated
  change ((trailing.follow first).toOption.bind _) = _ at evaluated
  rw [followFound] at evaluated
  change (follow.get? "A").map SymbolSet.members = _ at evaluated
  rw [found] at evaluated
  have members : set.members = ["$", "d"] := Option.some_inj.mp evaluated
  refine ⟨first, follow, set, firstFound, followFound, headed, found, members, exact,
    (exact.terminals "d" (by decide)).mp ?_, exact.ending.mp ?_, fun derived =>
      absurd ((exact.terminals "a" (by decide)).mpr derived) ?_⟩
  all_goals
    rw [SymbolSet.mem_def, members]
    decide

end Grammar

end ShiftReduce
