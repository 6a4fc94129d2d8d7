/-
This file proves that the passes over FIRST and FOLLOW sets climb: every pass but the last makes
some set larger, and the last one changes nothing, which bounds their number by the room in the
sets. For FOLLOW this needs nothing of the FIRST sets but that they cover the bodies, and the
passes then end at the least sets that obey the laws of FOLLOW. The sets obey them because the
last pass changes nothing, and they are the least because whatever obeys the laws has all members
that a visit to an occurrence adds.
-/

import ShiftReduce.Proofs.FollowSets

namespace ShiftReduce

/-- The set of a symbol holds a member. -/
def SetMap.Holds (sets : SetMap) (symbol member : Symbol) : Prop :=
  ∃ set, sets.get? symbol = some set ∧ member ∈ set

namespace Grammar

/-! ### The laws of FOLLOW -/

/-- The laws of FOLLOW, for any FIRST sets and any relation that says what follows a symbol. The
end marker follows the start symbol. What the rest of a body can start with follows the
non-terminal in front of the rest, and if the rest can vanish, so does what follows the head. -/
structure FollowLaws (grammar : Grammar) (first : SetMap) (Follows : Symbol → Symbol → Prop) :
    Prop where
  ending : ∀ start, grammar.startSymbol = some start → Follows start Symbol.endMarker
  occurrences : ∀ production ∈ grammar.productions, ∀ before symbol after,
    production.body = before ++ symbol :: after → grammar.isNonTerminal symbol = true →
    ∃ ahead, firstOf first after = .ok ahead ∧
      (∀ member ∈ ahead, member ≠ Symbol.epsilon → Follows symbol member) ∧
      (Symbol.epsilon ∈ ahead → ∀ member, Follows production.head member → Follows symbol member)

/-- Sets for the non-terminals that obey the laws of FOLLOW, and hold nothing but what every
relation that obeys them holds. -/
structure IsLeastFollow (grammar : Grammar) (first follow : SetMap) : Prop where
  keys : follow.keys = grammar.nonTerminals
  laws : grammar.FollowLaws first follow.Holds
  least : ∀ Follows, grammar.FollowLaws first Follows →
    ∀ symbol member, follow.Holds symbol member → Follows symbol member

section Laws

variable {grammar : Grammar} {first follow : SetMap} {Follows : Symbol → Symbol → Prop}

/-- A visit to an occurrence adds nothing but what the laws ask for. -/
theorem FollowLaws.keptByVisits (laws : grammar.FollowLaws first Follows) :
    grammar.KeptByVisits first fun follow =>
      ∀ symbol member, follow.Holds symbol member → Follows symbol member := by
  rintro production productionMember before symbol after split nonTerminal follow _ kept
    ⟨known, ahead, above, knownFound, read, passedOn, rfl⟩ other member ⟨set, found, inside⟩
  rcases SymbolMap.get?_insert_eq_some_iff.mp found with ⟨rfl, rfl⟩ | ⟨_, found⟩
  · obtain ⟨actual, actualRead, started, passed⟩ :=
      laws.occurrences production productionMember before other after split nonTerminal
    rw [read, Except.ok.injEq] at actualRead
    subst actualRead
    simp only [SymbolSet.mem_union, SymbolSet.mem_erase] at inside
    rcases inside with (old | ⟨inAhead, visible⟩) | fromAbove
    · exact kept other member ⟨known, knownFound, old⟩
    · exact started member inAhead visible
    · obtain ⟨vanishes, aboveFound⟩ := mem_inherited passedOn fromAbove
      exact passed vanishes member (kept _ member ⟨above, aboveFound, fromAbove⟩)
  · exact kept other member ⟨set, found, inside⟩

/-- Initially nothing is held but what the laws ask for. -/
theorem FollowLaws.initially (laws : grammar.FollowLaws first Follows) :
    ∀ symbol member, grammar.initialFollow.Holds symbol member → Follows symbol member := by
  rintro symbol member ⟨set, found, inside⟩
  obtain ⟨started, rfl⟩ := eq_of_mem_initialFollow found inside
  exact laws.ending symbol started

/-- Closed sets that give the start symbol the end marker obey the laws. -/
theorem ClosedFollow.laws (closed : grammar.ClosedFollow first follow)
    (ends : ∀ start, grammar.startSymbol = some start →
      ∃ set, follow.get? start = some set ∧ Symbol.endMarker ∈ set) :
    grammar.FollowLaws first follow.Holds where
  ending := ends
  occurrences production member before symbol after split nonTerminal := by
    obtain ⟨set, ahead, found, read, started, passed⟩ :=
      closed production member before symbol after split nonTerminal
    refine ⟨ahead, read, fun other inside visible =>
      ⟨set, found, started other inside visible⟩, fun vanishes other held => ?_⟩
    obtain ⟨above, aboveFound, inside⟩ := passed vanishes
    obtain ⟨actual, actualFound, inActual⟩ := held
    rw [aboveFound, Option.some_inj] at actualFound
    subst actualFound
    exact ⟨set, found, inside other inActual⟩

end Laws

/-! ### Passes and their results -/

/-- The passes over FIRST sets climb, and there are no more of them than the sets of
non-terminals have room for. The passes over FOLLOW sets do so for all FIRST sets that cover the
bodies, computed or not, and end at the least sets that obey the laws of FOLLOW. -/
theorem passes_grow (grammar : Grammar) :
    (∃ results, grammar.firstPasses = .ok results ∧
      (∀ more, SetMap.passes grammar.firstPass (grammar.firstRounds + more)
        grammar.initialFirst = .ok results) ∧
      SetMap.Climbs grammar.firstPass grammar.initialFirst results ∧
      results.length ≤ grammar.nonTerminals.length * (grammar.terminals.length + 1) + 1) ∧
    ∀ first, grammar.CoversBodies first →
      ∃ results, grammar.followPasses first = .ok results ∧
        (∀ more, SetMap.passes (grammar.followPass first) (grammar.followRounds first + more)
          grammar.initialFollow = .ok results) ∧
        SetMap.Climbs (grammar.followPass first) grammar.initialFollow results ∧
        results.length ≤ grammar.nonTerminals.length * ((heldSymbols first).size + 1) + 1 ∧
        grammar.IsLeastFollow first (SetMap.settled results) := by
  constructor
  · obtain ⟨results, climbs, short, _⟩ :=
      grammar.first_climbs (fun _ => True) trivial fun _ _ _ _ _ _ _ _ => trivial
    exact ⟨results, climbs.passes_eq short,
      fun _ => climbs.passes_eq (Nat.le_add_right_of_le short), climbs, short⟩
  · intro first covers
    obtain ⟨results, climbs, short, keeps, closed, ends, kept⟩ := follow_climbs covers
      (fun follow => ∀ Follows, grammar.FollowLaws first Follows →
        ∀ symbol member, follow.Holds symbol member → Follows symbol member)
      (fun _ laws => laws.initially)
      fun production member before symbol after split nonTerminal follow next kept visit
        Follows laws => laws.keptByVisits production member before symbol after split nonTerminal
          follow next (kept Follows laws) visit
    exact ⟨results, climbs.passes_eq short,
      fun _ => climbs.passes_eq (Nat.le_add_right_of_le short), climbs, short,
      keeps.keys, closed.laws ends, kept⟩

/-- Heads that hand on what follows them against the order of the productions. -/
def relayed : Grammar :=
  ⟨[⟨0, "S", ["A", "D"]⟩, ⟨1, "C", ["D"]⟩, ⟨2, "B", ["C"]⟩, ⟨3, "A", ["B"]⟩, ⟨4, "D", []⟩], false,
    (faultOf_eq_none_iff _ _).mp (by decide)⟩

/-- FIRST sets that no grammar has: the last head starts with a symbol that does not occur. -/
def strangeFirst : SetMap :=
  SymbolMap.ofList [("A", ∅), ("B", ∅), ("C", ∅), ("D", SymbolSet.only "?")]

/-- The strange symbol goes one head further in every pass. -/
theorem passes_grow_relayed :
    ∃ results, relayed.CoversBodies strangeFirst ∧
      relayed.followPasses strangeFirst = .ok results ∧ results.length = 4 ∧
      SetMap.Climbs (relayed.followPass strangeFirst) relayed.initialFollow results ∧
      relayed.nonTerminals.length * ((heldSymbols strangeFirst).size + 1) + 1 = 11 ∧
      relayed.IsLeastFollow strangeFirst (SetMap.settled results) ∧
      ((SetMap.settled results).get? "D").map SymbolSet.members = some ["$", "?"] := by
  have covers : relayed.CoversBodies strangeFirst := by
    have each : ∀ production ∈ relayed.productions, ∀ symbol ∈ production.body,
        (strangeFirst.get? symbol).isSome = true := by
      decide +kernel
    exact fun production member symbol inside =>
      Option.isSome_iff_exists.mp (each production member symbol inside)
  obtain ⟨results, found, _, climbs, _, least⟩ := (passes_grow relayed).2 strangeFirst covers
  have evaluated : ((relayed.followPasses strangeFirst).toOption.map fun results =>
      (results.length, ((SetMap.settled results).get? "D").map SymbolSet.members)) =
        some (4, some ["$", "?"]) := by
    decide +kernel
  rw [found] at evaluated
  obtain ⟨four, members⟩ := Prod.mk.inj (Option.some_inj.mp evaluated)
  exact ⟨results, covers, found, four, climbs, by decide +kernel, least, members⟩

end Grammar

end ShiftReduce
