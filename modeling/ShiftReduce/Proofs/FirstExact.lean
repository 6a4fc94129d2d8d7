/-
This file proves that FIRST sets are exact: the set of a string holds the terminals in front
of what the string derives, the empty word if the string derives it, and nothing else. What
is derived may hold non-terminals, so those that derive no tokens count as well. That every
member is derived holds of the initial sets and is kept by every visit to a production. That
none is missing holds of all closed sets: a replacement adds nothing to FIRST of a string, by
splitting the string in front of and behind the replaced head, and neither does a derivation.
-/

import ShiftReduce.Proofs.FirstSets

namespace ShiftReduce

/-! ### FIRST of a string in parts -/

section Strings

variable {first : SetMap} {symbol : Symbol} {here : SymbolSet} {left right string : List Symbol}

/-- FIRST of a string comes from the set of its first symbol, and from the rest of the string
if that symbol can vanish. -/
theorem firstOf_cons_eq_ok_iff {set : SymbolSet} :
    firstOf first (symbol :: string) = .ok set ↔ ∃ here, first.get? symbol = some here ∧
      (Symbol.epsilon ∉ here ∧ set = here ∨ Symbol.epsilon ∈ here ∧
        ∃ later, firstOf first string = .ok later ∧ set = here.erase Symbol.epsilon ∪ later) := by
  constructor
  · intro read
    cases looked : first.lookup symbol with
    | error fault =>
      rw [firstOf, looked] at read
      cases read
    | ok here =>
      have found := SymbolMap.lookup_eq_ok_iff.mp looked
      refine ⟨here, found, ?_⟩
      by_cases vanishes : Symbol.epsilon ∈ here
      · right
        cases rest : firstOf first string with
        | error fault =>
          rw [firstOf, looked, rest] at read
          change (if Symbol.epsilon ∈ here then _ else _) = _ at read
          rw [if_pos vanishes] at read
          cases read
        | ok later =>
          rw [firstOf_cons_of_mem found vanishes rest] at read
          exact ⟨vanishes, later, rfl, (Except.ok.inj read).symm⟩
      · rw [firstOf_cons_of_not_mem found vanishes] at read
        exact .inl ⟨vanishes, (Except.ok.inj read).symm⟩
  · rintro ⟨here, found, ⟨visible, rfl⟩ | ⟨vanishes, later, rest, rfl⟩⟩
    · exact firstOf_cons_of_not_mem found visible
    · exact firstOf_cons_of_mem found vanishes rest

/-- FIRST of a string of one symbol has the members of its set. -/
theorem firstOf_singleton (found : first.get? symbol = some here) :
    ∃ set, firstOf first [symbol] = .ok set ∧ ∀ member, member ∈ set ↔ member ∈ here := by
  by_cases vanishes : Symbol.epsilon ∈ here
  · refine ⟨_, firstOf_cons_of_mem found vanishes rfl, fun member => ?_⟩
    rw [SymbolSet.mem_union, SymbolSet.mem_erase, SymbolSet.mem_only]
    constructor
    · rintro (⟨inside, _⟩ | rfl)
      · exact inside
      · exact vanishes
    · intro inside
      by_cases empty : member = Symbol.epsilon
      · exact .inr empty
      · exact .inl ⟨inside, empty⟩
  · exact ⟨here, firstOf_cons_of_not_mem found vanishes, fun _ => Iff.rfl⟩

/-- The right part of a string counts where the left part can vanish. -/
theorem firstOf_append {leftSet rightSet : SymbolSet} (leftRead : firstOf first left = .ok leftSet)
    (rightRead : firstOf first right = .ok rightSet) :
    ∃ set, firstOf first (left ++ right) = .ok set ∧ ∀ member, member ∈ set ↔
      member ∈ leftSet ∧ member ≠ Symbol.epsilon ∨
        Symbol.epsilon ∈ leftSet ∧ member ∈ rightSet := by
  induction left generalizing leftSet with
  | nil =>
    refine ⟨rightSet, rightRead, fun member => ?_⟩
    simp [← Except.ok.inj leftRead]
  | cons symbol rest inductionHypothesis =>
    obtain ⟨here, found, ⟨visible, rfl⟩ | ⟨vanishes, later, laterRead, rfl⟩⟩ :=
      firstOf_cons_eq_ok_iff.mp leftRead
    · refine ⟨leftSet, firstOf_cons_of_not_mem found visible, fun member => ?_⟩
      constructor
      · intro inside
        exact .inl ⟨inside, fun empty => visible (empty ▸ inside)⟩
      · rintro (⟨inside, _⟩ | ⟨vanishes, _⟩)
        · exact inside
        · exact absurd vanishes visible
    · obtain ⟨set, read, members⟩ := inductionHypothesis laterRead
      refine ⟨_, firstOf_cons_of_mem found vanishes read, fun member => ?_⟩
      simp only [SymbolSet.mem_union, SymbolSet.mem_erase, members]
      grind

end Strings

namespace Grammar

/-! ### What strings start with -/

/-- What a string can start with: a terminal in front of something it derives, or the empty
word if it can vanish. -/
def Starts (grammar : Grammar) (string : List Symbol) (member : Symbol) : Prop :=
  grammar.isTerminal member = true ∧ (∃ rest, grammar.Derives string (member :: rest)) ∨
    member = Symbol.epsilon ∧ grammar.Derives string []

/-- A set holds the terminals in front of what a string derives, the empty word if the string
derives it, and nothing else. -/
structure IsFirst (grammar : Grammar) (string : List Symbol) (set : SymbolSet) : Prop where
  terminals : ∀ token, grammar.isTerminal token = true →
    (token ∈ set ↔ ∃ rest, grammar.Derives string (token :: rest))
  empty : Symbol.epsilon ∈ set ↔ grammar.Derives string []
  only : ∀ member ∈ set, grammar.isTerminal member = true ∨ member = Symbol.epsilon

section Strings

variable {grammar : Grammar} {string other left right : List Symbol} {member : Symbol}
  {set : SymbolSet}

theorem Starts.leads (starts : grammar.Starts string member)
    (visible : member ≠ Symbol.epsilon) :
    grammar.isTerminal member = true ∧ ∃ rest, grammar.Derives string (member :: rest) :=
  starts.resolve_right fun both => visible both.1

theorem Starts.vanishes (starts : grammar.Starts string Symbol.epsilon) :
    grammar.Derives string [] :=
  (starts.resolve_left fun both => grammar.epsilon_not_isTerminal both.1).2

theorem Starts.of_derives (derived : grammar.Derives string other)
    (starts : grammar.Starts other member) : grammar.Starts string member :=
  starts.imp (.imp_right fun ⟨rest, later⟩ => ⟨rest, derived.trans later⟩)
    (.imp_right derived.trans)

theorem Starts.append_right (starts : grammar.Starts left member)
    (visible : member ≠ Symbol.epsilon) (right : List Symbol) :
    grammar.Starts (left ++ right) member := by
  obtain ⟨terminal, rest, derived⟩ := starts.leads visible
  exact .inl ⟨terminal, rest ++ right, derived.append (.refl right)⟩

theorem Starts.append_left (vanishes : grammar.Derives left [])
    (starts : grammar.Starts right member) : grammar.Starts (left ++ right) member :=
  starts.of_derives (vanishes.append (.refl right))

theorem isFirst_of_starts (exact : ∀ member, member ∈ set ↔ grammar.Starts string member) :
    grammar.IsFirst string set where
  terminals token terminal := by
    have visible : token ≠ Symbol.epsilon := fun empty =>
      grammar.epsilon_not_isTerminal (empty ▸ terminal)
    rw [exact]
    exact ⟨fun starts => (starts.leads visible).2, fun derived => .inl ⟨terminal, derived⟩⟩
  empty := by
    rw [exact]
    exact ⟨Starts.vanishes, fun derived => .inr ⟨rfl, derived⟩⟩
  only member inside := ((exact member).mp inside).imp And.left And.left

/-- Symbols of a grammar derive symbols of the grammar. -/
theorem Derives.mem_symbols (derived : grammar.Derives string other)
    (inside : ∀ symbol ∈ string, symbol ∈ grammar.symbols) :
    ∀ symbol ∈ other, symbol ∈ grammar.symbols := by
  induction derived with
  | refl => exact inside
  | tail _ replaced inductionHypothesis =>
    obtain ⟨before, after, production, productionMember⟩ := replaced
    intro symbol listed
    rw [List.append_assoc, List.mem_append, List.mem_append] at listed
    rcases listed with front | body | behind
    · exact inductionHypothesis symbol (List.mem_append_left _ front)
    · exact mem_symbols_iff.mpr (body_symbol productionMember body)
    · exact inductionHypothesis symbol (List.mem_append_right _ (List.mem_cons_of_mem _ behind))

end Strings

/-! ### Every member is derived -/

/-- The sets of a map hold nothing but what their symbols can start with. -/
def SoundFirst (grammar : Grammar) (first : SetMap) : Prop :=
  ∀ symbol set, first.get? symbol = some set → ∀ member ∈ set, grammar.Starts [symbol] member

section Sound

variable {grammar : Grammar} {first : SetMap}

theorem SoundFirst.starts (sound : grammar.SoundFirst first) {string : List Symbol}
    {set : SymbolSet} (read : firstOf first string = .ok set) {member : Symbol}
    (inside : member ∈ set) : grammar.Starts string member := by
  induction string generalizing set with
  | nil =>
    rw [← Except.ok.inj read, SymbolSet.mem_only] at inside
    exact .inr ⟨inside, .refl _⟩
  | cons symbol rest inductionHypothesis =>
    obtain ⟨here, found, ⟨visible, rfl⟩ | ⟨vanishes, later, laterRead, rfl⟩⟩ :=
      firstOf_cons_eq_ok_iff.mp read
    · exact (sound symbol set found member inside).append_right
        (fun empty => visible (empty ▸ inside)) rest
    · simp only [SymbolSet.mem_union, SymbolSet.mem_erase] at inside
      rcases inside with ⟨inHere, other⟩ | ofRest
      · exact (sound symbol here found member inHere).append_right other rest
      · exact .append_left (sound symbol here found _ vanishes).vanishes
          (inductionHypothesis laterRead ofRest)

theorem initialFirst_sound (grammar : Grammar) : grammar.SoundFirst grammar.initialFirst := by
  intro symbol set found member inside
  rcases get?_initialFirst.mp found with ⟨terminal, rfl⟩ | ⟨_, rfl⟩
  · rw [SymbolSet.mem_only.mp inside]
    exact .inl ⟨terminal, [], .refl _⟩
  · exact absurd inside (SymbolSet.not_mem_empty member)

/-- A visit to a production adds nothing but what its head can start with. -/
theorem SoundFirst.insert (sound : grammar.SoundFirst first) {production : Production}
    (productionMember : production ∈ grammar.productions) {known found : SymbolSet}
    (knownFound : first.get? production.head = some known)
    (read : firstOf first production.body = .ok found) :
    grammar.SoundFirst (first.insert production.head (known ∪ found)) := by
  intro symbol set inserted member inside
  rcases SymbolMap.get?_insert_eq_some_iff.mp inserted with ⟨rfl, rfl⟩ | ⟨_, inserted⟩
  · rcases SymbolSet.mem_union.mp inside with old | new
    · exact sound _ known knownFound member old
    · exact (sound.starts read new).of_derives (.single productionMember)
  · exact sound symbol set inserted member inside

end Sound

/-! ### No member is missing -/

section Closed

variable {grammar : Grammar} {first : SetMap} {string other : List Symbol}

/-- A replacement adds nothing to FIRST of a string. -/
theorem ClosedFirst.mem_of_replaces (closed : grammar.ClosedFirst first)
    (keeps : grammar.KeepsFirst first) (inside : ∀ symbol ∈ string, symbol ∈ grammar.symbols)
    (replaced : grammar.Replaces string other) {large small : SymbolSet}
    (read : firstOf first string = .ok large) (otherRead : firstOf first other = .ok small) :
    ∀ member ∈ small, member ∈ large := by
  obtain ⟨before, after, production, productionMember⟩ := replaced
  obtain ⟨known, found, knownFound, bodyRead, within⟩ :=
    closed.productions production productionMember
  obtain ⟨front, frontRead, _⟩ :=
    keeps.firstOf_exists fun symbol listed => inside symbol (List.mem_append_left _ listed)
  obtain ⟨behind, behindRead, _⟩ :=
    keeps.firstOf_exists fun symbol listed =>
      inside symbol (List.mem_append_right _ (List.mem_cons_of_mem _ listed))
  obtain ⟨headSet, headRead, headMembers⟩ := firstOf_singleton knownFound
  obtain ⟨_, headAfterRead, headAfter⟩ := firstOf_append headRead behindRead
  obtain ⟨_, bodyAfterRead, bodyAfter⟩ := firstOf_append bodyRead behindRead
  obtain ⟨_, wholeRead, whole⟩ := firstOf_append frontRead headAfterRead
  obtain ⟨_, newRead, new⟩ := firstOf_append frontRead bodyAfterRead
  rw [List.append_assoc, newRead, Except.ok.injEq] at otherRead
  rw [List.singleton_append] at wholeRead
  rw [wholeRead, Except.ok.injEq] at read
  subst otherRead read
  intro member listed
  rw [new, bodyAfter] at listed
  rw [whole, headAfter, headMembers, headMembers]
  refine listed.imp_right (.imp_right ?_)
  rintro (⟨ofBody, visible⟩ | ⟨vanishes, ofRest⟩)
  · exact .inl ⟨within member ofBody, visible⟩
  · exact .inr ⟨within _ vanishes, ofRest⟩

/-- A derivation adds nothing to FIRST of a string. -/
theorem ClosedFirst.mem_of_derives (closed : grammar.ClosedFirst first)
    (keeps : grammar.KeepsFirst first) (inside : ∀ symbol ∈ string, symbol ∈ grammar.symbols)
    (derived : grammar.Derives string other) {large small : SymbolSet}
    (read : firstOf first string = .ok large) (otherRead : firstOf first other = .ok small) :
    ∀ member ∈ small, member ∈ large := by
  induction derived generalizing small with
  | refl =>
    rw [read, Except.ok.injEq] at otherRead
    rw [otherRead]
    exact fun _ member => member
  | tail derived replaced inductionHypothesis =>
    have middleInside := derived.mem_symbols inside
    obtain ⟨middle, middleRead, _⟩ := keeps.firstOf_exists middleInside
    intro member listed
    exact inductionHypothesis middleRead member
      (closed.mem_of_replaces keeps middleInside replaced middleRead otherRead member listed)

/-- In closed sets FIRST of a string holds all that the string can start with. -/
theorem ClosedFirst.mem_of_starts (closed : grammar.ClosedFirst first)
    (keeps : grammar.KeepsFirst first) (inside : ∀ symbol ∈ string, symbol ∈ grammar.symbols)
    {set : SymbolSet} (read : firstOf first string = .ok set) {member : Symbol}
    (starts : grammar.Starts string member) : member ∈ set := by
  rcases starts with ⟨terminal, rest, derived⟩ | ⟨rfl, derived⟩
  · have own := closed.terminals member terminal
    have visible : Symbol.epsilon ∉ SymbolSet.only member := by
      rw [SymbolSet.mem_only]
      rintro rfl
      exact grammar.epsilon_not_isTerminal terminal
    exact closed.mem_of_derives keeps inside derived read (firstOf_cons_of_not_mem own visible)
      member (SymbolSet.mem_only.mpr rfl)
  · exact closed.mem_of_derives keeps inside derived read rfl _ (SymbolSet.mem_only.mpr rfl)

end Closed

/-! ### Exact sets -/

/-- FIRST of every string of symbols, and the set of every symbol, holds exactly what can come
first in what is derived. -/
theorem first_exact (grammar : Grammar) :
    ∃ first, grammar.first = .ok first ∧
      (∀ string, (∀ symbol ∈ string, symbol ∈ grammar.symbols) →
        ∃ set, firstOf first string = .ok set ∧ grammar.IsFirst string set) ∧
      ∀ symbol ∈ grammar.symbols, ∃ set, first.get? symbol = some set ∧
        grammar.IsFirst [symbol] set := by
  obtain ⟨first, found, keeps, closed, sound⟩ :=
    grammar.first_settles grammar.SoundFirst grammar.initialFirst_sound
      fun production member _ _ _ sound knownFound read => sound.insert member knownFound read
  have exact : ∀ string, (∀ symbol ∈ string, symbol ∈ grammar.symbols) →
      ∃ set, firstOf first string = .ok set ∧
        ∀ member, member ∈ set ↔ grammar.Starts string member := fun string inside => by
    obtain ⟨set, read, _⟩ := keeps.firstOf_exists inside
    exact ⟨set, read, fun member =>
      ⟨sound.starts read, closed.mem_of_starts keeps inside read⟩⟩
  refine ⟨first, found, fun string inside => ?_, fun symbol listed => ?_⟩
  · obtain ⟨set, read, members⟩ := exact string inside
    exact ⟨set, read, isFirst_of_starts members⟩
  · obtain ⟨here, hereFound⟩ := keeps.covered listed
    obtain ⟨set, read, same⟩ := firstOf_singleton hereFound
    obtain ⟨other, otherRead, members⟩ := exact [symbol] (List.forall_mem_singleton.mpr listed)
    rw [read, Except.ok.injEq] at otherRead
    subst otherRead
    exact ⟨here, hereFound, isFirst_of_starts fun member => (same member).symm.trans
      (members member)⟩

/-- Left recursion, heads that can vanish, and a head that derives no tokens. -/
def vanishing : Grammar :=
  ⟨[⟨0, "S", ["A", "S", "b"]⟩, ⟨1, "S", []⟩, ⟨2, "A", ["A", "a"]⟩, ⟨3, "A", []⟩,
    ⟨4, "U", ["c", "U"]⟩], false, (faultOf_eq_none_iff _ _).mp (by decide)⟩

/-- Behind a head that can vanish, a head that derives no tokens still brings its terminal. -/
theorem first_exact_vanishing :
    ∃ first set, vanishing.first = .ok first ∧ firstOf first ["S", "U"] = .ok set ∧
      set.members = ["a", "b", "c"] ∧ vanishing.IsFirst ["S", "U"] set ∧
      (∃ rest, vanishing.Derives ["S", "U"] ("c" :: rest)) ∧
      ¬ vanishing.Derives ["S", "U"] [] := by
  obtain ⟨first, found, strings, _⟩ := first_exact vanishing
  obtain ⟨set, read, exact⟩ := strings ["S", "U"] (by decide)
  have evaluated : (vanishing.first.toOption.bind fun first =>
      (firstOf first ["S", "U"]).toOption.map SymbolSet.members) = some ["a", "b", "c"] := by
    decide +kernel
  rw [found] at evaluated
  change (firstOf first ["S", "U"]).toOption.map SymbolSet.members = _ at evaluated
  rw [read] at evaluated
  have members : set.members = ["a", "b", "c"] := Option.some_inj.mp evaluated
  refine ⟨first, set, found, read, members, exact, (exact.terminals "c" (by decide)).mp ?_,
    fun vanishes => absurd (exact.empty.mpr vanishes) ?_⟩
  · rw [SymbolSet.mem_def, members]
    decide
  · rw [SymbolSet.mem_def, members]
    decide

end Grammar

end ShiftReduce
