/-
This file proves that FIRST and FOLLOW sets go along with a change of spelling: every visit of
every pass adds the same members under other names, and a pass changes nothing where the other
pass changes nothing, because different sets stay different.
-/

import ShiftReduce.Proofs.SpelledSymbols

namespace ShiftReduce

section Sets

variable {spelling : Spelling} {first follow : SetMap}

@[simp] theorem epsilon_mem_respell {set : SymbolSet} :
    Symbol.epsilon ∈ set.respell spelling ↔ Symbol.epsilon ∈ set := by
  have image : spelling Symbol.epsilon ∈ set.respell spelling ↔ Symbol.epsilon ∈ set :=
    SymbolSet.image_mem_respell
  rw [spelling.fixes _ Symbol.epsilon_reserved] at image
  exact image

/-! ### FIRST sets -/

theorem firstOf_respell {string : List Symbol} {set : SymbolSet}
    (read : firstOf first string = .ok set) :
    firstOf (first.respell spelling (SymbolSet.respell spelling)) (string.map spelling) =
      .ok (set.respell spelling) := by
  have fixed := spelling.fixes _ Symbol.epsilon_reserved
  induction string generalizing set with
  | nil =>
    rw [← Except.ok.inj read, SymbolSet.only_respell, fixed]
    rfl
  | cons symbol rest inductionHypothesis =>
    obtain ⟨here, found, more⟩ := bind_eq_ok_iff.mp read
    rw [List.map_cons, firstOf, SymbolMap.lookup_respell found]
    show (if Symbol.epsilon ∈ here.respell spelling then _ else _) = _
    change (if Symbol.epsilon ∈ here then _ else _) = _ at more
    by_cases vanishes : Symbol.epsilon ∈ here
    · rw [if_pos vanishes] at more
      obtain ⟨later, laterRead, same⟩ := bind_eq_ok_iff.mp more
      rw [if_pos (epsilon_mem_respell.mpr vanishes), inductionHypothesis laterRead,
        ← Except.ok.inj same, SymbolSet.union_respell, SymbolSet.erase_respell, fixed]
      rfl
    · rw [if_neg vanishes] at more
      rw [if_neg fun inside => vanishes (epsilon_mem_respell.mp inside), ← Except.ok.inj more]
      rfl

theorem firstStep_respell {production : Production} {next : SetMap}
    (stepped : Grammar.firstStep first production = .ok next) :
    Grammar.firstStep (first.respell spelling (SymbolSet.respell spelling))
        (production.respell spelling) =
      .ok (next.respell spelling (SymbolSet.respell spelling)) := by
  obtain ⟨known, found, more⟩ := bind_eq_ok_iff.mp stepped
  obtain ⟨body, read, same⟩ := bind_eq_ok_iff.mp more
  have head : (first.respell spelling (SymbolSet.respell spelling)).lookup
      (production.respell spelling).head = .ok _ := SymbolMap.lookup_respell found
  have rest : firstOf (first.respell spelling (SymbolSet.respell spelling))
      (production.respell spelling).body = .ok _ := firstOf_respell read
  rw [Grammar.firstStep, head, rest, ← Except.ok.inj same, SymbolMap.insert_respell,
    SymbolSet.union_respell]
  rfl

/-! ### Passes -/

/-- Passes that go along with a change of spelling end at the same time, because different sets stay
different. -/
theorem passes_respell {pass other : SetMap → Except Fault SetMap}
    (each : ∀ before after, pass before = .ok after →
      other (before.respell spelling (SymbolSet.respell spelling)) =
        .ok (after.respell spelling (SymbolSet.respell spelling)))
    {rounds : Nat} {current : SetMap} {results : List SetMap}
    (done : SetMap.passes pass rounds current = .ok results) :
    SetMap.passes other rounds (current.respell spelling (SymbolSet.respell spelling)) =
      .ok (results.map fun sets => sets.respell spelling (SymbolSet.respell spelling)) := by
  induction rounds generalizing current results with
  | zero =>
    rw [← Except.ok.inj done]
    rfl
  | succ rounds inductionHypothesis =>
    obtain ⟨next, passed, more⟩ := bind_eq_ok_iff.mp done
    rw [SetMap.passes, each current next passed]
    show (if _ = _ then _ else _) = _
    change (if next = current then _ else _) = _ at more
    by_cases same : next = current
    · rw [if_pos same] at more
      rw [if_pos (congrArg _ same), ← Except.ok.inj more]
      rfl
    · rw [if_neg same] at more
      obtain ⟨later, passedLater, equal⟩ := bind_eq_ok_iff.mp more
      have apart : next.respell spelling (SymbolSet.respell spelling) ≠
          current.respell spelling (SymbolSet.respell spelling) :=
        fun equal => same (SymbolMap.respell_injective SymbolSet.respell_injective equal)
      rw [if_neg apart, inductionHypothesis passedLater, ← Except.ok.inj equal]
      rfl

theorem settled_respell (results : List SetMap) :
    SetMap.settled (results.map fun sets => sets.respell spelling (SymbolSet.respell spelling)) =
      (SetMap.settled results).respell spelling (SymbolSet.respell spelling) := by
  rw [SetMap.settled, List.getLast?_map, SetMap.settled]
  cases results.getLast? <;> rfl

end Sets

namespace Grammar

section Sets

variable {spelling : Spelling} {grammar : Grammar} {first follow : SetMap}

theorem initialFirst_respell : (grammar.respell spelling).initialFirst =
    grammar.initialFirst.respell spelling (SymbolSet.respell spelling) := by
  simp only [initialFirst, terminals_respell, nonTerminals_respell, SymbolMap.ofList_respell,
    List.map_append, List.map_map]
  rfl

theorem first_respell (found : grammar.first = .ok first) : (grammar.respell spelling).first =
    .ok (first.respell spelling (SymbolSet.respell spelling)) := by
  have pass : ∀ before after, grammar.firstPass before = .ok after →
      (grammar.respell spelling).firstPass (before.respell spelling (SymbolSet.respell spelling)) =
        .ok (after.respell spelling (SymbolSet.respell spelling)) :=
    fun before after passed =>
      foldlM_map (fun _ _ _ _ stepped => firstStep_respell stepped) passed
  have rounds : (grammar.respell spelling).firstRounds = grammar.firstRounds := by
    simp [firstRounds]
  obtain ⟨results, done, same⟩ := bind_eq_ok_iff.mp (show (grammar.firstPasses >>= fun results =>
    pure (SetMap.settled results)) = .ok first from found)
  rw [Grammar.first, firstPasses, rounds, initialFirst_respell, passes_respell pass done,
    ← Except.ok.inj same, ← settled_respell]
  rfl

/-! ### FOLLOW sets -/

theorem initialFollow_respell : (grammar.respell spelling).initialFollow =
    grammar.initialFollow.respell spelling (SymbolSet.respell spelling) := by
  have unknown : SymbolMap.ofList ((grammar.respell spelling).nonTerminals.map
        fun symbol => (symbol, (∅ : SymbolSet))) =
      (SymbolMap.ofList (grammar.nonTerminals.map fun symbol => (symbol, ∅))).respell spelling
        (SymbolSet.respell spelling) := by
    simp only [nonTerminals_respell, SymbolMap.ofList_respell, List.map_map]
    rfl
  rw [initialFollow, initialFollow, startSymbol_respell, unknown]
  cases grammar.startSymbol with
  | none => rfl
  | some start =>
    show SymbolMap.insert _ (spelling start) (SymbolSet.only Symbol.endMarker) =
      (SymbolMap.insert _ start _).respell spelling (SymbolSet.respell spelling)
    rw [SymbolMap.insert_respell, SymbolSet.only_respell,
      spelling.fixes _ Symbol.endMarker_reserved]

theorem inherited_respell {head : Symbol} {ahead above : SymbolSet}
    (passedOn : inherited follow head ahead = .ok above) :
    inherited (follow.respell spelling (SymbolSet.respell spelling)) (spelling head)
        (ahead.respell spelling) =
      .ok (above.respell spelling) := by
  unfold inherited at passedOn ⊢
  by_cases vanishes : Symbol.epsilon ∈ ahead
  · rw [if_pos vanishes] at passedOn
    rw [if_pos (epsilon_mem_respell.mpr vanishes), SymbolMap.lookup_respell passedOn]
  · rw [if_neg vanishes] at passedOn
    rw [if_neg fun inside => vanishes (epsilon_mem_respell.mp inside), ← Except.ok.inj passedOn]
    rfl

theorem followBody_respell {head : Symbol} {body : List Symbol} {next : SetMap}
    (visited : grammar.followBody first head body follow = .ok next) :
    (grammar.respell spelling).followBody (first.respell spelling (SymbolSet.respell spelling))
        (spelling head) (body.map spelling)
        (follow.respell spelling (SymbolSet.respell spelling)) =
      .ok (next.respell spelling (SymbolSet.respell spelling)) := by
  induction body generalizing follow with
  | nil =>
    rw [← Except.ok.inj visited]
    rfl
  | cons symbol rest inductionHypothesis =>
    rw [followBody] at visited
    rw [List.map_cons, followBody, isNonTerminal_respell]
    by_cases nonTerminal : grammar.isNonTerminal symbol = true
    · rw [if_pos nonTerminal] at visited ⊢
      obtain ⟨known, found, more⟩ := bind_eq_ok_iff.mp visited
      obtain ⟨ahead, read, more⟩ := bind_eq_ok_iff.mp more
      obtain ⟨above, passedOn, more⟩ := bind_eq_ok_iff.mp more
      have later := inductionHypothesis more
      rw [SymbolMap.insert_respell, SymbolSet.union_respell, SymbolSet.union_respell,
        SymbolSet.erase_respell, spelling.fixes _ Symbol.epsilon_reserved] at later
      rw [SymbolMap.lookup_respell found, firstOf_respell read]
      show (inherited _ _ _ >>= _) = _
      rw [inherited_respell passedOn]
      exact later
    · rw [if_neg nonTerminal] at visited ⊢
      exact inductionHypothesis visited

theorem heldSymbols_respell (sets : SetMap) :
    heldSymbols (sets.respell spelling (SymbolSet.respell spelling)) =
      (heldSymbols sets).respell spelling := by
  rw [heldSymbols, heldSymbols, SymbolSet.erase_respell, SymbolSet.ofList_respell,
    spelling.fixes _ Symbol.epsilon_reserved, SymbolMap.values_respell]
  refine congrArg (fun set => SymbolSet.erase set Symbol.epsilon) (SymbolSet.ext fun symbol => ?_)
  simp only [SymbolSet.mem_ofList, List.flatMap_map, List.map_flatMap, List.mem_flatMap]
  refine exists_congr fun set => and_congr_right fun _ => ?_
  rw [List.mem_map]
  exact SymbolSet.mem_respell

theorem follow_respell (found : grammar.follow first = .ok follow) :
    (grammar.respell spelling).follow (first.respell spelling (SymbolSet.respell spelling)) =
      .ok (follow.respell spelling (SymbolSet.respell spelling)) := by
  have pass : ∀ before after, grammar.followPass first before = .ok after →
      (grammar.respell spelling).followPass (first.respell spelling (SymbolSet.respell spelling))
          (before.respell spelling (SymbolSet.respell spelling)) =
        .ok (after.respell spelling (SymbolSet.respell spelling)) :=
    fun before after passed =>
      foldlM_map (fun _ _ _ _ visited => followBody_respell visited) passed
  have rounds : (grammar.respell spelling).followRounds
      (first.respell spelling (SymbolSet.respell spelling)) = grammar.followRounds first := by
    simp [followRounds, heldSymbols_respell]
  obtain ⟨results, done, same⟩ := bind_eq_ok_iff.mp (show (grammar.followPasses first >>=
    fun results => pure (SetMap.settled results)) = .ok follow from found)
  rw [Grammar.follow, followPasses, rounds, initialFollow_respell, passes_respell pass done,
    ← Except.ok.inj same, ← settled_respell]
  rfl

theorem lookaheadSets_respell {sets : LookaheadSets} (found : grammar.lookaheadSets = .ok sets) :
    (grammar.respell spelling).lookaheadSets = .ok (sets.respell spelling) := by
  obtain ⟨first, firstFound, more⟩ := bind_eq_ok_iff.mp found
  obtain ⟨follow, followFound, same⟩ := bind_eq_ok_iff.mp more
  rw [lookaheadSets, first_respell firstFound, ← Except.ok.inj same]
  show (Grammar.follow _ _ >>= _) = _
  rw [follow_respell followFound]
  rfl

end Sets

end Grammar

end ShiftReduce
