/-
This file proves that the table goes along with a change of spelling. Every item asks for the same
entries under other names and in the same order, because tokens are taken from the columns and not
from the lookahead sets; and different entries stay different, so the first entry wins in the same
cells and the others are logged as the same conflicts.
-/

import ShiftReduce.Proofs.SpelledAutomata

namespace ShiftReduce

/-! ### Entries -/

theorem Production.respell_injective (spelling : Spelling) :
    Function.Injective (Production.respell spelling) := by
  rintro ⟨id, head, body⟩ ⟨otherId, otherHead, otherBody⟩ same
  obtain ⟨ids, heads, bodies⟩ := Production.mk.inj same
  have sameHead : head = otherHead := spelling.injective heads
  have sameBody : body = otherBody := List.map_injective_iff.mpr spelling.injective bodies
  rw [show id = otherId from ids, sameHead, sameBody]

theorem Entry.respell_injective (spelling : Spelling) :
    Function.Injective (Entry.respell spelling) := by
  intro entry other same
  cases entry with
  | reduce production =>
    cases other with
    | reduce another =>
      exact congrArg reduce (Production.respell_injective spelling (reduce.inj same))
    | _ => cases same
  | _ =>
    cases other <;> cases same
    all_goals rfl

@[simp] theorem ConflictKind.between_respell (spelling : Spelling) (existing attempted : Entry) :
    between (existing.respell spelling) (attempted.respell spelling) =
      between existing attempted := by
  cases existing <;> cases attempted <;> rfl

namespace Table

section Tables

variable {spelling : Spelling} {grammar : Grammar} {follow : SetMap} {start : Production}
  {state : State} {item : Item} {asked : List Request}

/-! ### Requests -/

/-- The columns give the order of the tokens, and a lookahead set decides on membership only. -/
theorem completeRequests_respell
    (requested : completeRequests grammar follow start item = .ok asked) :
    completeRequests (grammar.respell spelling)
        (follow.respell spelling (SymbolSet.respell spelling)) (start.respell spelling)
        (item.respell spelling) =
      .ok (asked.map (Request.respell spelling)) := by
  unfold completeRequests at requested ⊢
  by_cases own : item.production.id = start.id
  · rw [if_pos own] at requested
    rw [if_pos (show (item.respell spelling).production.id = (start.respell spelling).id from own),
      ← Except.ok.inj requested, List.map_singleton, Request.respell,
      spelling.fixes _ Symbol.endMarker_reserved]
    rfl
  · rw [if_neg own] at requested
    obtain ⟨lookahead, known, same⟩ := bind_eq_ok_iff.mp requested
    have head : (follow.respell spelling (SymbolSet.respell spelling)).lookup
        (item.respell spelling).production.head = .ok _ := SymbolMap.lookup_respell known
    have taken : ((columns grammar).map spelling).filter
        (fun token => decide (token ∈ lookahead.respell spelling)) =
        ((columns grammar).filter fun token => decide (token ∈ lookahead)).map spelling := by
      rw [List.filter_map]
      refine congrArg (List.map spelling) (List.filter_congr fun token _ => ?_)
      exact decide_eq_decide.mpr SymbolSet.image_mem_respell
    have apart : ¬ (item.respell spelling).production.id = (start.respell spelling).id := own
    rw [if_neg apart, head, ← Except.ok.inj same, List.map_map, columns_respell]
    show Except.ok (List.map _ (List.filter _ _)) = _
    rw [taken, List.map_map]
    rfl

theorem itemRequests_respell
    (requested : itemRequests grammar follow start state item = .ok asked) :
    itemRequests (grammar.respell spelling)
        (follow.respell spelling (SymbolSet.respell spelling)) (start.respell spelling)
        (state.respell spelling) (item.respell spelling) =
      .ok (asked.map (Request.respell spelling)) := by
  unfold itemRequests at requested ⊢
  rw [Item.symbol?_respell]
  cases behind : item.symbol? with
  | none =>
    rw [behind] at requested
    exact completeRequests_respell requested
  | some symbol =>
    rw [behind] at requested
    show (if (grammar.respell spelling).isTerminal (spelling symbol) then _ else _) = _
    change (if grammar.isTerminal symbol then _ else _) = _ at requested
    rw [Grammar.isTerminal_respell]
    by_cases terminal : grammar.isTerminal symbol = true
    · rw [if_pos terminal] at requested ⊢
      obtain ⟨next, found, same⟩ := bind_eq_ok_iff.mp requested
      have led : (state.respell spelling).transitions.lookup (spelling symbol) = .ok next :=
        SymbolMap.lookup_respell found
      rw [led, ← Except.ok.inj same]
      rfl
    · rw [if_neg terminal] at requested ⊢
      rw [← Except.ok.inj requested]
      rfl

theorem requests_respell (requested : requests grammar follow start state = .ok asked) :
    requests (grammar.respell spelling) (follow.respell spelling (SymbolSet.respell spelling))
        (start.respell spelling) (state.respell spelling) =
      .ok (asked.map (Request.respell spelling)) := by
  obtain ⟨lists, done, same⟩ := bind_eq_ok_iff.mp requested
  have all : (state.respell spelling).items.items.mapM (itemRequests (grammar.respell spelling)
        (follow.respell spelling (SymbolSet.respell spelling)) (start.respell spelling)
        (state.respell spelling)) =
      .ok (lists.map (List.map (Request.respell spelling))) :=
    mapM_map (fun _ _ _ found => itemRequests_respell found) done
  rw [requests, all, ← Except.ok.inj same, List.map_flatten]
  rfl

/-! ### Rows -/

theorem grant_respell (number : Int) (asked : List Request) (row : SymbolMap Entry)
    (conflicts : List Conflict) :
    grant number (asked.map (Request.respell spelling))
        (row.respell spelling (Entry.respell spelling))
        (conflicts.map (Conflict.respell spelling)) =
      ((grant number asked row conflicts).1.respell spelling (Entry.respell spelling),
        (grant number asked row conflicts).2.map (Conflict.respell spelling)) := by
  induction asked generalizing row conflicts with
  | nil => rfl
  | cons request rest inductionHypothesis =>
    obtain ⟨token, entry⟩ := request
    rw [List.map_cons, Request.respell, grant, grant, SymbolMap.get?_respell]
    cases row.get? token with
    | none =>
      have later := inductionHypothesis (row.insert token entry) conflicts
      rw [SymbolMap.insert_respell] at later
      exact later
    | some existing =>
      simp only [Option.map_some]
      by_cases same : existing = entry
      · rw [if_pos same, if_pos (congrArg (Entry.respell spelling) same)]
        exact inductionHypothesis row conflicts
      · rw [if_neg same, if_neg fun equal => same (Entry.respell_injective spelling equal)]
        have later := inductionHypothesis row
          (conflicts ++ [⟨number, token, .between existing entry, existing, entry⟩])
        rw [List.map_append, List.map_singleton, Conflict.respell] at later
        simpa using later

theorem gotoRow_respell (grammar : Grammar) (state : State) :
    gotoRow (grammar.respell spelling) (state.respell spelling) =
      (gotoRow grammar state).respell spelling fun target => target := by
  rw [gotoRow, gotoRow, Grammar.nonTerminals_respell, SymbolMap.ofList_respell,
    List.filterMap_map, List.map_filterMap]
  refine congrArg SymbolMap.ofList (List.filterMap_congr fun symbol _ => ?_)
  have led : (state.respell spelling).transitions.get? (spelling symbol) =
      (state.transitions.get? symbol).map fun target => target :=
    SymbolMap.get?_respell _ _ _ _
  rw [Function.comp_apply, led]
  cases state.transitions.get? symbol <;> rfl

theorem buildRow_respell {row : Row} {conflicts : List Conflict}
    (built : buildRow grammar follow start state = .ok (row, conflicts)) :
    buildRow (grammar.respell spelling) (follow.respell spelling (SymbolSet.respell spelling))
        (start.respell spelling) (state.respell spelling) =
      .ok (row.respell spelling, conflicts.map (Conflict.respell spelling)) := by
  obtain ⟨asked, requested, same⟩ := bind_eq_ok_iff.mp built
  have granted : grant state.id (asked.map (Request.respell spelling)) ∅ [] = _ :=
    grant_respell state.id asked ∅ []
  obtain ⟨rowSame, conflictsSame⟩ := Prod.mk.inj (Except.ok.inj same)
  rw [buildRow, requests_respell requested, ← rowSame, ← conflictsSame]
  show Except.ok (Row.mk (grant state.id _ ∅ []).1 _, (grant state.id _ ∅ []).2) = _
  rw [granted, gotoRow_respell]
  rfl

/-! ### Tables -/

theorem ofRows_respell {rows : List Row} {conflicts : List Conflict} {table : Table}
    (made : ofRows grammar rows conflicts = .ok table) :
    ofRows (grammar.respell spelling) (rows.map (Row.respell spelling))
        (conflicts.map (Conflict.respell spelling)) =
      .ok (table.respell spelling) := by
  obtain ⟨start, found, same⟩ := bind_eq_ok_iff.mp made
  have kept : ((grammar.respell spelling).nonTerminals).filter
        (fun symbol => symbol != (start.respell spelling).head) =
      (grammar.nonTerminals.filter fun symbol => symbol != start.head).map spelling := by
    rw [Grammar.nonTerminals_respell, List.filter_map]
    refine congrArg (List.map spelling) (List.filter_congr fun symbol _ => ?_)
    exact congrArg Bool.not spelling.injective.beq_eq
  rw [ofRows, Grammar.startProduction_respell found, ← Except.ok.inj same, Table.respell,
    ← columns_respell, ← kept]
  rfl

theorem build_respell {states : List State} {table : Table}
    (built : build grammar states follow = .ok table) :
    build (grammar.respell spelling) (states.map (State.respell spelling))
        (follow.respell spelling (SymbolSet.respell spelling)) =
      .ok (table.respell spelling) := by
  unfold build at built ⊢
  by_cases augmented : grammar.augmented = true
  · rw [if_pos augmented] at built
    rw [if_pos (show (grammar.respell spelling).augmented = true from augmented)]
    obtain ⟨start, found, more⟩ := bind_eq_ok_iff.mp built
    obtain ⟨rows, done, made⟩ := bind_eq_ok_iff.mp more
    have all : (states.map (State.respell spelling)).mapM (buildRow (grammar.respell spelling)
          (follow.respell spelling (SymbolSet.respell spelling)) (start.respell spelling)) =
        .ok (rows.map fun pair =>
          (pair.1.respell spelling, pair.2.map (Conflict.respell spelling))) :=
      mapM_map (fun _ _ _ found => buildRow_respell found) done
    have filled : ofRows (grammar.respell spelling) _ _ = .ok (table.respell spelling) :=
      ofRows_respell made
    rw [List.map_map, List.map_flatMap] at filled
    refine bind_eq_ok_iff.mpr ⟨_, Grammar.startProduction_respell found,
      bind_eq_ok_iff.mpr ⟨_, all, ?_⟩⟩
    rw [List.map_map, List.flatMap_map]
    exact filled
  · rw [if_neg augmented] at built
    cases built

end Tables

end Table

end ShiftReduce
