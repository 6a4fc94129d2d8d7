/-
This file proves what the items of a state ask its cells to hold, and what becomes of it. An
item asks a cell for at most one entry, so the candidates of a state are those of its items.
A cell takes the first entry it is asked to hold, which is that of the first item to ask for
one, and every other entry that it is asked to hold is logged as a conflict. For canonical
states and lookahead sets for all heads no request can fail.
-/

import ShiftReduce.Proofs.Exploration
import ShiftReduce.Proofs.FollowSets
import ShiftReduce.Proofs.Lists
import ShiftReduce.Table.Candidate

namespace ShiftReduce

@[simp] theorem State.mem_alone {state : State} {item other : Item} :
    other ∈ (state.alone item).items.items ↔ other = item :=
  List.mem_singleton

namespace Table

/-! ### Candidates of single items -/

section Candidates

variable {grammar : Grammar} {follow : SetMap} {start : Production} {state : State}
  {token : Symbol} {entry first second : Entry} {item : Item}

/-- The candidates of a state are the candidates of its items. -/
theorem candidate_iff_alone :
    Candidate grammar follow start state token entry ↔
      ∃ item ∈ state.items.items,
        Candidate grammar follow start (state.alone item) token entry := by
  constructor
  · intro candidate
    cases candidate with
    | shift member behind terminal leads =>
      exact ⟨_, member, .shift (State.mem_alone.mpr rfl) behind terminal leads⟩
    | reduce member complete other known column ahead =>
      exact ⟨_, member, .reduce (State.mem_alone.mpr rfl) complete other known column ahead⟩
    | accept member complete own ending =>
      exact ⟨_, member, .accept (State.mem_alone.mpr rfl) complete own ending⟩
  · rintro ⟨item, member, candidate⟩
    cases candidate with
    | shift single behind terminal leads =>
      rw [State.mem_alone.mp single] at behind
      exact .shift member behind terminal leads
    | reduce single complete other known column ahead =>
      rw [State.mem_alone.mp single] at complete other known ⊢
      exact .reduce member complete other known column ahead
    | accept single complete own ending =>
      rw [State.mem_alone.mp single] at complete own
      exact .accept member complete own ending

/-- An item calls for one entry in a cell. -/
theorem Candidate.eq_of_alone
    (one : Candidate grammar follow start (state.alone item) token first)
    (other : Candidate grammar follow start (state.alone item) token second) :
    first = second := by
  have ended {reader ender : Item} (readerSingle : reader ∈ (state.alone item).items.items)
      (enderSingle : ender ∈ (state.alone item).items.items)
      (behind : reader.symbol? = some token) (complete : ender.isComplete = true) : False := by
    rw [State.mem_alone.mp readerSingle] at behind
    rw [State.mem_alone.mp enderSingle, ← Item.symbol?_eq_none_iff, behind] at complete
    cases complete
  cases one with
  | shift single behind _ leads =>
    cases other with
    | shift _ _ _ otherLeads =>
      rw [leads] at otherLeads
      rw [Option.some_inj.mp otherLeads]
    | reduce otherSingle complete => exact (ended single otherSingle behind complete).elim
    | accept otherSingle complete => exact (ended single otherSingle behind complete).elim
  | reduce single complete different =>
    cases other with
    | shift otherSingle behind => exact (ended otherSingle single behind complete).elim
    | reduce otherSingle => rw [State.mem_alone.mp single, State.mem_alone.mp otherSingle]
    | accept otherSingle _ own =>
      rw [State.mem_alone.mp single] at different
      rw [State.mem_alone.mp otherSingle] at own
      exact absurd own different
  | accept single complete own =>
    cases other with
    | shift otherSingle behind => exact (ended otherSingle single behind complete).elim
    | reduce otherSingle _ different =>
      rw [State.mem_alone.mp single] at own
      rw [State.mem_alone.mp otherSingle] at different
      exact absurd own different
    | accept => rfl

/-- A state leads to one state by a terminal. -/
theorem Candidate.shift_eq {one other : Int}
    (candidate : Candidate grammar follow start state token (.shift one))
    (rival : Candidate grammar follow start state token (.shift other)) : one = other := by
  cases candidate with
  | shift _ _ _ leads =>
    cases rival with
    | shift _ _ _ otherLeads =>
      rw [leads] at otherLeads
      rw [Option.some_inj.mp otherLeads]

/-! ### The first item to call for an entry -/

theorem Foremost.candidate (foremost : Foremost grammar follow start state token entry) :
    Candidate grammar follow start state token entry := by
  obtain ⟨before, item, after, split, candidate, _⟩ := foremost
  refine candidate_iff_alone.mpr ⟨item, ?_, candidate⟩
  rw [split]
  exact List.mem_append_right _ List.mem_cons_self

/-- If an item calls for an entry, some item is the first to do so. -/
theorem Candidate.exists_foremost
    (candidate : Candidate grammar follow start state token entry) :
    ∃ foremost, Foremost grammar follow start state token foremost := by
  classical
  obtain ⟨item, member, called⟩ := candidate_iff_alone.mp candidate
  let calls (item : Item) : Prop :=
    ∃ entry, Candidate grammar follow start (state.alone item) token entry
  have found : (state.items.items.find? fun item => calls item).isSome = true :=
    List.find?_isSome.mpr ⟨item, member, decide_eq_true ⟨entry, called⟩⟩
  obtain ⟨first, foundFirst⟩ := Option.isSome_iff_exists.mp found
  obtain ⟨callsFirst, before, after, split, silent⟩ :=
    List.find?_eq_some_iff_append.mp foundFirst
  obtain ⟨foremost, callsForemost⟩ := of_decide_eq_true callsFirst
  refine ⟨foremost, before, first, after, split, callsForemost,
    fun earlier inside other rival => ?_⟩
  exact of_decide_eq_false ((Bool.not_eq_true' _).mp (silent earlier inside)) ⟨other, rival⟩

end Candidates

/-! ### First come, first served -/

section Grants

variable {state : Int} {token : Symbol} {entry existing : Entry} {asked : List Request}
  {row : SymbolMap Entry} {conflicts : List Conflict}

theorem grant_of_free (free : row.get? token = none) :
    grant state ((token, entry) :: asked) row conflicts =
      grant state asked (row.insert token entry) conflicts := by
  rw [grant, free]

theorem grant_of_same (held : row.get? token = some entry) :
    grant state ((token, entry) :: asked) row conflicts = grant state asked row conflicts := by
  rw [grant, held]
  exact if_pos rfl

theorem grant_of_other (held : row.get? token = some existing) (other : existing ≠ entry) :
    grant state ((token, entry) :: asked) row conflicts = grant state asked row (conflicts ++
      [⟨state, token, ConflictKind.between existing entry, existing, entry⟩]) := by
  rw [grant, held]
  exact if_neg other

/-- A cell keeps what it holds, or takes the first entry it is asked to hold. -/
@[simp] theorem get?_grant (state : Int) (asked : List Request) (row : SymbolMap Entry)
    (conflicts : List Conflict) (token : Symbol) :
    (grant state asked row conflicts).1.get? token =
      (row.get? token).or (asked.lookup token) := by
  induction asked generalizing row conflicts with
  | nil => exact Option.or_none.symm
  | cons request rest inductionHypothesis =>
    obtain ⟨column, entry⟩ := request
    have passed (other : (token == column) = false) :
        List.lookup token ((column, entry) :: rest) = List.lookup token rest := by
      rw [List.lookup_cons, other]
    cases held : row.get? column with
    | none =>
      rw [grant_of_free held, inductionHypothesis]
      by_cases same : token = column
      · simp [same, held]
      · rw [SymbolMap.get?_insert_other row same, passed (beq_false_of_ne same)]
    | some existing =>
      have kept : (row.get? token).or (List.lookup token rest) =
          (row.get? token).or (List.lookup token ((column, entry) :: rest)) := by
        by_cases same : token = column
        · rw [same, held, Option.some_or, Option.some_or]
        · rw [passed (beq_false_of_ne same)]
      by_cases equal : existing = entry
      · rw [grant_of_same (equal ▸ held), inductionHypothesis, kept]
      · rw [grant_of_other held equal, inductionHypothesis, kept]

/-- What a row logs of a request: a conflict, if the cell holds something else. -/
def refusal (state : Int) (row : SymbolMap Entry) (request : Request) : Option Conflict :=
  (row.get? request.1).bind fun existing =>
    if existing = request.2 then none
    else some ⟨state, request.1, ConflictKind.between existing request.2, existing, request.2⟩

theorem refusal_of_same (state : Int) (held : row.get? token = some entry) :
    refusal state row (token, entry) = none := by
  rw [refusal, held, Option.bind_some]
  exact if_pos rfl

theorem refusal_of_other (state : Int) (held : row.get? token = some existing)
    (other : existing ≠ entry) :
    refusal state row (token, entry) =
      some ⟨state, token, ConflictKind.between existing entry, existing, entry⟩ := by
  rw [refusal, held, Option.bind_some]
  exact if_neg other

theorem refusal_eq_some_iff {request : Request} {conflict : Conflict} :
    refusal state row request = some conflict ↔
      ∃ existing, row.get? request.1 = some existing ∧ existing ≠ request.2 ∧ conflict =
        ⟨state, request.1, ConflictKind.between existing request.2, existing, request.2⟩ := by
  rw [refusal, Option.bind_eq_some_iff]
  refine exists_congr fun existing => and_congr_right fun _ => ?_
  by_cases same : existing = request.2
  · rw [if_pos same]
    exact ⟨fun none => absurd none (Option.some_ne_none conflict).symm,
      fun both => absurd same both.1⟩
  · rw [if_neg same, and_iff_right same, Option.some_inj]
    exact eq_comm

/-- The log of a row has the requests that its cells turn away, in their order. -/
theorem log_grant (state : Int) (asked : List Request) (row : SymbolMap Entry)
    (conflicts : List Conflict) :
    (grant state asked row conflicts).2 =
      conflicts ++ asked.filterMap (refusal state (grant state asked row conflicts).1) := by
  induction asked generalizing row conflicts with
  | nil => exact (List.append_nil conflicts).symm
  | cons request rest inductionHypothesis =>
    obtain ⟨token, entry⟩ := request
    cases held : row.get? token with
    | none =>
      have final : (grant state rest (row.insert token entry) conflicts).1.get? token =
          some entry := by
        simp
      rw [grant_of_free held, inductionHypothesis,
        List.filterMap_cons_none (refusal_of_same state final)]
    | some existing =>
      have final (log : List Conflict) : (grant state rest row log).1.get? token =
          some existing := by
        simp [held]
      by_cases equal : existing = entry
      · rw [grant_of_same (equal ▸ held), inductionHypothesis,
          List.filterMap_cons_none (refusal_of_same state (equal ▸ final conflicts))]
      · rw [grant_of_other held equal, inductionHypothesis,
          List.filterMap_cons_some (refusal_of_other state (final _) equal), List.append_assoc,
          List.singleton_append]

/-- The log of a row names the requests that its cells turn away. -/
theorem mem_grant_iff {conflict : Conflict} :
    conflict ∈ (grant state asked row conflicts).2 ↔ conflict ∈ conflicts ∨
      ∃ request ∈ asked,
        refusal state (grant state asked row conflicts).1 request = some conflict := by
  rw [log_grant, List.mem_append, List.mem_filterMap]

end Grants

/-! ### Requests for one token -/

/-- The entries that requests name for a token. -/
def named (token : Symbol) (asked : List Request) : List Entry :=
  asked.filterMap fun request => if request.1 = token then some request.2 else none

section Named

variable {token other : Symbol} {entry : Entry} {asked : List Request}

@[simp] theorem named_cons_self :
    named token ((token, entry) :: asked) = entry :: named token asked :=
  List.filterMap_cons_some (if_pos rfl)

@[simp] theorem named_cons_other (apart : other ≠ token) :
    named token ((other, entry) :: asked) = named token asked :=
  List.filterMap_cons_none (if_neg apart)

theorem named_eq_nil (absent : token ∉ asked.map Prod.fst) : named token asked = [] := by
  refine List.filterMap_eq_nil_iff.mpr fun request member => if_neg ?_
  rintro rfl
  exact absent (List.mem_map_of_mem member)

/-- The first entry that is named is the one that is looked up. -/
@[simp] theorem head?_named (token : Symbol) (asked : List Request) :
    (named token asked).head? = asked.lookup token := by
  induction asked with
  | nil => rfl
  | cons request rest inductionHypothesis =>
    obtain ⟨column, entry⟩ := request
    by_cases same : column = token
    · simp [same]
    · rw [named_cons_other same, inductionHypothesis, List.lookup_cons,
        beq_false_of_ne (Ne.symm same)]

/-- Requests for different cells name at most one entry for a token. -/
theorem named_of_nodup (apart : (asked.map Prod.fst).Nodup) :
    named token asked = (asked.lookup token).toList := by
  induction asked with
  | nil => rfl
  | cons request rest inductionHypothesis =>
    obtain ⟨column, entry⟩ := request
    rw [List.map_cons, List.nodup_cons] at apart
    by_cases same : column = token
    · subst same
      simp [named_eq_nil apart.1]
    · rw [named_cons_other same, inductionHypothesis apart.2, List.lookup_cons,
        beq_false_of_ne (Ne.symm same)]

/-- What a filled row logs for a token is what is named for it and not held. -/
theorem log_of_token {row : SymbolMap Entry} (number : Int)
    (granted : ∀ request ∈ asked, row.get? request.1 ≠ none) :
    ((asked.filterMap (refusal number row)).filter fun conflict => conflict.symbol == token).map
        Conflict.attempted =
      (named token asked).filter fun entry => row.get? token != some entry := by
  rw [named, List.filter_filterMap, List.map_filterMap, List.filter_filterMap]
  refine List.filterMap_congr fun request member => ?_
  obtain ⟨existing, held⟩ := Option.ne_none_iff_exists'.mp (granted request member)
  obtain ⟨column, entry⟩ := request
  by_cases equal : existing = entry
  · rw [refusal_of_same number (equal ▸ held)]
    by_cases same : column = token
    · rw [if_pos same, ← same, held, equal, Option.filter_some, bne_self_eq_false]
      rfl
    · rw [if_neg same]
      rfl
  · rw [refusal_of_other number held equal]
    by_cases same : column = token
    · have different : (some existing != some entry) = true :=
        bne_iff_ne.mpr fun alike => equal (Option.some_inj.mp alike)
      rw [if_pos same, ← same, held, Option.filter_some, Option.filter_some, different,
        beq_self_eq_true]
      rfl
    · rw [if_neg same, Option.filter_some, beq_false_of_ne same]
      rfl

end Named

/-! ### Requests -/

@[simp] theorem mem_columns {grammar : Grammar} {token : Symbol} :
    token ∈ columns grammar ↔ grammar.isTerminal token = true ∨ token = Symbol.endMarker := by
  rw [columns, List.mem_append, List.mem_singleton, Grammar.isTerminal_iff]

theorem columns_nodup (grammar : Grammar) : (columns grammar).Nodup := by
  refine List.nodup_append.mpr ⟨nodup_eraseDups _, List.nodup_singleton _, ?_⟩
  rintro symbol terminal other ending rfl
  rw [List.mem_singleton.mp ending] at terminal
  exact Grammar.not_reserved_of_isTerminal ((Grammar.isTerminal_iff _ _).mpr terminal)
    Symbol.endMarker_reserved

/-- What an item asks a cell to hold, if it asks for anything. -/
def asks (grammar : Grammar) (follow : SetMap) (start : Production) (state : State)
    (token : Symbol) (item : Item) : Option Entry :=
  (itemRequests grammar follow start state item).toOption.bind (List.lookup token)

/-- What the items of a state ask a cell to hold, item by item. -/
def calls (grammar : Grammar) (follow : SetMap) (start : Production) (state : State)
    (token : Symbol) : List Entry :=
  state.items.items.filterMap (asks grammar follow start state token)

section Requests

variable {grammar : Grammar} {follow : SetMap} {start : Production} {startItem : Item}
  {states : List State} {state : State} {token : Symbol} {entry : Entry}

theorem itemRequests_exists (canonical : grammar.Canonical startItem states)
    (covers : grammar.CoversHeads follow) (member : state ∈ states) {item : Item}
    (inside : item ∈ state.items.items) :
    ∃ asked, itemRequests grammar follow start state item = .ok asked := by
  have owned := canonical.owned state member item inside
  unfold itemRequests
  split
  · unfold completeRequests
    split
    · exact ⟨_, rfl⟩
    · obtain ⟨set, found⟩ := covers _ (Grammar.head_mem_nonTerminals owned)
      rw [SymbolMap.lookup_eq_ok_iff.mpr found]
      exact ⟨_, rfl⟩
  · rename_i symbol behind
    split
    · obtain ⟨target, leads⟩ := Grammar.goto_isSome_iff.mpr ⟨item, inside, behind⟩
      obtain ⟨number, written⟩ := canonical.covers state member symbol target leads
      rw [SymbolMap.lookup_eq_ok_iff.mpr written]
      exact ⟨_, rfl⟩
    · exact ⟨_, rfl⟩

/-- Every candidate of a state is requested by one of its items. -/
theorem Candidate.requested
    (candidate : Candidate grammar follow start state token entry) :
    ∃ item ∈ state.items.items, ∃ asked,
      itemRequests grammar follow start state item = .ok asked ∧ (token, entry) ∈ asked := by
  cases candidate with
  | @shift item next member behind terminal leads =>
    refine ⟨item, member, [(token, .shift next)], ?_, List.mem_singleton.mpr rfl⟩
    rw [itemRequests, behind]
    show (if grammar.isTerminal token = true then _ else _) = _
    rw [if_pos terminal, SymbolMap.lookup_eq_ok_iff.mpr leads]
    rfl
  | @reduce item lookahead member complete other known column ahead =>
    refine ⟨item, member, ((columns grammar).filter fun other => decide (other ∈ lookahead)).map
      fun other => (other, Entry.reduce item.production), ?_, List.mem_map.mpr
        ⟨token, List.mem_filter.mpr ⟨column, decide_eq_true ahead⟩, rfl⟩⟩
    rw [itemRequests, (Item.symbol?_eq_none_iff item).mpr complete]
    show completeRequests grammar follow start item = _
    rw [completeRequests, if_neg other, SymbolMap.lookup_eq_ok_iff.mpr known]
    rfl
  | @accept item member complete own ending =>
    refine ⟨item, member, [(Symbol.endMarker, .accept)], ?_, ?_⟩
    · rw [itemRequests, (Item.symbol?_eq_none_iff item).mpr complete]
      show completeRequests grammar follow start item = _
      rw [completeRequests, if_pos own]
    · rw [ending]
      exact List.mem_singleton.mpr rfl

/-- The requests of a state are those of its items, one list behind another. -/
theorem requests_lists (start : Production) (canonical : grammar.Canonical startItem states)
    (covers : grammar.CoversHeads follow) (member : state ∈ states) :
    ∃ lists : List (List Request), requests grammar follow start state = .ok lists.flatten ∧
      state.items.items.map (itemRequests grammar follow start state) = lists.map .ok := by
  obtain ⟨lists, done, same⟩ :=
    exists_mapM (itemRequests grammar follow start state) fun item inside =>
      itemRequests_exists canonical covers member inside
  refine ⟨lists, ?_, same⟩
  rw [requests, done]
  rfl

/-- An item asks each cell once. -/
theorem itemRequests_nodup {item : Item}
    (requested : itemRequests grammar follow start state item = .ok asked) :
    (asked.map Prod.fst).Nodup := by
  unfold itemRequests at requested
  split at requested
  · unfold completeRequests at requested
    split at requested
    · rw [← Except.ok.inj requested]
      exact List.nodup_singleton _
    · obtain ⟨lookahead, _, rest⟩ := bind_eq_ok_iff.mp requested
      rw [← Except.ok.inj rest, List.map_map]
      exact (List.map_id _).symm ▸ (columns_nodup grammar).filter _
  · split at requested
    · obtain ⟨next, _, rest⟩ := bind_eq_ok_iff.mp requested
      rw [← Except.ok.inj rest]
      exact List.nodup_singleton _
    · rw [← Except.ok.inj requested]
      exact List.nodup_nil

/-- The requests of a state name for a token what its items ask its cell to hold. -/
theorem named_requests (canonical : grammar.Canonical startItem states)
    (covers : grammar.CoversHeads follow) (member : state ∈ states)
    (done : requests grammar follow start state = .ok asked) :
    named token asked = calls grammar follow start state token := by
  obtain ⟨lists, listed, same⟩ := requests_lists start canonical covers member
  have each : ∀ list ∈ lists, named token list = (List.lookup token list).toList := by
    intro list inside
    have made : .ok list ∈ state.items.items.map (itemRequests grammar follow start state) := by
      rw [same]
      exact List.mem_map_of_mem inside
    obtain ⟨item, _, requested⟩ := List.mem_map.mp made
    exact named_of_nodup (itemRequests_nodup requested)
  have read := congrArg (List.map fun outcome : Except Fault (List Request) =>
    (outcome.toOption.bind (List.lookup token)).toList) same
  rw [List.map_map, List.map_map] at read
  rw [Except.ok.inj (done.symm.trans listed), named, List.filterMap_flatten, calls,
    List.filterMap_eq_flatMap_toList, List.flatMap_def]
  exact congrArg List.flatten ((List.map_congr_left each).trans read.symm)

/-- The items of a state request exactly its candidates. -/
theorem requests_exists (start : Production) (canonical : grammar.Canonical startItem states)
    (covers : grammar.CoversHeads follow) (member : state ∈ states) :
    ∃ asked, requests grammar follow start state = .ok asked ∧ ∀ token entry,
      (token, entry) ∈ asked ↔ Candidate grammar follow start state token entry := by
  obtain ⟨lists, done, same⟩ := requests_lists start canonical covers member
  refine ⟨lists.flatten, done, fun token entry => ⟨fun inside => ?_, fun candidate => ?_⟩⟩
  · obtain ⟨list, listed, inList⟩ := List.mem_flatten.mp inside
    have visited : .ok list ∈ state.items.items.map (itemRequests grammar follow start state) := by
      rw [same]
      exact List.mem_map_of_mem listed
    obtain ⟨item, itemMember, requested⟩ := List.mem_map.mp visited
    exact candidate_of_itemRequests itemMember requested inList
  · obtain ⟨item, itemMember, asked, requested, inAsked⟩ := candidate.requested
    have visited : (.ok asked : Except Fault (List Request)) ∈ lists.map .ok := by
      rw [← same, ← requested]
      exact List.mem_map_of_mem itemMember
    obtain ⟨list, listed, equal⟩ := List.mem_map.mp visited
    rw [← Except.ok.inj equal] at inAsked
    exact List.mem_flatten.mpr ⟨list, listed, inAsked⟩

/-- An item asks a cell for its one candidate. -/
theorem asks_eq_some_iff (canonical : grammar.Canonical startItem states)
    (covers : grammar.CoversHeads follow) (member : state ∈ states) {item : Item}
    (inside : item ∈ state.items.items) :
    asks grammar follow start state token item = some entry ↔
      Candidate grammar follow start (state.alone item) token entry := by
  obtain ⟨asked, requested⟩ :
      ∃ asked, itemRequests grammar follow start state item = .ok asked :=
    itemRequests_exists canonical covers member inside
  have read : asks grammar follow start state token item = asked.lookup token := by
    rw [asks, requested]
    rfl
  have sound {named : Entry} (found : asked.lookup token = some named) :
      Candidate grammar follow start (state.alone item) token named := by
    obtain ⟨before, after, split, _⟩ := List.lookup_eq_some_iff.mp found
    refine candidate_of_itemRequests (State.mem_alone.mpr rfl) requested ?_
    rw [split]
    exact List.mem_append_right _ List.mem_cons_self
  rw [read]
  refine ⟨sound, fun candidate => ?_⟩
  obtain ⟨single, isSingle, list, listed, called⟩ := candidate.requested
  rw [State.mem_alone.mp isSingle] at listed
  rw [Except.ok.inj (listed.symm.trans requested)] at called
  cases found : asked.lookup token with
  | none =>
    have absent := List.lookup_eq_none_iff.mp found (token, entry) called
    rw [bne_self_eq_false] at absent
    cases absent
  | some named => rw [(sound found).eq_of_alone candidate]

/-- The first request of a state for a cell is that of the first item to call for an entry. -/
theorem lookup_requests (canonical : grammar.Canonical startItem states)
    (covers : grammar.CoversHeads follow) (member : state ∈ states) {asked : List Request}
    (done : requests grammar follow start state = .ok asked) :
    asked.lookup token = some entry ↔ Foremost grammar follow start state token entry := by
  have inOrder : asked.lookup token =
      state.items.items.findSome? (asks grammar follow start state token) := by
    rw [← head?_named, named_requests canonical covers member done, calls, List.head?_filterMap]
  have each {item : Item} (inside : item ∈ state.items.items) (named : Entry) :
      asks grammar follow start state token item = some named ↔
        Candidate grammar follow start (state.alone item) token named :=
    asks_eq_some_iff canonical covers member inside
  rw [inOrder, List.findSome?_eq_some_iff]
  refine exists_congr fun before => exists_congr fun item => exists_congr fun after =>
    and_congr_right fun split => ?_
  have inItems {other : Item} (inside : other ∈ before ++ item :: after) :
      other ∈ state.items.items := split ▸ inside
  refine and_congr (each (inItems (List.mem_append_right _ List.mem_cons_self)) entry)
    (forall₂_congr fun earlier inside => ?_)
  rw [Option.eq_none_iff_forall_ne_some]
  exact forall_congr' fun other =>
    not_congr (each (inItems (List.mem_append_left _ inside)) other)

end Requests

end Table

end ShiftReduce
