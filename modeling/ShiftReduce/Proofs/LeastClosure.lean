/-
This file proves that closing a list of items gives the least closed set, whatever the order of
the items. The given items stay in front, each where it first occurs, and only items with their
dots in front come behind them, so closing what is closed changes nothing, not even the order.
Items given in another order close to the same set, and so do the items that two equal sets lead
to by a symbol: that is why a set that is found again on another way is known again.
-/

import ShiftReduce.Proofs.Exploration

namespace ShiftReduce

/-! ### Items without repetitions -/

theorem Item.distinct_of_nodup {items : List Item} (different : (items.map Item.key).Nodup) :
    Item.distinct items = items := by
  induction items with
  | nil => rfl
  | cons item rest inductionHypothesis =>
    obtain ⟨absent, restDifferent⟩ := List.nodup_cons.mp different
    rw [Item.distinct, inductionHypothesis restDifferent, List.filter_eq_self.mpr]
    exact fun other member => decide_eq_true fun same => absent (same ▸ List.mem_map_of_mem member)

theorem Item.distinct_filter (keep : Item.Key → Bool) (items : List Item) :
    Item.distinct (items.filter (keep ∘ Item.key)) =
      (Item.distinct items).filter (keep ∘ Item.key) := by
  induction items with
  | nil => rfl
  | cons item rest inductionHypothesis =>
    rw [Item.distinct]
    by_cases kept : (keep ∘ Item.key) item = true
    · rw [List.filter_cons_of_pos kept, List.filter_cons_of_pos kept, Item.distinct,
        inductionHypothesis, List.filter_filter, List.filter_filter]
      exact congrArg _ (List.filter_congr fun _ _ => Bool.and_comm ..)
    · rw [List.filter_cons_of_neg kept, List.filter_cons_of_neg kept, inductionHypothesis,
        List.filter_filter]
      refine List.filter_congr fun other _ => ?_
      by_cases same : other.key = item.key
      · rw [Function.comp_apply, same, show keep item.key = false from Bool.eq_false_iff.mpr kept,
          Bool.false_and]
      · rw [decide_eq_true same, Bool.and_true]

/-- The keys of the distinct items are the keys of the items, each where it first occurs. -/
theorem Item.keys_distinct (items : List Item) :
    (Item.distinct items).map Item.key = (items.map Item.key).eraseDups := by
  match items with
  | [] => rfl
  | item :: rest =>
    have other : (fun other : Item => decide (other.key ≠ item.key)) =
        (fun key => !key == item.key) ∘ Item.key := by
      funext other
      rw [Function.comp_apply, Bool.eq_iff_iff, Bool.not_eq_true', beq_eq_false_iff_ne,
        decide_eq_true_iff]
    have shorter := List.length_filter_le ((fun key => !key == item.key) ∘ Item.key) rest
    rw [Item.distinct, List.map_cons, List.map_cons, List.eraseDups_cons, List.filter_map,
      ← Item.keys_distinct, Item.distinct_filter, other]
termination_by items.length

namespace Grammar

variable {grammar : Grammar}

/-! ### Visiting -/

theorem predicted_keys_nodup (item : Item) : ((grammar.predicted item).map Item.key).Nodup := by
  unfold predicted
  cases item.symbol? with
  | none => exact List.nodup_nil
  | some symbol =>
    rw [List.map_map]
    refine List.Nodup.map_on (fun first firstMember second secondMember same => ?_)
      (grammar.nodup_productions.filter _)
    exact production_ext (mem_productionsFor.mp firstMember).1
      (mem_productionsFor.mp secondMember).1 (congrArg Item.Key.id same)

/-- Visiting adds no item twice. -/
theorem visit_nodup {rounds : Nat} {visited waiting : List Item}
    (different : ((visited ++ waiting).map Item.key).Nodup) :
    ((grammar.visit rounds visited waiting).map Item.key).Nodup := by
  induction rounds generalizing visited waiting with
  | zero => exact different
  | succ rounds inductionHypothesis =>
    cases waiting with
    | nil =>
      rw [List.append_nil] at different
      exact different
    | cons item waiting =>
      rw [visit_cons]
      refine inductionHypothesis ?_
      rw [visited_append, List.map_append]
      refine List.nodup_append.mpr ⟨different, ?_, fun key known other new same => ?_⟩
      · exact (grammar.predicted_keys_nodup item).sublist (List.filter_sublist.map Item.key)
      · obtain ⟨found, foundMember, rfl⟩ := List.mem_map.mp new
        exact (mem_fresh.mp foundMember).2 (same ▸ known)

/-- Where every item has the start items it calls for beside it, visiting adds nothing. -/
theorem visit_of_closed {visited waiting : List Item}
    (closed : ∀ item ∈ waiting, ∀ other ∈ grammar.predicted item,
      other.key ∈ (visited ++ waiting).map Item.key) (rounds : Nat) :
    grammar.visit rounds visited waiting = visited ++ waiting := by
  induction rounds generalizing visited waiting with
  | zero => rfl
  | succ rounds inductionHypothesis =>
    cases waiting with
    | nil => rw [visit, List.append_nil]
    | cons item waiting =>
      have nothing : grammar.fresh ((visited ++ item :: waiting).map Item.key) item = [] :=
        List.eq_nil_iff_forall_not_mem.mpr fun other new => (mem_fresh.mp new).2
          (closed item List.mem_cons_self other (mem_fresh.mp new).1)
      have shape : visited ++ [item] ++ waiting = visited ++ item :: waiting := by
        rw [List.append_assoc, List.singleton_append]
      rw [visit_cons, nothing, List.append_nil, inductionHypothesis, shape]
      rw [shape]
      exact fun other member => closed other (List.mem_cons_of_mem _ member)

/-! ### The items of a closure -/

/-- The items of a closure are the visited ones. -/
theorem closure_items (given : List Item) : (grammar.closure given).items =
    grammar.visit ((Item.distinct given).length + grammar.size) [] (Item.distinct given) :=
  Item.distinct_of_nodup (visit_nodup (Item.distinct_keys_nodup given))

/-- Closing the items of a closure gives it back, in its order. -/
theorem closure_closure {given : List Item} (owns : grammar.Owns given) :
    grammar.closure (grammar.closure given).items = grammar.closure given := by
  refine ItemSet.eq_of_items ?_
  rw [closure_items (grammar.closure given).items,
    Item.distinct_of_nodup (grammar.closure given).distinct]
  refine visit_of_closed (fun item member other calls => ?_) _
  obtain ⟨symbol, behind, production, headed, rfl⟩ := mem_predicted.mp calls
  exact List.mem_map_of_mem
    ((mem_closure owns).mpr (.predicted ((mem_closure owns).mp member) behind headed))

theorem InClosure.mono {given larger : List Item} (inside : ∀ item ∈ given, item ∈ larger)
    {item : Item} (closed : grammar.InClosure given item) : grammar.InClosure larger item := by
  induction closed with
  | given member => exact .given (inside _ member)
  | predicted _ behind member inductionHypothesis =>
    exact .predicted inductionHypothesis behind member

theorem closure_mono {given larger : List Item} (owns : grammar.Owns given)
    (largerOwns : grammar.Owns larger) (inside : ∀ item ∈ given, item ∈ larger) :
    ∀ item ∈ (grammar.closure given).items, item ∈ (grammar.closure larger).items :=
  fun _ member => (mem_closure largerOwns).mpr (((mem_closure owns).mp member).mono inside)

/-- The same items close to the same set, in whatever order they are given. -/
theorem closure_sameSet {given other : List Item} (owns : grammar.Owns given)
    (otherOwns : grammar.Owns other) (same : ∀ item, item ∈ given ↔ item ∈ other) :
    (grammar.closure given).sameSet (grammar.closure other) = true := by
  have members : ∀ item, item ∈ (grammar.closure given).items ↔
      item ∈ (grammar.closure other).items := fun item =>
    ⟨closure_mono owns otherOwns (fun item => (same item).mp) item,
      closure_mono otherOwns owns (fun item => (same item).mpr) item⟩
  refine ItemSet.sameSet_iff.mpr fun key => ?_
  simp only [List.mem_map, members]

/-! ### Moving the dots of equal sets -/

/-- Equal sets lead to equal sets. -/
theorem goto_sameSet {first second : ItemSet} (owns : grammar.Owns first.items)
    (otherOwns : grammar.Owns second.items) (same : first.sameSet second = true)
    (symbol : Symbol) :
    Option.Rel (fun one other => one.sameSet other = true) (grammar.goto first symbol)
      (grammar.goto second symbol) := by
  have items : ∀ item, item ∈ first.items ↔ item ∈ second.items := fun item =>
    ⟨mem_of_sameSet owns otherOwns same, mem_of_sameSet otherOwns owns (sameSet_comm same)⟩
  have ways : (∃ target, grammar.goto first symbol = some target) ↔
      ∃ target, grammar.goto second symbol = some target := by
    rw [goto_isSome_iff, goto_isSome_iff]
    exact exists_congr fun item => and_congr_left fun _ => items item
  cases leads : grammar.goto first symbol with
  | none =>
    cases otherLeads : grammar.goto second symbol with
    | none => exact .none
    | some other =>
      obtain ⟨target, found⟩ := ways.mpr ⟨other, otherLeads⟩
      rw [leads] at found
      cases found
  | some target =>
    obtain ⟨other, otherLeads⟩ := ways.mp ⟨target, leads⟩
    have advancedSame : ∀ next, next ∈ advanced first symbol ↔ next ∈ advanced second symbol :=
      fun next => by
        simpa using exists_congr fun item => and_congr_left fun _ => items item
    rw [otherLeads, (goto_eq_some_iff.mp leads).2, (goto_eq_some_iff.mp otherLeads).2]
    exact .some (closure_sameSet (advanced_owned owns symbol) (advanced_owned otherOwns symbol)
      advancedSame)

/-! ### The least closed set -/

/-- What a list of items closes to: visiting ends by itself, and gives the items of the least
closed set, each once. The given ones come first, each where it first occurs, and then start
items. -/
structure ClosesTo (grammar : Grammar) (given : List Item) (set : ItemSet) : Prop where
  ends : ∀ more, ItemSet.ofList (grammar.visit ((Item.distinct given).length + grammar.size + more)
    [] (Item.distinct given)) = set
  least : ∀ item, item ∈ set.items ↔ grammar.InClosure given item
  ordered : ∃ front added, set.items = front ++ added ∧
    front.map Item.key = (given.map Item.key).eraseDups ∧ ∀ item ∈ added, item.dot = 0
  once : set.items.Nodup
  again : grammar.closure set.items = set

theorem closesTo_closure {given : List Item} (owns : grammar.Owns given) :
    grammar.ClosesTo given (grammar.closure given) where
  ends more := by
    rw [closure_ends]
    rfl
  least _ := mem_closure owns
  ordered := by
    obtain ⟨added, shape, dots⟩ := grammar.visit_adds
      ((Item.distinct given).length + grammar.size) [] (Item.distinct given)
    exact ⟨_, added, (closure_items given).trans shape, Item.keys_distinct given, dots⟩
  once := (grammar.closure given).distinct.of_map
  again := closure_closure owns

/-- Closing items of a grammar gives the least closed set in a fixed order; more items close to
more, and sets that are equal in whatever order lead to equal sets or nowhere. -/
theorem closure_least (grammar : Grammar) :
    (∀ given, grammar.Owns given → grammar.ClosesTo given (grammar.closure given)) ∧
    (∀ given larger, grammar.Owns given → grammar.Owns larger →
      (∀ item ∈ given, item ∈ larger) →
      ∀ item ∈ (grammar.closure given).items, item ∈ (grammar.closure larger).items) ∧
    ∀ first second : ItemSet, grammar.Owns first.items → grammar.Owns second.items →
      first.sameSet second = true → ∀ symbol,
        Option.Rel (fun one other => one.sameSet other = true) (grammar.goto first symbol)
          (grammar.goto second symbol) :=
  ⟨fun _ owns => closesTo_closure owns,
    fun _ _ owns largerOwns inside => closure_mono owns largerOwns inside,
    fun _ _ owns otherOwns same symbol => goto_sameSet owns otherOwns same symbol⟩

/-- Sums, in which the two heads call for each other. -/
def looping : Grammar :=
  ⟨[⟨0, "E", ["E", "+", "T"]⟩, ⟨1, "E", ["T"]⟩, ⟨2, "T", ["E"]⟩, ⟨3, "T", ["n"]⟩], false,
    (faultOf_eq_none_iff _ _).mp (by decide)⟩

/-- Two items that expect the same head, one of them given twice. -/
def repeated : List Item :=
  [⟨⟨0, "E", ["E", "+", "T"]⟩, 2, by decide⟩, .start ⟨1, "E", ["T"]⟩,
    ⟨⟨0, "E", ["E", "+", "T"]⟩, 2, by decide⟩]

/-- Given the other way round, the items close to the same set in another order, and so do the
items it leads to. -/
theorem closure_least_looping :
    looping.Owns repeated ∧ looping.ClosesTo repeated (looping.closure repeated) ∧
      (looping.closure repeated).items.map Item.key = [⟨0, 2⟩, ⟨1, 0⟩, ⟨2, 0⟩, ⟨3, 0⟩, ⟨0, 0⟩] ∧
      (looping.closure repeated.tail).items.map Item.key =
        [⟨1, 0⟩, ⟨0, 2⟩, ⟨2, 0⟩, ⟨3, 0⟩, ⟨0, 0⟩] ∧
      (∀ item ∈ (looping.closure repeated.tail).items, item ∈ (looping.closure repeated).items) ∧
      ∃ one other, looping.goto (looping.closure repeated) "T" = some one ∧
        looping.goto (looping.closure repeated.tail) "T" = some other ∧
        one.items.map Item.key = [⟨0, 3⟩, ⟨1, 1⟩] ∧ other.items.map Item.key = [⟨1, 1⟩, ⟨0, 3⟩] ∧
        one.sameSet other = true := by
  obtain ⟨closes, grows, leads⟩ := closure_least looping
  have owns : looping.Owns repeated := by
    show ∀ item ∈ repeated, item.production ∈ looping.productions
    decide
  have fewer : ∀ item ∈ repeated.tail, item ∈ repeated := fun _ => List.mem_of_mem_tail
  have tailOwns : looping.Owns repeated.tail := fun item member => owns item (fewer item member)
  have evaluated : ((looping.goto (looping.closure repeated) "T").map fun set =>
        set.items.map Item.key) = some [⟨0, 3⟩, ⟨1, 1⟩] ∧
      ((looping.goto (looping.closure repeated.tail) "T").map fun set =>
        set.items.map Item.key) = some [⟨1, 1⟩, ⟨0, 3⟩] := by
    decide +kernel
  refine ⟨owns, closes repeated owns, by decide +kernel, by decide +kernel,
    grows repeated.tail repeated tailOwns owns fewer, ?_⟩
  obtain ⟨one, oneFound, oneItems⟩ := Option.map_eq_some_iff.mp evaluated.1
  obtain ⟨other, otherFound, otherItems⟩ := Option.map_eq_some_iff.mp evaluated.2
  have related := leads (looping.closure repeated) (looping.closure repeated.tail)
    (closure_owns owns) (closure_owns tailOwns) (by decide +kernel) "T"
  rw [oneFound, otherFound] at related
  cases related with
  | some same => exact ⟨one, other, oneFound, otherFound, oneItems, otherItems, same⟩

end Grammar

end ShiftReduce
