/-
This file proves that a stack can always be completed to a sentence, if every reachable
non-terminal derives a string of terminals. Whatever forest has viable labels, there is a
sentence that starts with the tokens of the forest and whose run comes to the forest in front
of the rest. This is an induction on the left context of a non-terminal: what can stand
behind the non-terminal is what trees for the rest of the body read, and behind it what can
stand behind the head.
-/

import ShiftReduce.Proofs.Completeness

namespace ShiftReduce

open DerivationTree

namespace Grammar

/-- Every non-terminal that can be reached derives a string of terminals. -/
def ReachableProductive (grammar : Grammar) : Prop :=
  ∀ symbol, grammar.isNonTerminal symbol = true → grammar.IsReachable symbol →
    grammar.IsProductive symbol

/-- Under a reachable head the symbols of a body have trees. -/
theorem ReachableProductive.exists_trees {grammar : Grammar}
    (productive : grammar.ReachableProductive) {production : Production}
    (member : production ∈ grammar.productions) (reachable : grammar.IsReachable production.head)
    {string : List Symbol} (inside : ∀ symbol ∈ string, symbol ∈ production.body) :
    ∃ trees, AllBelong grammar trees ∧ trees.map DerivationTree.symbol = string := by
  induction string with
  | nil => exact ⟨[], allBelong_nil grammar, rfl⟩
  | cons symbol rest inductionHypothesis =>
    have here := inside symbol List.mem_cons_self
    obtain ⟨trees, belong, spelled⟩ :=
      inductionHypothesis fun other listed => inside other (List.mem_cons_of_mem _ listed)
    have planted : ∃ tree : DerivationTree, tree.Belongs grammar ∧ tree.symbol = symbol := by
      rcases body_symbol member here with terminal | nonTerminal
      · exact ⟨.leaf symbol, .leaf symbol terminal, rfl⟩
      · exact isProductive_iff.mp (productive symbol nonTerminal (reachable.body member here))
    obtain ⟨tree, belongs, labelled⟩ := planted
    exact ⟨tree :: trees, allBelong_cons.mpr ⟨belongs, belong⟩,
      by rw [List.map_cons, labelled, spelled]⟩

end Grammar

namespace Simulator

open Grammar

/-- The run on some sentence comes to a forest in front of a rest. -/
def Passes (simulator : Simulator) (grammar : Grammar) (start : Symbol)
    (forest : List DerivationTree) (rest : List Symbol) : Prop :=
  ∃ (whole : DerivationTree) (steps : List Step) (next : Configuration),
    whole.Belongs grammar ∧ whole.symbol = start ∧ whole.tokens = tokensOf forest ++ rest ∧
      simulator.Reaches (initial whole.tokens) steps next ∧
      next.remaining = rest ++ [Symbol.endMarker] ∧ grown steps [] = forest

/-- With the tokens behind it, every tree of a head completes a forest to a sentence, and the
run on the sentence comes to the forest. -/
structure Completable (simulator : Simulator) (grammar : Grammar) (start : Symbol)
    (follow : SetMap) (forest : List DerivationTree) (head : Symbol) (behind : List Symbol) :
    Prop where
  reachable : grammar.IsReachable head
  terminals : ∀ token ∈ behind, grammar.isTerminal token = true
  follows : ∃ set, follow.get? head = some set ∧ opener (behind ++ [Symbol.endMarker]) ∈ set
  completes : ∀ tree : DerivationTree, tree.Belongs grammar → tree.symbol = head →
    simulator.Passes grammar start forest (tree.tokens ++ behind)

section Completing

variable {simulator : Simulator} {grammar : Grammar} {start : Symbol} {states : List State}
  {sets : LookaheadSets} {forest children later : List DerivationTree} {production : Production}
  {behind : List Symbol}

/-- In front of a body the run also comes to the forest with the first trees of the body. -/
theorem Completable.passes (completable : Completable simulator grammar start sets.follow forest
      production.head behind) (runs : simulator.Runs grammar start states sets.follow)
    (closed : simulator.grammar.ClosedSets sets) (member : production ∈ grammar.productions)
    (outer : simulator.grammar.LeftContext production.head (forest.map symbol))
    (belong : AllBelong grammar (children ++ later))
    (spelled : (children ++ later).map symbol = production.body) :
    simulator.Passes grammar start (forest ++ children) (tokensOf later ++ behind) := by
  obtain ⟨whole, steps, middle, belongs, labelled, read, reached, left, built⟩ :=
    completable.completes _ (.branch production (children ++ later) member spelled belong) rfl
  obtain ⟨above, known, ahead⟩ := completable.follows
  rw [tokens] at read left
  have carries := (reached.builds runs (initial_carries grammar states whole.tokens)).carries
  rw [built] at carries
  obtain ⟨more, next, moreReached, moreLeft, moreBuilt⟩ := runs.reads_children closed member []
    later outer (fun child listed => runs.reads_tree closed
      (belong child (List.mem_append_left _ listed))) belong spelled.symm carries
    (List.append_nil _).symm (left.trans (List.append_assoc _ _ _))
    ((ends_endMarker grammar).append completable.terminals) known ahead
  refine ⟨whole, steps ++ more, next, belongs, labelled, ?_, reached.append moreReached, ?_, ?_⟩
  · simp [read]
  · rw [moreLeft, List.append_assoc]
  · simp [built, moreBuilt]

/-- Nothing has to stand around a tree of the start symbol. -/
theorem Runs.completable_start (runs : simulator.Runs grammar start states sets.follow)
    (closed : simulator.grammar.ClosedSets sets) :
    Completable simulator grammar start sets.follow [] start [] where
  reachable := startSymbol_isReachable runs.augments.started
  terminals _ none := absurd none List.not_mem_nil
  follows := runs.augments.end_follows closed
  completes tree belongs labelled := by
    rw [List.append_nil]
    exact ⟨tree, [], initial tree.tokens, belongs, labelled, rfl, .refl _, rfl, rfl⟩

/-- If what stands in front of a head can be completed, so can what stands in front of a
non-terminal of its body. -/
theorem Completable.inside (completable : Completable simulator grammar start sets.follow forest
      production.head behind) (runs : simulator.Runs grammar start states sets.follow)
    (closed : simulator.grammar.ClosedSets sets) (productive : grammar.ReachableProductive)
    (member : production ∈ grammar.productions)
    (outer : simulator.grammar.LeftContext production.head (forest.map symbol))
    (belong : AllBelong grammar children) {head : Symbol} {after : List Symbol}
    (split : production.body = children.map symbol ++ head :: after)
    (headed : grammar.isNonTerminal head = true) :
    ∃ rest, Completable simulator grammar start sets.follow (forest ++ children) head rest := by
  have inside : ∀ symbol ∈ head :: after, symbol ∈ production.body := fun symbol listed => by
    rw [split]
    exact List.mem_append_right _ listed
  obtain ⟨later, laterBelong, rfl⟩ := productive.exists_trees member completable.reachable
    fun symbol listed => inside symbol (List.mem_cons_of_mem _ listed)
  obtain ⟨above, known, ahead⟩ := completable.follows
  refine ⟨tokensOf later ++ behind, completable.reachable.body member
    (inside head List.mem_cons_self), List.forall_mem_append.mpr
      ⟨fun _ => laterBelong.terminal, completable.terminals⟩, ?_, fun tree belongs labelled => ?_⟩
  · rw [List.append_assoc]
    exact (runs.augments.closedFollow closed.follow).opener_mem
      (runs.augments.closedFirst closed.first) member laterBelong split headed known ahead
  · have spelled : (children ++ tree :: later).map symbol = production.body := by
      rw [List.map_append, List.map_cons, labelled, split]
    have passed := completable.passes runs closed member outer
      (allBelong_append.mpr ⟨belong, allBelong_cons.mpr ⟨belongs, laterBelong⟩⟩) spelled
    rw [tokensOf, List.append_assoc] at passed
    exact passed

/-- What stands in front of a non-terminal can be completed. -/
theorem Runs.completable (runs : simulator.Runs grammar start states sets.follow)
    (closed : simulator.grammar.ClosedSets sets) (productive : grammar.ReachableProductive)
    {head : Symbol} {context : List Symbol} (outer : simulator.grammar.LeftContext head context)
    (other : head ≠ grammar.freshStart start) (belong : AllBelong grammar forest)
    (labels : forest.map symbol = context) :
    ∃ behind, Completable simulator grammar start sets.follow forest head behind := by
  induction outer generalizing forest with
  | start first =>
    rw [runs.augments.startSymbol_eq, Option.some_inj] at first
    exact absurd first.symm other
  | @inside context production before after head outer member split nonTerminal
      inductionHypothesis =>
    rcases runs.augments.mem_productions.mp member with rfl | ⟨old, oldMember, rfl⟩
    · rcases List.append_eq_singleton_iff.mp split.symm with ⟨rfl, only⟩ | ⟨_, none⟩
      · rw [runs.augments.leftContext_freshStart outer rfl] at labels
        rw [List.map_eq_nil_iff.mp labels, (List.cons.inj only).1]
        exact ⟨[], runs.completable_start closed⟩
      · cases none
    · obtain ⟨lower, children, rfl, lowerLabels, rfl⟩ := List.map_eq_append_iff.mp labels
      obtain ⟨lowerBelong, childrenBelong⟩ := allBelong_append.mp belong
      have headed : grammar.isNonTerminal head = true :=
        ((runs.augments.isNonTerminal_iff_or head).mp nonTerminal).resolve_left other
      have older : old.head ≠ grammar.freshStart start := Augments.head_ne_freshStart oldMember
      obtain ⟨behind, completable⟩ : ∃ behind,
          Completable simulator grammar start sets.follow lower old.head behind :=
        inductionHypothesis older lowerBelong lowerLabels
      rw [← lowerLabels] at outer
      exact completable.inside runs closed productive oldMember outer childrenBelong split headed

/-- Nothing, and a tree of the start symbol, lie on the way to a sentence. -/
theorem Runs.passes_start (runs : simulator.Runs grammar start states sets.follow)
    (closed : simulator.grammar.ClosedSets sets) (productive : grammar.ReachableProductive)
    (belong : AllBelong grammar forest) {dot : Nat}
    (labels : forest.map symbol = [start].take dot) :
    ∃ rest, simulator.Passes grammar start forest rest := by
  cases dot with
  | zero =>
    obtain ⟨tree, belongs, labelled⟩ := isProductive_iff.mp
      (productive start (startSymbol_isNonTerminal runs.augments.started)
        (startSymbol_isReachable runs.augments.started))
    rw [List.map_eq_nil_iff.mp labels]
    exact ⟨_, (runs.completable_start closed).completes tree belongs labelled⟩
  | succ dot =>
    rw [List.take_succ_cons, List.take_nil] at labels
    obtain ⟨tree, rfl, labelled⟩ := List.map_eq_singleton_iff.mp labels
    have belongs := belong tree List.mem_cons_self
    obtain ⟨steps, next, reached, left, built⟩ := runs.reads_root closed belongs labelled
    refine ⟨[], tree, steps, next, belongs, labelled, ?_, reached, left, built⟩
    simp

/-- A forest with viable labels lies on the way to a sentence. -/
theorem Runs.passes_viable (runs : simulator.Runs grammar start states sets.follow)
    (closed : simulator.grammar.ClosedSets sets) (productive : grammar.ReachableProductive)
    (viable : simulator.grammar.IsViable (forest.map symbol)) (belong : AllBelong grammar forest) :
    ∃ rest, simulator.Passes grammar start forest rest := by
  obtain ⟨item, member, context, outer, labels⟩ := viable
  rcases runs.augments.mem_productions.mp member with root | ⟨old, oldMember, same⟩
  · rw [root] at outer labels
    rw [runs.augments.leftContext_freshStart outer rfl] at labels
    exact runs.passes_start closed productive belong labels
  · rw [← same] at outer labels
    obtain ⟨lower, children, rfl, lowerLabels, childLabels⟩ := List.map_eq_append_iff.mp labels
    obtain ⟨lowerBelong, childrenBelong⟩ := allBelong_append.mp belong
    have older : old.head ≠ grammar.freshStart start := Augments.head_ne_freshStart oldMember
    obtain ⟨behind, completable⟩ : ∃ behind,
        Completable simulator grammar start sets.follow lower old.head behind :=
      runs.completable closed productive outer older lowerBelong lowerLabels
    have inside : ∀ symbol ∈ old.body.drop item.dot, symbol ∈ old.body :=
      fun _ => List.mem_of_mem_drop
    obtain ⟨later, laterBelong, laterLabels⟩ :=
      productive.exists_trees oldMember completable.reachable inside
    have spelled : (children ++ later).map symbol = old.body := by
      rw [List.map_append, childLabels, laterLabels]
      exact List.take_append_drop _ _
    rw [← lowerLabels] at outer
    exact ⟨_, completable.passes runs closed oldMember outer
      (allBelong_append.mpr ⟨childrenBelong, laterBelong⟩) spelled⟩

end Completing

end Simulator

end ShiftReduce
