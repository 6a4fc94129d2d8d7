/-
This file proves that a run reads every derivation tree of its input. Where the symbol of a
tree is expected and what is behind the tree can follow it, the run goes over the tokens of
the tree and puts the tree on its stack: a leaf is shifted, and the children of a branch are
read one after another, each expected by the item of the production with its dot in front of
it, until the production is reduced. This is an induction on the tree, with an induction on
the children inside it. Runs depend on nothing but the tokens, so a tree is the only one with
its tokens.
-/

import ShiftReduce.Proofs.Determinism

namespace ShiftReduce

open DerivationTree

namespace Simulator

open Grammar

/-! ### What is behind a tree -/

/-- Terminals in front of the last end marker. -/
def Ends (grammar : Grammar) (rest : List Symbol) : Prop :=
  ∃ more, (∀ token ∈ more, grammar.isTerminal token = true) ∧ rest = more ++ [Symbol.endMarker]

section Rest

variable {grammar : Grammar} {rest string : List Symbol}

theorem ends_endMarker (grammar : Grammar) : Ends grammar [Symbol.endMarker] :=
  ⟨[], fun _ none => absurd none List.not_mem_nil, rfl⟩

theorem Ends.append (ends : Ends grammar rest)
    (terminals : ∀ token ∈ string, grammar.isTerminal token = true) :
    Ends grammar (string ++ rest) := by
  obtain ⟨more, moreTerminals, rfl⟩ := ends
  exact ⟨string ++ more, List.forall_mem_append.mpr ⟨terminals, moreTerminals⟩,
    (List.append_assoc _ _ _).symm⟩

/-- The next token is a terminal or the last end marker, which nothing is behind. -/
theorem Ends.next (ends : Ends grammar rest) :
    ∃ token others, rest = token :: others ∧ (others = [] ↔ token = Symbol.endMarker) ∧
      (grammar.isTerminal token = true ∨ token = Symbol.endMarker) := by
  obtain ⟨more, terminals, rfl⟩ := ends
  cases more with
  | nil => exact ⟨Symbol.endMarker, [], rfl, iff_of_true rfl rfl, .inr rfl⟩
  | cons token others =>
    have terminal := terminals token List.mem_cons_self
    refine ⟨token, others ++ [Symbol.endMarker], rfl, iff_of_false
      (List.append_ne_nil_of_right_ne_nil _ (List.cons_ne_nil _ _)) ?_, .inl terminal⟩
    rintro rfl
    exact not_reserved_of_isTerminal terminal Symbol.endMarker_reserved

end Rest

section Runs

variable {simulator : Simulator} {grammar : Grammar} {start : Symbol} {states : List State}
  {sets : LookaheadSets}

/-- A string leads somewhere with a symbol that an item expects at its end. -/
theorem Runs.walk_exists {follow : SetMap} (runs : simulator.Runs grammar start states follow)
    {string : List Symbol} {item : Item} {symbol : Symbol}
    (valid : simulator.grammar.ValidItem string item) (behind : item.symbol? = some symbol) :
    ∃ target, State.walk states 0 (string ++ [symbol]) = some target := by
  obtain ⟨inside, _⟩ := List.getElem?_eq_some_iff.mp behind
  have moved : item.advanceOver? symbol = some ⟨item.production, item.dot + 1, inside⟩ :=
    Item.advanceOver?_eq_some_iff.mpr ⟨behind, rfl, rfl⟩
  exact (walk_exists_iff runs.augments runs.canonical).mpr ⟨_, valid.advance moved⟩

/-! ### Reading a tree -/

/-- Where the symbol of a tree is expected, and what is behind the tree can follow it, the
run goes over the tokens of the tree and puts the tree on its stack. -/
def ReadsTree (simulator : Simulator) (grammar : Grammar) (states : List State) (follow : SetMap)
    (tree : DerivationTree) : Prop :=
  ∀ (configuration : Configuration) (forest : List DerivationTree) (rest : List Symbol)
    (item : Item), Carries grammar states configuration forest →
    configuration.remaining = tree.tokens ++ rest → Ends grammar rest →
    simulator.grammar.ValidItem (forest.map symbol) item → item.symbol? = some tree.symbol →
    (grammar.isNonTerminal tree.symbol = true →
      ∃ set, follow.get? tree.symbol = some set ∧ opener rest ∈ set) →
    ∃ steps next, simulator.Reaches configuration steps next ∧ next.remaining = rest ∧
      grown steps forest = forest ++ [tree]

/-- The trees of a part of a body are read one after another. -/
theorem Runs.reads_children (runs : simulator.Runs grammar start states sets.follow)
    (closed : simulator.grammar.ClosedSets sets) {production : Production}
    (member : production ∈ grammar.productions) (before : List Symbol)
    (later : List DerivationTree) {context : List Symbol}
    (outer : simulator.grammar.LeftContext production.head context)
    {children forest : List DerivationTree}
    (each : ∀ child ∈ children, ReadsTree simulator grammar states sets.follow child)
    (belong : AllBelong grammar (children ++ later))
    (split : production.body = before ++ (children ++ later).map symbol)
    {configuration : Configuration} (carries : Carries grammar states configuration forest)
    (labels : forest.map symbol = context ++ before) {rest : List Symbol}
    (remaining : configuration.remaining = tokensOf (children ++ later) ++ rest)
    (ends : Ends grammar rest) {above : SymbolSet}
    (known : sets.follow.get? production.head = some above) (ahead : opener rest ∈ above) :
    ∃ steps next, simulator.Reaches configuration steps next ∧
      next.remaining = tokensOf later ++ rest ∧ grown steps forest = forest ++ children := by
  induction children generalizing before forest configuration with
  | nil => exact ⟨[], configuration, .refl _, remaining, (List.append_nil _).symm⟩
  | cons child others inductionHypothesis =>
    rw [List.cons_append, allBelong_cons] at belong
    rw [List.cons_append, List.map_cons] at split
    rw [List.cons_append, tokensOf, List.append_assoc] at remaining
    obtain ⟨item, valid, behind⟩ :=
      expected_of_split (runs.augments.moved_mem member) outer split
    rw [← labels] at valid
    obtain ⟨steps, middle, reached, left, built⟩ := each child List.mem_cons_self configuration
      forest (tokensOf (others ++ later) ++ rest) item carries remaining
      (ends.append fun _ token => belong.2.terminal token) valid behind fun nonTerminal =>
        (runs.augments.closedFollow closed.follow).opener_mem
          (runs.augments.closedFirst closed.first) member belong.2 split nonTerminal known ahead
    have middleCarries := (reached.builds runs carries).carries
    rw [built] at middleCarries
    obtain ⟨more, next, moreReached, moreLeft, moreBuilt⟩ :=
      inductionHypothesis (before ++ [child.symbol])
        (fun other listed => each other (List.mem_cons_of_mem _ listed)) belong.2
        (by rw [split, List.append_assoc, List.singleton_append]) middleCarries
        (by rw [List.map_append, labels, List.append_assoc]; rfl) left
    refine ⟨steps ++ more, next, reached.append moreReached, moreLeft, ?_⟩
    simp [built, moreBuilt]

/-- Every tree of the grammar is read. Once all children of a branch are on the stack, the next
token follows the head, and the body is reduced. -/
theorem Runs.reads_tree (runs : simulator.Runs grammar start states sets.follow)
    (closed : simulator.grammar.ClosedSets sets) {tree : DerivationTree}
    (belongs : tree.Belongs grammar) : ReadsTree simulator grammar states sets.follow tree := by
  induction belongs with
  | leaf token terminal =>
    intro configuration forest rest item carries remaining _ valid behind _
    obtain ⟨target, walked⟩ := runs.walk_exists valid behind
    obtain ⟨step, next, taken, move, read, _⟩ := carries.shift runs remaining terminal walked
    refine ⟨[step], next, .single taken (by rw [move]; rfl), read, ?_⟩
    simp [move, Move.grow]
  | branch production children member spelled each inductionHypothesis =>
    intro configuration forest rest item carries remaining ends valid behind follows
    have headed := head_mem_nonTerminals member
    obtain ⟨above, known, ahead⟩ := follows headed
    have outer := valid.leftContext behind
      ((runs.augments.isNonTerminal_iff_or production.head).mpr (.inr headed))
    obtain ⟨steps, middle, reached, left, built⟩ := runs.reads_children closed member [] []
      outer inductionHypothesis
      (by rw [List.append_nil]; exact each) (by rw [List.append_nil, spelled]; rfl) carries
      (List.append_nil _).symm (by rw [List.append_nil]; exact remaining) ends known ahead
    have middleCarries := (reached.builds runs carries).carries
    rw [built] at middleCarries
    obtain ⟨token, others, more, last, column⟩ := ends.next
    have proper : isMisplaced token others = false := by
      rw [← Bool.not_eq_true, isMisplaced_iff]
      exact fun misplaced => misplaced.2 (last.mpr misplaced.1)
    have reducible : simulator.Reducible grammar sets.follow ((forest ++ children).map symbol)
        token production := by
      refine ⟨member, column, ⟨forest.map symbol, outer, ?_⟩, above, known, ?_⟩
      · rw [List.map_append, spelled]
      · rw [more] at ahead
        exact ahead
    obtain ⟨step, next, exposed, target, taken, move, kept, _⟩ :=
      middleCarries.reduce runs (left.trans more) proper reducible spelled
    refine ⟨steps ++ [step], next, reached.append (.single taken (by rw [move]; rfl)),
      kept.trans left, ?_⟩
    simp [built, move, Move.grow_reduce spelled]

/-- A tree of the start symbol is read from the initial configuration on. -/
theorem Runs.reads_root (runs : simulator.Runs grammar start states sets.follow)
    (closed : simulator.grammar.ClosedSets sets) {tree : DerivationTree}
    (belongs : tree.Belongs grammar) (labelled : tree.symbol = start) :
    ∃ steps next, simulator.Reaches (initial tree.tokens) steps next ∧
      next.remaining = [Symbol.endMarker] ∧ grown steps [] = [tree] := by
  have valid : simulator.grammar.ValidItem [] (Item.start (grammar.root start)) :=
    ⟨runs.augments.root_mem, [], .start runs.augments.startSymbol_eq, rfl⟩
  refine runs.reads_tree closed belongs (initial tree.tokens) [] [Symbol.endMarker] _
    (initial_carries grammar states tree.tokens) rfl (ends_endMarker grammar) valid ?_ fun _ => ?_
  · rw [labelled]
    rfl
  · rw [labelled]
    exact runs.augments.end_follows closed

/-- The run on the tokens of a tree of the start symbol comes to the tree and accepts. -/
theorem Runs.accepts (runs : simulator.Runs grammar start states sets.follow)
    (closed : simulator.grammar.ClosedSets sets) {tree : DerivationTree}
    (belongs : tree.Belongs grammar) (labelled : tree.symbol = start) (input : Input)
    (read : tree.tokens = input.toTokens) :
    ∃ trace earlier before,
      simulator.Finishes grammar start states input.toTokens trace earlier before ∧
      trace.accepted = true ∧ grown earlier [] = [tree] ∧
      ∀ limit ≥ trace.size, simulator.run limit input = .ok (some trace) := by
  obtain ⟨earlier, before, reached, left, single⟩ := runs.reads_root closed belongs labelled
  have carries := (reached.builds runs (initial_carries grammar states tree.tokens)).carries
  have whole : (grown earlier []).map symbol = [start] := by
    rw [single, ← labelled]
    rfl
  obtain ⟨step, taken, move⟩ := carries.accept runs left whole
  rw [read] at reached
  obtain ⟨trace, steps, last, done⟩ := reached.runFrom taken (by rw [move]; rfl)
  have finished : simulator.run trace.size input = .ok (some trace) := done _ (Nat.le_refl _)
  obtain ⟨others, stopped, finishes⟩ := runs.finishes finished
  have same : others = earlier := by
    have both := finishes.steps.symm.trans steps
    rw [last] at both
    exact List.append_cancel_right both
  rw [same] at finishes
  refine ⟨trace, earlier, stopped, finishes, ?_, single, done⟩
  rw [Trace.accepted, last, move]
  rfl

/-- An accepting run takes a step for each token and each branch of its tree, and a last one,
and reduces the productions of the tree in postorder. -/
theorem Finishes.steps_of_tree {tokens : List Symbol} {trace : Trace} {earlier : List Step}
    {before : Configuration} {tree : DerivationTree}
    (finishes : simulator.Finishes grammar start states tokens trace earlier before)
    (single : grown earlier [] = [tree]) :
    trace.size = tree.tokens.length + tree.postorder.length + 1 ∧
      reduced trace.steps = tree.postorder.map moved := by
  have length := finishes.builds.length_eq
  have applied := finishes.builds.postorderOf_grown
  simp only [single, postorderOf_singleton, tokensOf_singleton] at length applied
  exact ⟨by rw [finishes.size, length], by rw [finishes.reduced_steps, applied]⟩

/-- A string of tokens has at most one tree. -/
theorem Runs.tree_unique (runs : simulator.Runs grammar start states sets.follow)
    (closed : simulator.grammar.ClosedSets sets) {one other : DerivationTree}
    (oneBelongs : one.Belongs grammar) (otherBelongs : other.Belongs grammar)
    (oneLabelled : one.symbol = start) (otherLabelled : other.symbol = start)
    (same : one.tokens = other.tokens) : one = other := by
  obtain ⟨trace, earlier, _, finishes, _, single, done⟩ :=
    runs.accepts closed oneBelongs oneLabelled (.tokens other.tokens) same
  obtain ⟨otherTrace, otherEarlier, _, otherFinishes, _, otherSingle, otherDone⟩ :=
    runs.accepts closed otherBelongs otherLabelled (.tokens other.tokens) rfl
  have equal := run_unique (done _ (Nat.le_refl _)) (otherDone _ (Nat.le_refl _))
  have steps := otherFinishes.steps
  rw [← equal, finishes.steps] at steps
  rw [List.append_cancel_right steps, otherSingle] at single
  exact (List.cons.inj single).1.symm

end Runs

end Simulator

/-! ### The whole analysis -/

namespace Analysis

open Grammar

/-- Every grammar with productions that is not augmented can be analysed. Without conflicts the
simulator of its analysis runs the table of its augmentation. -/
theorem exists_simulator {grammar : Grammar} (plain : grammar.augmented = false)
    (nonempty : grammar.productions ≠ []) :
    ∃ analysis start, Analysis.ofGrammar grammar = .ok analysis ∧
      grammar.startSymbol = some start ∧ (analysis.table.conflicts = [] →
        ∃ simulator : Simulator, analysis.simulator = .ok simulator ∧
          simulator.Runs grammar start analysis.states analysis.sets.follow ∧
          simulator.grammar.ClosedSets analysis.sets) := by
  obtain ⟨augmented, start, augmentedFound, augments⟩ := augment_exists plain nonempty
  obtain ⟨states, statesFound, canonical⟩ := automaton_exists augments.flagged
  obtain ⟨sets, setsFound, closed⟩ := augmented.lookaheadSets_exists
  obtain ⟨table, built, fills⟩ := Table.build_exists augments.flagged canonical closed.covers
  rw [augments.startOf_eq] at canonical fills
  exact ⟨⟨grammar, augmented, sets, states, table⟩, start,
    ofGrammar_of_stages nonempty augmentedFound setsFound statesFound built, augments.started,
    fun quiet => ⟨⟨augmented, table, augments.flagged, quiet⟩,
      Simulator.ofTable_exists augments.flagged quiet, ⟨augments, canonical, fills⟩, closed⟩⟩

theorem run_of_simulator {analysis : Analysis} {simulator : Simulator}
    (made : analysis.simulator = .ok simulator) (limit : Nat) (input : Input) :
    analysis.run limit input = simulator.run limit input := by
  rw [Analysis.run, made]
  rfl

/-- The runs of an analysis are those of its simulator. -/
theorem exists_runs {grammar : Grammar} (plain : grammar.augmented = false)
    (nonempty : grammar.productions ≠ []) :
    ∃ analysis start, Analysis.ofGrammar grammar = .ok analysis ∧
      grammar.startSymbol = some start ∧ (analysis.table.conflicts = [] →
        ∃ simulator : Simulator, (∀ limit input,
            analysis.run limit input = simulator.run limit input) ∧
          simulator.Runs grammar start analysis.states analysis.sets.follow ∧
          simulator.grammar.ClosedSets analysis.sets) := by
  obtain ⟨analysis, start, analysed, started, quietly⟩ := exists_simulator plain nonempty
  refine ⟨analysis, start, analysed, started, fun quiet => ?_⟩
  obtain ⟨simulator, made, runs, closed⟩ := quietly quiet
  exact ⟨simulator, run_of_simulator made, runs, closed⟩

/-- Without conflicts the run on the tokens of a tree of the start symbol accepts, after one
step for each token and each branch of the tree and a last one, reduces the productions of
the tree in postorder, and builds the tree; sentences are therefore accepted, and no string
of tokens has two trees. -/
theorem sentences_accepted (grammar : Grammar) (plain : grammar.augmented = false)
    (nonempty : grammar.productions ≠ []) :
    ∃ analysis, Analysis.ofGrammar grammar = .ok analysis ∧ (analysis.table.conflicts = [] →
      (∀ (tree : DerivationTree) (input : Input), tree.Belongs grammar →
        grammar.startSymbol = some tree.symbol → tree.tokens = input.toTokens →
        ∃ trace, trace.accepted = true ∧
          (∀ limit ≥ trace.size, analysis.run limit input = .ok (some trace)) ∧
          trace.size = input.toTokens.length + tree.postorder.length + 1 ∧
          reduced trace.steps = tree.postorder.map moved ∧
          ∃ root, trace.tree = .ok (some root) ∧ trace.arena.Holds root tree) ∧
      (∀ input : Input, grammar.IsSentence input.toTokens →
        ∃ limit trace, analysis.run limit input = .ok (some trace) ∧ trace.accepted = true) ∧
      ∀ first second : DerivationTree, first.Belongs grammar → second.Belongs grammar →
        grammar.startSymbol = some first.symbol → grammar.startSymbol = some second.symbol →
        first.tokens = second.tokens → first = second) := by
  obtain ⟨analysis, start, analysed, started, quietly⟩ := exists_runs plain nonempty
  refine ⟨analysis, analysed, fun quiet => ?_⟩
  obtain ⟨simulator, run, runs, closed⟩ := quietly quiet
  refine ⟨fun tree input belongs rooted same => ?_, fun input sentence => ?_,
    fun first second firstBelongs secondBelongs firstRooted secondRooted same => ?_⟩
  · rw [started, Option.some_inj] at rooted
    obtain ⟨trace, earlier, before, finishes, accepted, single, done⟩ :=
      runs.accepts closed belongs rooted.symm input same
    obtain ⟨root, other, derives, otherSingle⟩ := finishes.derives accepted
    obtain ⟨rfl, _⟩ := List.cons.inj (otherSingle.symm.trans single)
    obtain ⟨size, reductions⟩ := finishes.steps_of_tree single
    exact ⟨trace, accepted, fun limit enough => (run limit input).trans (done limit enough),
      same ▸ size, reductions, root, derives.only, derives.holds⟩
  · obtain ⟨tree, belongs, labelled, read⟩ := (isSentence_iff started).mp sentence
    obtain ⟨trace, _, _, _, accepted, _, done⟩ := runs.accepts closed belongs labelled input read
    exact ⟨trace.size, trace, (run _ input).trans (done _ (Nat.le_refl _)), accepted⟩
  · rw [started, Option.some_inj] at firstRooted secondRooted
    exact runs.tree_unique closed firstBelongs secondBelongs firstRooted.symm secondRooted.symm same

/-- The tree of one pair. -/
def pair : DerivationTree :=
  .branch ⟨0, "S", ["a", "S", "b"]⟩ [.leaf "a", .branch ⟨1, "S", []⟩ [], .leaf "b"]

theorem pair_belongs : pair.Belongs nested := by
  refine .branch _ _ (by decide) (by decide) (List.forall_mem_cons.mpr ⟨.leaf "a" (by decide),
    List.forall_mem_cons.mpr ⟨.branch _ _ (by decide) rfl fun _ none => ?_,
      List.forall_mem_singleton.mpr (.leaf "b" (by decide))⟩⟩)
  exact absurd none List.not_mem_nil

/-- The run on one pair takes a step for each token, two for the branches, and a last one. -/
theorem sentences_accepted_nested :
    ∃ analysis trace root, Analysis.ofGrammar nested = .ok analysis ∧
      analysis.run 5 (.tokens ["a", "b"]) = .ok (some trace) ∧ trace.accepted = true ∧
      trace.size = 5 ∧ reduced trace.steps = [⟨2, "S", []⟩, ⟨1, "S", ["a", "S", "b"]⟩] ∧
      trace.tree = .ok (some root) ∧ trace.arena.Holds root pair := by
  obtain ⟨analysis, analysed, quietly⟩ := sentences_accepted nested rfl (List.cons_ne_nil _ _)
  obtain ⟨accepts, _, _⟩ := quietly (nested_quiet analysed)
  obtain ⟨trace, accepted, done, size, reductions, root, only, holds⟩ :=
    accepts pair (.tokens ["a", "b"]) pair_belongs rfl rfl
  have five : trace.size = 5 := size
  exact ⟨analysis, trace, root, analysed, done 5 (Nat.le_of_eq five), accepted, five, reductions,
    only, holds⟩

end Analysis

end ShiftReduce
