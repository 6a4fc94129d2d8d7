/-
This file turns derivations into trees. A replacement gathers the trees of a body under
their head, so a derivation of a string that trees stand over gives trees that stand over
the string it starts from, with the same tokens. Sentences are therefore the tokens of the
trees of the start symbol, and productive symbols are the roots of trees.
-/

import ShiftReduce.Grammar.Tree
import ShiftReduce.Proofs.Augmentation

namespace ShiftReduce

namespace DerivationTree

/-! ### Several trees -/

/-- All trees of a list belong to a grammar. -/
def AllBelong (grammar : Grammar) (trees : List DerivationTree) : Prop :=
  ∀ tree ∈ trees, tree.Belongs grammar

@[simp] theorem tokensOf_append (first second : List DerivationTree) :
    tokensOf (first ++ second) = tokensOf first ++ tokensOf second := by
  induction first with
  | nil => rfl
  | cons tree rest inductionHypothesis =>
    rw [List.cons_append, tokensOf, tokensOf, inductionHypothesis, List.append_assoc]

@[simp] theorem postorderOf_append (first second : List DerivationTree) :
    postorderOf (first ++ second) = postorderOf first ++ postorderOf second := by
  induction first with
  | nil => rfl
  | cons tree rest inductionHypothesis =>
    rw [List.cons_append, postorderOf, postorderOf, inductionHypothesis, List.append_assoc]

@[simp] theorem tokensOf_singleton (tree : DerivationTree) : tokensOf [tree] = tree.tokens := by
  rw [tokensOf, tokensOf, List.append_nil]

@[simp] theorem postorderOf_singleton (tree : DerivationTree) :
    postorderOf [tree] = tree.postorder := by
  rw [postorderOf, postorderOf, List.append_nil]

section Lists

variable {grammar : Grammar} {tree : DerivationTree} {trees first second : List DerivationTree}

@[simp] theorem allBelong_nil (grammar : Grammar) : AllBelong grammar [] :=
  fun _ member => absurd member List.not_mem_nil

@[simp] theorem allBelong_cons :
    AllBelong grammar (tree :: trees) ↔ tree.Belongs grammar ∧ AllBelong grammar trees :=
  List.forall_mem_cons

@[simp] theorem allBelong_append :
    AllBelong grammar (first ++ second) ↔ AllBelong grammar first ∧ AllBelong grammar second :=
  List.forall_mem_append

end Lists

theorem Belongs.children {grammar : Grammar} {production : Production}
    {children : List DerivationTree} (belongs : Belongs grammar (.branch production children)) :
    production ∈ grammar.productions ∧ children.map symbol = production.body ∧
      AllBelong grammar children := by
  cases belongs with
  | branch _ _ member spelled each => exact ⟨member, spelled, each⟩

/-! ### The tokens are terminals -/

theorem terminal_of_mem_tokensOf {grammar : Grammar} {trees : List DerivationTree}
    {token : Symbol}
    (each : ∀ tree ∈ trees, token ∈ tree.tokens → grammar.isTerminal token = true)
    (inside : token ∈ tokensOf trees) : grammar.isTerminal token = true := by
  induction trees with
  | nil => exact absurd inside List.not_mem_nil
  | cons tree rest inductionHypothesis =>
    rw [tokensOf, List.mem_append] at inside
    rcases inside with here | later
    · exact each tree List.mem_cons_self here
    · exact inductionHypothesis (fun other member => each other (List.mem_cons_of_mem _ member))
        later

theorem Belongs.terminal {grammar : Grammar} {tree : DerivationTree}
    (belongs : tree.Belongs grammar) {token : Symbol} (inside : token ∈ tree.tokens) :
    grammar.isTerminal token = true := by
  induction belongs with
  | leaf own terminal =>
    rw [tokens, List.mem_singleton] at inside
    rw [inside]
    exact terminal
  | branch production children _ _ _ inductionHypothesis =>
    rw [tokens] at inside
    exact terminal_of_mem_tokensOf inductionHypothesis inside

theorem AllBelong.terminal {grammar : Grammar} {trees : List DerivationTree}
    (belong : AllBelong grammar trees) {token : Symbol} (inside : token ∈ tokensOf trees) :
    grammar.isTerminal token = true :=
  terminal_of_mem_tokensOf (fun tree member => (belong tree member).terminal) inside

/-! ### From derivations to trees -/

theorem exists_leaves {grammar : Grammar} {string : List Symbol}
    (terminals : ∀ token ∈ string, grammar.isTerminal token = true) :
    ∃ trees, AllBelong grammar trees ∧ trees.map symbol = string ∧ tokensOf trees = string := by
  induction string with
  | nil => exact ⟨[], allBelong_nil grammar, rfl, rfl⟩
  | cons token rest inductionHypothesis =>
    obtain ⟨trees, belong, spelled, read⟩ :=
      inductionHypothesis fun other member => terminals other (List.mem_cons_of_mem _ member)
    refine ⟨leaf token :: trees, allBelong_cons.mpr
      ⟨.leaf token (terminals token List.mem_cons_self), belong⟩, ?_, ?_⟩
    · rw [List.map_cons, spelled, symbol]
    · rw [tokensOf, tokens, read, List.singleton_append]

/-- The trees of a body are gathered under their head. -/
theorem exists_forest_of_replaces {grammar : Grammar} {string other : List Symbol}
    (replaced : grammar.Replaces string other) {trees : List DerivationTree}
    (belong : AllBelong grammar trees) (spelled : trees.map symbol = other) :
    ∃ gathered, AllBelong grammar gathered ∧ gathered.map symbol = string ∧
      tokensOf gathered = tokensOf trees := by
  obtain ⟨before, after, production, member⟩ := replaced
  obtain ⟨front, right, rfl, frontSpelled, rightSpelled⟩ := List.map_eq_append_iff.mp spelled
  obtain ⟨left, children, rfl, leftSpelled, childrenSpelled⟩ :=
    List.map_eq_append_iff.mp frontSpelled
  rw [allBelong_append, allBelong_append] at belong
  obtain ⟨⟨leftBelong, childrenBelong⟩, rightBelong⟩ := belong
  refine ⟨left ++ branch production children :: right, ?_, ?_, ?_⟩
  · exact allBelong_append.mpr ⟨leftBelong, allBelong_cons.mpr
      ⟨.branch production children member childrenSpelled childrenBelong, rightBelong⟩⟩
  · rw [List.map_append, List.map_cons, leftSpelled, rightSpelled, symbol]
  · simp only [tokensOf_append, tokensOf, tokens, List.append_assoc]

/-- Trees over a derived string give trees over the string it is derived from. -/
theorem exists_forest_of_derives {grammar : Grammar} {string other : List Symbol}
    (derived : grammar.Derives string other) {trees : List DerivationTree}
    (belong : AllBelong grammar trees) (spelled : trees.map symbol = other) :
    ∃ gathered, AllBelong grammar gathered ∧ gathered.map symbol = string ∧
      tokensOf gathered = tokensOf trees := by
  induction derived generalizing trees with
  | refl => exact ⟨trees, belong, spelled, rfl⟩
  | tail _ replaced inductionHypothesis =>
    obtain ⟨middle, middleBelong, middleSpelled, same⟩ :=
      exists_forest_of_replaces replaced belong spelled
    obtain ⟨gathered, gatheredBelong, gatheredSpelled, read⟩ :=
      inductionHypothesis middleBelong middleSpelled
    exact ⟨gathered, gatheredBelong, gatheredSpelled, read.trans same⟩

/-- A symbol derives exactly the tokens of its trees. -/
theorem exists_tree_iff {grammar : Grammar} {root : Symbol} {string : List Symbol} :
    (∃ tree : DerivationTree, tree.Belongs grammar ∧ tree.symbol = root ∧
        tree.tokens = string) ↔
      (∀ token ∈ string, grammar.isTerminal token = true) ∧ grammar.Derives [root] string := by
  constructor
  · rintro ⟨tree, belongs, rfl, rfl⟩
    exact ⟨fun token inside => belongs.terminal inside, belongs.derives⟩
  · rintro ⟨terminals, derived⟩
    obtain ⟨leaves, leavesBelong, leavesSpelled, leavesRead⟩ := exists_leaves terminals
    obtain ⟨gathered, belong, spelled, read⟩ :=
      exists_forest_of_derives derived leavesBelong leavesSpelled
    obtain ⟨tree, rfl, root⟩ := List.map_eq_singleton_iff.mp spelled
    refine ⟨tree, belong tree List.mem_cons_self, root, ?_⟩
    rw [← tokensOf_singleton, read, leavesRead]

end DerivationTree

namespace Grammar

/-- Sentences are the tokens of trees of the start symbol. -/
theorem isSentence_iff {grammar : Grammar} {start : Symbol}
    (started : grammar.startSymbol = some start) {string : List Symbol} :
    grammar.IsSentence string ↔ ∃ tree : DerivationTree, tree.Belongs grammar ∧
      tree.symbol = start ∧ tree.tokens = string := by
  rw [DerivationTree.exists_tree_iff]
  refine and_congr_right fun _ => ⟨?_, fun derived => ⟨start, started, derived⟩⟩
  rintro ⟨actual, found, derived⟩
  rw [started, Option.some_inj] at found
  rw [found]
  exact derived

theorem isProductive_iff {grammar : Grammar} {symbol : Symbol} :
    grammar.IsProductive symbol ↔
      ∃ tree : DerivationTree, tree.Belongs grammar ∧ tree.symbol = symbol := by
  constructor
  · rintro ⟨string, derived⟩
    obtain ⟨tree, belongs, root, _⟩ := DerivationTree.exists_tree_iff.mpr derived
    exact ⟨tree, belongs, root⟩
  · rintro ⟨tree, belongs, root⟩
    exact ⟨tree.tokens, DerivationTree.exists_tree_iff.mp ⟨tree, belongs, root, rfl⟩⟩

theorem startSymbol_isReachable {grammar : Grammar} {start : Symbol}
    (started : grammar.startSymbol = some start) : grammar.IsReachable start :=
  ⟨start, [], [], started, .refl _⟩

/-- The body symbols of a reachable head are reachable. -/
theorem IsReachable.body {grammar : Grammar} {production : Production} {symbol : Symbol}
    (reachable : grammar.IsReachable production.head) (member : production ∈ grammar.productions)
    (inside : symbol ∈ production.body) : grammar.IsReachable symbol := by
  obtain ⟨start, before, after, started, derived⟩ := reachable
  obtain ⟨left, right, split⟩ := List.append_of_mem inside
  refine ⟨start, before ++ left, right ++ after, started, ?_⟩
  have replaced := Replaces.once before after production member
  rw [split] at replaced
  simp only [List.append_assoc, List.cons_append] at replaced ⊢
  exact .tail derived replaced

end Grammar

end ShiftReduce
