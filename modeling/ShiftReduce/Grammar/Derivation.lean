/-
This file says what a grammar derives, without any table or set. One replacement puts a
body in the place of one occurrence of its head; a derivation is any number of
replacements, and the sentences of a grammar are the strings of terminals that its start
symbol derives. A derivation can be carried out inside a longer string.
-/

import ShiftReduce.Grammar.Basic

namespace ShiftReduce

namespace Grammar

/-! ### Replacement -/

/-- A body is put in the place of one occurrence of its head. -/
inductive Replaces (grammar : Grammar) : List Symbol → List Symbol → Prop
  | once (before after : List Symbol) (production : Production)
      (member : production ∈ grammar.productions) :
      Replaces grammar (before ++ production.head :: after) (before ++ production.body ++ after)

/-- Any number of replacements. -/
inductive Derives (grammar : Grammar) : List Symbol → List Symbol → Prop
  | refl (string : List Symbol) : Derives grammar string string
  | tail {first second third : List Symbol} (derived : Derives grammar first second)
      (replaced : Replaces grammar second third) : Derives grammar first third

/-- Replacements that have nothing but terminals behind them, by productions in their order. -/
inductive DerivesLast (grammar : Grammar) :
    List Production → List Symbol → List Symbol → Prop
  | refl (string : List Symbol) : DerivesLast grammar [] string string
  | head {productions : List Production} {target : List Symbol} (before after : List Symbol)
      (production : Production) (member : production ∈ grammar.productions)
      (terminals : ∀ symbol ∈ after, grammar.isTerminal symbol = true)
      (later : DerivesLast grammar productions (before ++ production.body ++ after) target) :
      DerivesLast grammar (production :: productions) (before ++ production.head :: after) target

/-- A string of terminals that the start symbol derives. -/
def IsSentence (grammar : Grammar) (tokens : List Symbol) : Prop :=
  (∀ token ∈ tokens, grammar.isTerminal token = true) ∧
    ∃ start, grammar.startSymbol = some start ∧ Derives grammar [start] tokens

/-- A symbol that derives a string of terminals. -/
def IsProductive (grammar : Grammar) (symbol : Symbol) : Prop :=
  ∃ tokens, (∀ token ∈ tokens, grammar.isTerminal token = true) ∧ Derives grammar [symbol] tokens

/-- A symbol that occurs in a string that the start symbol derives. -/
def IsReachable (grammar : Grammar) (symbol : Symbol) : Prop :=
  ∃ start before after, grammar.startSymbol = some start ∧
    Derives grammar [start] (before ++ symbol :: after)

/-! ### Derivations in longer strings -/

theorem Replaces.within {grammar : Grammar} {first second : List Symbol}
    (replaced : Replaces grammar first second) (left right : List Symbol) :
    Replaces grammar (left ++ first ++ right) (left ++ second ++ right) := by
  obtain ⟨before, after, production, member⟩ := replaced
  have here := Replaces.once (left ++ before) (after ++ right) production member
  simpa only [List.append_assoc, List.cons_append] using here

theorem Derives.single {grammar : Grammar} {production : Production}
    (member : production ∈ grammar.productions) :
    Derives grammar [production.head] production.body := by
  have here := Replaces.once [] [] production member
  rw [List.nil_append, List.nil_append, List.append_nil] at here
  exact .tail (.refl _) here

theorem Derives.trans {grammar : Grammar} {first second third : List Symbol}
    (one : Derives grammar first second) (other : Derives grammar second third) :
    Derives grammar first third := by
  induction other with
  | refl => exact one
  | tail _ replaced inductionHypothesis => exact .tail inductionHypothesis replaced

theorem Derives.within {grammar : Grammar} {first second : List Symbol}
    (derived : Derives grammar first second) (left right : List Symbol) :
    Derives grammar (left ++ first ++ right) (left ++ second ++ right) := by
  induction derived with
  | refl => exact .refl _
  | tail _ replaced inductionHypothesis =>
    exact .tail inductionHypothesis (replaced.within left right)

theorem Derives.append {grammar : Grammar} {first second left right : List Symbol}
    (one : Derives grammar first left) (other : Derives grammar second right) :
    Derives grammar (first ++ second) (left ++ right) := by
  have front := one.within [] second
  have back := other.within left []
  rw [List.nil_append, List.nil_append] at front
  rw [List.append_nil, List.append_nil] at back
  exact front.trans back

theorem DerivesLast.derives {grammar : Grammar} {productions : List Production}
    {first second : List Symbol} (derived : grammar.DerivesLast productions first second) :
    grammar.Derives first second := by
  induction derived with
  | refl => exact .refl _
  | head before after production member _ _ inductionHypothesis =>
    exact (Derives.tail (.refl _) (.once before after production member)).trans inductionHypothesis

/-- Terminals can be put behind a derivation that only replaces last non-terminals. -/
theorem DerivesLast.append {grammar : Grammar} {productions : List Production}
    {first second : List Symbol} (derived : grammar.DerivesLast productions first second)
    {behind : List Symbol} (terminals : ∀ symbol ∈ behind, grammar.isTerminal symbol = true) :
    grammar.DerivesLast productions (first ++ behind) (second ++ behind) := by
  induction derived with
  | refl => exact .refl _
  | head before after production member inner _ inductionHypothesis =>
    rw [List.append_assoc] at inductionHypothesis
    rw [List.append_assoc, List.cons_append]
    refine .head before (after ++ behind) production member (fun symbol inside => ?_)
      inductionHypothesis
    exact (List.mem_append.mp inside).elim (inner symbol) (terminals symbol)

end Grammar

end ShiftReduce
