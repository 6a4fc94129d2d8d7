/-
This file says which items are valid for a string of symbols, without closure and goto. A
left context of a non-terminal is what can stand in front of it when a derivation always
replaces the last non-terminal first; an item is valid for a left context of its head
followed by the part of its body in front of the dot.
-/

import ShiftReduce.Grammar.Basic
import ShiftReduce.Item.Basic

namespace ShiftReduce

namespace Grammar

/-- What can stand in front of a non-terminal: nothing in front of the start symbol, and in
front of a body symbol what is in front of the head and what is in front of it in the body. -/
inductive LeftContext (grammar : Grammar) : Symbol → List Symbol → Prop
  | start {symbol : Symbol} (first : grammar.startSymbol = some symbol) :
      LeftContext grammar symbol []
  | inside {context : List Symbol} (production : Production) (before after : List Symbol)
      (symbol : Symbol) (outer : LeftContext grammar production.head context)
      (member : production ∈ grammar.productions)
      (split : production.body = before ++ symbol :: after)
      (nonTerminal : grammar.isNonTerminal symbol = true) :
      LeftContext grammar symbol (context ++ before)

/-- An item of the grammar whose head has the string in front of it, but for the part of
the body before the dot. -/
def ValidItem (grammar : Grammar) (string : List Symbol) (item : Item) : Prop :=
  item.production ∈ grammar.productions ∧
    ∃ context, LeftContext grammar item.production.head context ∧
      string = context ++ item.production.body.take item.dot

/-- A string for which some item is valid. -/
def IsViable (grammar : Grammar) (string : List Symbol) : Prop :=
  ∃ item, ValidItem grammar string item

/-- The least set of items that holds the given ones and, for a non-terminal behind a dot,
the start items of its productions. -/
inductive InClosure (grammar : Grammar) (given : List Item) : Item → Prop
  | given {item : Item} (member : item ∈ given) : InClosure grammar given item
  | predicted {item : Item} {symbol : Symbol} {production : Production}
      (closed : InClosure grammar given item) (behind : item.symbol? = some symbol)
      (member : production ∈ grammar.productionsFor symbol) :
      InClosure grammar given (Item.start production)

/-- Moving the dot of a valid item over a symbol extends the string by it. -/
theorem ValidItem.advance {grammar : Grammar} {string : List Symbol} {item next : Item}
    {symbol : Symbol} (valid : ValidItem grammar string item)
    (moved : item.advanceOver? symbol = some next) :
    ValidItem grammar (string ++ [symbol]) next := by
  obtain ⟨member, context, outer, rfl⟩ := valid
  unfold Item.advanceOver? at moved
  split at moved
  · rename_i behind
    rw [← Option.some_inj.mp moved]
    refine ⟨member, context, outer, ?_⟩
    rw [List.take_add_one, behind, List.append_assoc]
    rfl
  · cases moved

/-- An item is valid with every start item it calls for. -/
theorem ValidItem.predicted {grammar : Grammar} {string : List Symbol} {item : Item}
    {symbol : Symbol} {production : Production} (valid : ValidItem grammar string item)
    (behind : item.symbol? = some symbol)
    (member : production ∈ grammar.productionsFor symbol) :
    ValidItem grammar string (Item.start production) := by
  obtain ⟨itemMember, context, outer, rfl⟩ := valid
  obtain ⟨productionMember, headed⟩ := List.mem_filter.mp member
  have head : production.head = symbol := beq_iff_eq.mp headed
  obtain ⟨inside, found⟩ := List.getElem?_eq_some_iff.mp behind
  refine ⟨productionMember, context ++ item.production.body.take item.dot, ?_, ?_⟩
  · refine .inside item.production _ (item.production.body.drop (item.dot + 1)) production.head
      outer itemMember ?_ ?_
    · rw [head, ← found, ← List.drop_eq_getElem_cons inside, List.take_append_drop]
    · rw [head]
      exact List.any_eq_true.mpr ⟨production, productionMember, headed⟩
  · rw [show (Item.start production).dot = 0 from rfl, List.take_zero, List.append_nil]

end Grammar

end ShiftReduce
