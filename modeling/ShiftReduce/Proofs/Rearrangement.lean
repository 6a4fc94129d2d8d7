/-
This file compares two grammars whose productions are the same but for their order. The
productions of both are paired, each with one that has its head and its body; when a production
is listed more than once, its copies are paired one by one. Whatever is said of a grammar by
replacing heads by bodies is then said of the other: what is derived, which symbols are
terminals, what can stand in front of a non-terminal, and so also what the lookahead sets and
the states hold. Every statement is proved in one direction and turned round by pairing the
other way.
-/

import Mathlib.Data.List.Perm.Basic
import ShiftReduce.Proofs.FollowExact

namespace ShiftReduce

/-- A production without its id. -/
def Production.rule (production : Production) : Symbol × List Symbol :=
  (production.head, production.body)

namespace Grammar

/-! ### Pairs of productions -/

/-- The productions of one grammar are those of another in some order, copies counted, and both
grammars start with the same symbol. -/
structure Rearranges (one other : Grammar) : Prop where
  rules : (one.productions.map Production.rule).Perm (other.productions.map Production.rule)
  start : one.startSymbol = other.startSymbol

/-- Every production of either grammar is paired with one of the other, of the same rule. -/
structure Pairing (one other : Grammar) (Paired : Production → Production → Prop) : Prop where
  left : ∀ {first second}, Paired first second → first ∈ one.productions
  right : ∀ {first second}, Paired first second → second ∈ other.productions
  rule : ∀ {first second}, Paired first second → first.rule = second.rule
  forth : ∀ first ∈ one.productions, ∃ second, Paired first second
  back : ∀ second ∈ other.productions, ∃ first, Paired first second
  determined : ∀ {first second third}, Paired first second → Paired first third → second = third
  determines : ∀ {first second third}, Paired first third → Paired second third → first = second
  start : one.startSymbol = other.startSymbol

/-- Copies of a production are paired in the order in which some rearrangement of the second
grammar has them. -/
theorem Rearranges.exists_pairing {one other : Grammar} (rearranges : one.Rearranges other) :
    ∃ Paired, Pairing one other Paired := by
  have own : List.Forall₂ (fun rule production => rule = Production.rule production)
      (other.productions.map Production.rule) other.productions :=
    List.forall₂_map_left_iff.mpr (List.forall₂_same.mpr fun _ _ => rfl)
  obtain ⟨aligned, matched, order⟩ := List.perm_comp_forall₂ rearranges.rules own
  obtain ⟨length, same⟩ := List.forall₂_iff_zip.mp (List.forall₂_map_left_iff.mp matched)
  refine ⟨fun first second => ∃ place : Nat, one.productions[place]? = some first ∧
    aligned[place]? = some second, ?_⟩
  constructor
  · rintro first second ⟨place, found, _⟩
    exact List.mem_of_getElem? found
  · rintro first second ⟨place, _, found⟩
    exact order.mem_iff.mp (List.mem_of_getElem? found)
  · rintro first second ⟨place, firstFound, secondFound⟩
    exact same (List.mem_of_getElem? (List.getElem?_zip_eq_some.mpr ⟨firstFound, secondFound⟩))
  · intro first member
    obtain ⟨place, found⟩ := List.getElem?_of_mem member
    have inside := (List.getElem?_eq_some_iff.mp found).1
    exact ⟨_, place, found, List.getElem?_eq_getElem (length ▸ inside)⟩
  · intro second member
    obtain ⟨place, found⟩ := List.getElem?_of_mem (order.mem_iff.mpr member)
    have inside := (List.getElem?_eq_some_iff.mp found).1
    exact ⟨_, place, List.getElem?_eq_getElem (length.symm ▸ inside), found⟩
  · rintro first second third ⟨place, firstFound, secondFound⟩ ⟨again, firstAgain, thirdFound⟩
    have placeId := one.wellFormed.dense place first firstFound
    rw [one.wellFormed.dense again first firstAgain, Int.ofNat_inj] at placeId
    rw [placeId, secondFound, Option.some_inj] at thirdFound
    exact thirdFound
  · rintro first second third ⟨place, firstFound, thirdFound⟩ ⟨again, secondFound, thirdAgain⟩
    have different : aligned.Nodup := order.nodup_iff.mpr other.nodup_productions
    have inside := (List.getElem?_eq_some_iff.mp thirdFound).1
    rw [(List.getElem?_inj inside different).mp (thirdFound.trans thirdAgain.symm), secondFound,
      Option.some_inj] at firstFound
    exact firstFound.symm
  · exact rearranges.start

/-! ### What is derived -/

section Paired

variable {one other : Grammar} {Paired : Production → Production → Prop}

namespace Pairing

theorem symm (pairing : Pairing one other Paired) :
    Pairing other one fun first second => Paired second first where
  left paired := pairing.right paired
  right paired := pairing.left paired
  rule paired := (pairing.rule paired).symm
  forth := pairing.back
  back := pairing.forth
  determined := pairing.determines
  determines := pairing.determined
  start := pairing.start.symm

theorem head (pairing : Pairing one other Paired) {first second : Production}
    (paired : Paired first second) : first.head = second.head :=
  (Prod.mk.inj (pairing.rule paired)).1

theorem body (pairing : Pairing one other Paired) {first second : Production}
    (paired : Paired first second) : first.body = second.body :=
  (Prod.mk.inj (pairing.rule paired)).2

theorem replaces (pairing : Pairing one other Paired) {first second : List Symbol}
    (replaced : one.Replaces first second) : other.Replaces first second := by
  obtain ⟨before, after, production, member⟩ := replaced
  obtain ⟨twin, paired⟩ := pairing.forth production member
  rw [pairing.head paired, pairing.body paired]
  exact .once before after twin (pairing.right paired)

theorem derives (pairing : Pairing one other Paired) {first second : List Symbol}
    (derived : one.Derives first second) : other.Derives first second := by
  induction derived with
  | refl => exact .refl _
  | tail _ replaced inductionHypothesis =>
    exact .tail inductionHypothesis (pairing.replaces replaced)

theorem derives_iff (pairing : Pairing one other Paired) {first second : List Symbol} :
    one.Derives first second ↔ other.Derives first second :=
  ⟨pairing.derives, pairing.symm.derives⟩

/-! ### Symbols -/

theorem isNonTerminal_of_isNonTerminal (pairing : Pairing one other Paired) {symbol : Symbol}
    (nonTerminal : one.isNonTerminal symbol = true) : other.isNonTerminal symbol = true := by
  obtain ⟨production, headed⟩ := isNonTerminal_iff_exists.mp nonTerminal
  obtain ⟨member, rfl⟩ := mem_productionsFor.mp headed
  obtain ⟨twin, paired⟩ := pairing.forth production member
  rw [pairing.head paired]
  exact head_mem_nonTerminals (pairing.right paired)

theorem isNonTerminal_eq (pairing : Pairing one other Paired) (symbol : Symbol) :
    one.isNonTerminal symbol = other.isNonTerminal symbol :=
  Bool.eq_iff_iff.mpr
    ⟨pairing.isNonTerminal_of_isNonTerminal, pairing.symm.isNonTerminal_of_isNonTerminal⟩

theorem isTerminal_of_isTerminal (pairing : Pairing one other Paired) {symbol : Symbol}
    (terminal : one.isTerminal symbol = true) : other.isTerminal symbol = true := by
  have outside := not_isNonTerminal_of_isTerminal terminal
  rw [isTerminal, Bool.and_eq_true, List.any_eq_true] at terminal
  obtain ⟨_, production, member, contained⟩ := terminal
  obtain ⟨twin, paired⟩ := pairing.forth production member
  have inside : symbol ∈ twin.body := pairing.body paired ▸ List.contains_iff_mem.mp contained
  rw [pairing.isNonTerminal_eq] at outside
  exact (body_symbol (pairing.right paired) inside).resolve_right outside

theorem isTerminal_eq (pairing : Pairing one other Paired) (symbol : Symbol) :
    one.isTerminal symbol = other.isTerminal symbol :=
  Bool.eq_iff_iff.mpr ⟨pairing.isTerminal_of_isTerminal, pairing.symm.isTerminal_of_isTerminal⟩

theorem mem_symbols (pairing : Pairing one other Paired) {symbol : Symbol} :
    symbol ∈ one.symbols ↔ symbol ∈ other.symbols := by
  rw [mem_symbols_iff, mem_symbols_iff, pairing.isTerminal_eq, pairing.isNonTerminal_eq]

theorem mem_nonTerminals (pairing : Pairing one other Paired) {symbol : Symbol} :
    symbol ∈ one.nonTerminals ↔ symbol ∈ other.nonTerminals := by
  rw [← isNonTerminal_iff, ← isNonTerminal_iff, pairing.isNonTerminal_eq]

/-! ### Lookahead sets -/

theorem starts_iff (pairing : Pairing one other Paired) {string : List Symbol} {member : Symbol} :
    one.Starts string member ↔ other.Starts string member := by
  simp only [Starts, pairing.isTerminal_eq, pairing.derives_iff]

theorem trails_iff (pairing : Pairing one other Paired) {symbol member : Symbol} :
    one.Trails symbol member ↔ other.Trails symbol member := by
  simp only [Trails, pairing.isTerminal_eq, pairing.isNonTerminal_eq, pairing.derives_iff,
    pairing.start]

end Pairing

/-- Lookahead sets that agree on every symbol. -/
structure SameSets (one other : LookaheadSets) : Prop where
  first : ∀ symbol, one.first.get? symbol = other.first.get? symbol
  follow : ∀ symbol, one.follow.get? symbol = other.follow.get? symbol

theorem Pairing.sameSets (pairing : Pairing one other Paired) {sets twins : LookaheadSets}
    (exact : one.ExactSets sets) (twinExact : other.ExactSets twins) : SameSets sets twins where
  first _ := exact.first_eq twinExact pairing.mem_symbols fun _ => pairing.starts_iff
  follow _ := exact.follow_eq twinExact pairing.mem_nonTerminals fun _ => pairing.trails_iff

/-! ### Augmentations -/

/-- The same symbols leave the same fresh symbol. -/
theorem Pairing.freshStart_eq (pairing : Pairing one other Paired) (start : Symbol) :
    one.freshStart start = other.freshStart start := by
  obtain ⟨count, equal, new, passed⟩ := one.freshStart_eq_primes start
  obtain ⟨twinCount, twinEqual, twinNew, twinPassed⟩ := other.freshStart_eq_primes start
  have same : count = twinCount := by
    rcases Nat.lt_trichotomy count twinCount with below | same | above
    · exact absurd (pairing.mem_symbols.mpr (twinPassed count below)) new
    · exact same
    · exact absurd (pairing.mem_symbols.mp (passed twinCount above)) twinNew
  rw [equal, twinEqual, same]

/-- The pairs of the augmentations: the roots, and the pairs of the grammars themselves. -/
def Lifted (Paired : Production → Production → Prop) (one other : Grammar) (start : Symbol)
    (first second : Production) : Prop :=
  first = one.root start ∧ second = other.root start ∨
    ∃ old twin, Paired old twin ∧ moved old = first ∧ moved twin = second

theorem moved_injective {first second : Production} (same : moved first = moved second) :
    first = second := by
  obtain ⟨id, head, body⟩ := first
  obtain ⟨twinId, twinHead, twinBody⟩ := second
  obtain ⟨ids, rfl, rfl⟩ := Production.mk.inj same
  obtain rfl : id = twinId := (Int.add_left_inj 1).mp ids
  rfl

/-- A root is no moved production. -/
theorem moved_ne_root {grammar : Grammar} {production : Production} {start : Symbol}
    (member : production ∈ grammar.productions) : moved production ≠ grammar.root start :=
  fun same => Augments.moved_id_ne_zero member (congrArg Production.id same)

section Augmented

variable {oneAugmented otherAugmented : Grammar} {start : Symbol}

theorem Pairing.lifted_determined (pairing : Pairing one other Paired)
    {first second third : Production} (pair : Lifted Paired one other start first second)
    (again : Lifted Paired one other start first third) : second = third := by
  rcases pair with ⟨rfl, rfl⟩ | ⟨old, twin, paired, rfl, rfl⟩
  · rcases again with ⟨_, rfl⟩ | ⟨former, _, pairedAgain, same, _⟩
    · rfl
    · exact absurd same (moved_ne_root (pairing.left pairedAgain))
  · rcases again with ⟨same, _⟩ | ⟨former, twinAgain, pairedAgain, same, rfl⟩
    · exact absurd same (moved_ne_root (pairing.left paired))
    · rw [moved_injective same] at pairedAgain
      rw [pairing.determined paired pairedAgain]

theorem Lifted.symm {first second : Production}
    (pair : Lifted Paired one other start first second) :
    Lifted (fun first second => Paired second first) other one start second first := by
  rcases pair with ⟨rfl, rfl⟩ | ⟨old, twin, paired, rfl, rfl⟩
  · exact .inl ⟨rfl, rfl⟩
  · exact .inr ⟨twin, old, paired, rfl, rfl⟩

theorem Pairing.exists_lifted (pairing : Pairing one other Paired)
    (augments : one.Augments oneAugmented start) {first : Production}
    (member : first ∈ oneAugmented.productions) :
    ∃ second, Lifted Paired one other start first second := by
  rcases augments.mem_productions.mp member with rfl | ⟨old, oldMember, rfl⟩
  · exact ⟨_, .inl ⟨rfl, rfl⟩⟩
  · obtain ⟨twin, paired⟩ := pairing.forth old oldMember
    exact ⟨_, .inr ⟨old, twin, paired, rfl, rfl⟩⟩

theorem Pairing.lifted_left (pairing : Pairing one other Paired)
    (augments : one.Augments oneAugmented start) {first second : Production}
    (pair : Lifted Paired one other start first second) : first ∈ oneAugmented.productions := by
  rcases pair with ⟨rfl, _⟩ | ⟨old, twin, paired, rfl, _⟩
  · exact augments.root_mem
  · exact augments.moved_mem (pairing.left paired)

/-- Augmenting keeps the pairing, with the roots as one more pair. -/
theorem Pairing.augmented (pairing : Pairing one other Paired)
    (oneAugments : one.Augments oneAugmented start)
    (otherAugments : other.Augments otherAugmented start) :
    Pairing oneAugmented otherAugmented (Lifted Paired one other start) where
  left pair := pairing.lifted_left oneAugments pair
  right pair := pairing.symm.lifted_left otherAugments pair.symm
  rule pair := by
    rcases pair with ⟨rfl, rfl⟩ | ⟨old, twin, paired, rfl, rfl⟩
    · rw [Production.rule, Production.rule, root, root, pairing.freshStart_eq start]
    · show old.rule = twin.rule
      exact pairing.rule paired
  forth first member := pairing.exists_lifted oneAugments member
  back second member := by
    obtain ⟨first, pair⟩ := pairing.symm.exists_lifted otherAugments member
    exact ⟨first, pair.symm⟩
  determined pair again := pairing.lifted_determined pair again
  determines pair again := pairing.symm.lifted_determined pair.symm again.symm
  start := by
    rw [oneAugments.startSymbol_eq, otherAugments.startSymbol_eq, pairing.freshStart_eq start]

end Augmented

/-! ### Items -/

theorem Pairing.leftContext (pairing : Pairing one other Paired) {symbol : Symbol}
    {context : List Symbol} (outer : one.LeftContext symbol context) :
    other.LeftContext symbol context := by
  induction outer with
  | start first => exact .start (pairing.start ▸ first)
  | inside production before after symbol _ member split nonTerminal inductionHypothesis =>
    obtain ⟨twin, paired⟩ := pairing.forth production member
    rw [pairing.head paired] at inductionHypothesis
    rw [pairing.body paired] at split
    exact .inside twin before after symbol inductionHypothesis (pairing.right paired) split
      (pairing.isNonTerminal_eq symbol ▸ nonTerminal)

/-- Items of paired productions with their dots in the same place. -/
structure PairedItems (Paired : Production → Production → Prop) (first second : Item) : Prop where
  productions : Paired first.production second.production
  dots : first.dot = second.dot

namespace Pairing

theorem exists_item (pairing : Pairing one other Paired) (item : Item)
    (owned : item.production ∈ one.productions) : ∃ twin, PairedItems Paired item twin := by
  obtain ⟨twin, paired⟩ := pairing.forth item.production owned
  exact ⟨⟨twin, item.dot, pairing.body paired ▸ item.inside⟩, paired, rfl⟩

theorem symbol?_eq (pairing : Pairing one other Paired) {item twin : Item}
    (pair : PairedItems Paired item twin) : item.symbol? = twin.symbol? := by
  rw [Item.symbol?, Item.symbol?, pairing.body pair.productions, pair.dots]

theorem isComplete_eq (pairing : Pairing one other Paired) {item twin : Item}
    (pair : PairedItems Paired item twin) : item.isComplete = twin.isComplete := by
  rw [Item.isComplete, Item.isComplete, pairing.body pair.productions, pair.dots]

theorem validItem (pairing : Pairing one other Paired) {item twin : Item}
    (pair : PairedItems Paired item twin) {string : List Symbol}
    (valid : one.ValidItem string item) : other.ValidItem string twin := by
  obtain ⟨_, context, outer, rfl⟩ := valid
  have outer := pairing.leftContext outer
  rw [pairing.head pair.productions] at outer
  refine ⟨pairing.right pair.productions, context, outer, ?_⟩
  rw [pairing.body pair.productions, pair.dots]

theorem isViable (pairing : Pairing one other Paired) {string : List Symbol}
    (viable : one.IsViable string) : other.IsViable string := by
  obtain ⟨item, valid⟩ := viable
  obtain ⟨twin, pair⟩ := pairing.exists_item item valid.1
  exact ⟨twin, pairing.validItem pair valid⟩

/-- What is valid in the second grammar is valid in the first, and so for every string for which
the same items are valid there. -/
theorem validItem_of_same (pairing : Pairing one other Paired) {first second : List Symbol}
    (same : ∀ item, one.ValidItem first item ↔ one.ValidItem second item) {twin : Item}
    (valid : other.ValidItem first twin) : other.ValidItem second twin := by
  obtain ⟨item, pair⟩ := pairing.symm.exists_item twin valid.1
  have before : one.ValidItem first item := pairing.symm.validItem pair valid
  exact pairing.validItem ⟨pair.productions, pair.dots.symm⟩ ((same item).mp before)

end Pairing

end Paired

end Grammar

end ShiftReduce
