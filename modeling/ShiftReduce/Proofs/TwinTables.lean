/-
This file carries a pairing of productions on to the automata and the tables. A string leads
somewhere in both automata or in neither, and two strings that one automaton does not tell
apart are not told apart by the other, so the states that the same strings lead to correspond
one to one, whatever their numbers. Corresponding states call for corresponding entries, and
so both tables have the same number of states and are both without conflicts or both not.
-/

import Mathlib.Data.Fintype.Card
import ShiftReduce.Proofs.Collection
import ShiftReduce.Proofs.Conflicts
import ShiftReduce.Proofs.Rearrangement
import ShiftReduce.Proofs.ValidItems

namespace ShiftReduce

namespace Grammar

open Table

/-- Two grammars with paired augmentations, and the automata of these. -/
structure Twins (one other oneAugmented otherAugmented : Grammar) (start : Symbol)
    (states others : List State) (Paired : Production → Production → Prop) : Prop where
  augments : one.Augments oneAugmented start
  otherAugments : other.Augments otherAugmented start
  collection : oneAugmented.Collection (Item.start (one.root start)) states
  otherCollection : otherAugmented.Collection (Item.start (other.root start)) others
  pairing : Pairing oneAugmented otherAugmented Paired
  roots : Paired (one.root start) (other.root start)

section Automata

variable {one other oneAugmented otherAugmented : Grammar} {start : Symbol}
  {states others : List State} {Paired : Production → Production → Prop}

namespace Twins

theorem symm (twins : Twins one other oneAugmented otherAugmented start states others Paired) :
    Twins other one otherAugmented oneAugmented start others states
      fun first second => Paired second first where
  augments := twins.otherAugments
  otherAugments := twins.augments
  collection := twins.otherCollection
  otherCollection := twins.collection
  pairing := twins.pairing.symm
  roots := twins.roots

/-! ### States -/

section States

variable (twins : Twins one other oneAugmented otherAugmented start states others Paired)
include twins

theorem walk_exists {string : List Symbol} {number : Nat}
    (walked : State.walk states 0 string = some number) :
    ∃ twin, State.walk others 0 string = some twin := by
  have viable := (walk_exists_iff twins.augments twins.collection.toCanonical).mp ⟨number, walked⟩
  exact (walk_exists_iff twins.otherAugments twins.otherCollection.toCanonical).mpr
    (twins.pairing.isViable viable)

/-- Strings that lead to one state in one automaton do so in the other. -/
theorem walk_eq {first second : List Symbol} {number twin : Nat}
    (firstWalked : State.walk states 0 first = some number)
    (secondWalked : State.walk states 0 second = some number)
    (twinWalked : State.walk others 0 first = some twin) :
    State.walk others 0 second = some twin := by
  have viable := (walk_exists_iff twins.augments twins.collection.toCanonical).mp
    ⟨number, firstWalked⟩
  have same := (walk_eq_walk_iff twins.augments twins.collection.toCanonical viable).mp
    (firstWalked.trans secondWalked.symm)
  rw [← twinWalked]
  refine ((walk_eq_walk_iff twins.otherAugments twins.otherCollection.toCanonical
    (twins.pairing.isViable viable)).mpr fun item => ?_).symm
  exact ⟨twins.pairing.validItem_of_same same,
    twins.pairing.validItem_of_same fun item => (same item).symm⟩

theorem length_le : states.length ≤ others.length := by
  choose string _ walked using fun number : Fin states.length =>
    twins.collection.reached number number.isLt
  choose twin twinWalked using fun number : Fin states.length => twins.walk_exists (walked number)
  have inside (number : Fin states.length) : twin number < others.length := by
    obtain ⟨state, found⟩ :=
      twins.otherCollection.toCanonical.getElem?_walk (twinWalked number)
    exact (List.getElem?_eq_some_iff.mp found).1
  have injective : Function.Injective fun number =>
      (⟨twin number, inside number⟩ : Fin others.length) := by
    intro first second same
    have again : State.walk others 0 (string second) = some (twin first) := by
      rw [twinWalked second, ← Fin.mk.inj same]
    have back := twins.symm.walk_eq (twinWalked first) again (walked first)
    rw [walked second, Option.some_inj] at back
    exact (Fin.ext back).symm
  simpa only [Fintype.card_fin] using Fintype.card_le_of_injective _ injective

end States

theorem length_eq (twins : Twins one other oneAugmented otherAugmented start states others Paired) :
    states.length = others.length :=
  Nat.le_antisymm twins.length_le twins.symm.length_le

end Twins

/-! ### Entries -/

/-- Entries that correspond: shifts to states that one string leads to, reductions by paired
productions, and acceptance. -/
inductive PairedEntries (states others : List State) (Paired : Production → Production → Prop) :
    Entry → Entry → Prop
  | shift (string : List Symbol) (number twin : Nat)
      (walked : State.walk states 0 string = some number)
      (twinWalked : State.walk others 0 string = some twin) :
      PairedEntries states others Paired (.shift number) (.shift twin)
  | reduce {first second : Production} (paired : Paired first second) :
      PairedEntries states others Paired (.reduce first) (.reduce second)
  | accept : PairedEntries states others Paired .accept .accept

theorem PairedEntries.symm {entry twin : Entry}
    (pair : PairedEntries states others Paired entry twin) :
    PairedEntries others states (fun first second => Paired second first) twin entry := by
  cases pair with
  | shift string number twin walked twinWalked => exact .shift string twin number twinWalked walked
  | reduce paired => exact .reduce paired
  | accept => exact .accept

theorem Twins.entry_determined
    (twins : Twins one other oneAugmented otherAugmented start states others Paired)
    {entry first second : Entry} (pair : PairedEntries states others Paired entry first)
    (again : PairedEntries states others Paired entry second) : first = second := by
  cases pair with
  | shift string number twin walked twinWalked =>
    generalize written : (Entry.shift number) = entry at again
    cases again with
    | shift otherString otherNumber otherTwin otherWalked otherTwinWalked =>
      rw [← Int.ofNat_inj.mp (Entry.shift.inj written)] at otherWalked
      have same := twins.walk_eq walked otherWalked twinWalked
      rw [otherTwinWalked, Option.some_inj] at same
      rw [same]
    | reduce | accept => cases written
  | reduce paired =>
    cases again with
    | reduce pairedAgain => rw [twins.pairing.determined paired pairedAgain]
  | accept =>
    cases again with
    | accept => rfl

/-- The root is paired with nothing but the root. -/
theorem Twins.id_of_root
    (twins : Twins one other oneAugmented otherAugmented start states others Paired)
    {first second : Production} (paired : Paired first second)
    (root : first.id = (one.root start).id) : second.id = (other.root start).id := by
  rw [production_ext (twins.pairing.left paired) twins.augments.root_mem root] at paired
  rw [twins.pairing.determined paired twins.roots]

/-- Corresponding states call for corresponding entries, since what is valid in one of them has a
pair that is valid in the other. -/
theorem Twins.candidate
    (twins : Twins one other oneAugmented otherAugmented start states others Paired)
    {follow otherFollow : SetMap} (same : ∀ symbol, follow.get? symbol = otherFollow.get? symbol)
    {string : List Symbol} {number twin : Nat} {state twinState : State}
    (walked : State.walk states 0 string = some number) (found : states[number]? = some state)
    (twinWalked : State.walk others 0 string = some twin)
    (twinFound : others[twin]? = some twinState) {token : Symbol} {entry : Entry}
    (candidate : Candidate oneAugmented follow (one.root start) state token entry) :
    ∃ twinEntry,
      Candidate otherAugmented otherFollow (other.root start) twinState token twinEntry ∧
        PairedEntries states others Paired entry twinEntry := by
  have pairing := twins.pairing
  have canonical := twins.collection.toCanonical
  have otherCanonical := twins.otherCollection.toCanonical
  have pairedItem {item : Item} (member : item ∈ state.items.items) :
      ∃ twinItem ∈ twinState.items.items, PairedItems Paired item twinItem := by
    have valid := (mem_state_iff twins.augments canonical walked found).mp member
    obtain ⟨twinItem, pair⟩ := pairing.exists_item item valid.1
    exact ⟨twinItem, (mem_state_iff twins.otherAugments otherCanonical twinWalked twinFound).mpr
      (pairing.validItem pair valid), pair⟩
  cases candidate with
  | @shift item next member behind terminal leads =>
    obtain ⟨twinItem, twinMember, pair⟩ := pairedItem member
    have extended : State.walk states 0 (string ++ [token]) = some next :=
      (State.walk_concat_of_found walked found token).trans leads
    obtain ⟨twinNext, twinExtended⟩ := twins.walk_exists extended
    have twinLeads := twinExtended
    rw [State.walk_concat_of_found twinWalked twinFound] at twinLeads
    refine ⟨_, .shift twinMember ?_ ?_ twinLeads, .shift _ next twinNext extended twinExtended⟩
    · rw [← pairing.symbol?_eq pair, behind]
    · rw [← pairing.isTerminal_eq, terminal]
  | @reduce item lookahead member complete apart known column ahead =>
    obtain ⟨twinItem, twinMember, pair⟩ := pairedItem member
    refine ⟨_, .reduce twinMember ?_ ?_ ?_ ?_ ahead, .reduce pair.productions⟩
    · rw [← pairing.isComplete_eq pair, complete]
    · exact mt (twins.symm.id_of_root pair.productions) apart
    · rw [← same, ← pairing.head pair.productions, known]
    · rw [mem_columns, pairing.isTerminal_eq] at column
      exact mem_columns.mpr column
  | @accept item member complete own ending =>
    obtain ⟨twinItem, twinMember, pair⟩ := pairedItem member
    refine ⟨_, .accept twinMember ?_ (twins.id_of_root pair.productions own) ending, .accept⟩
    rw [← pairing.isComplete_eq pair, complete]

/-! ### Conflicts -/

/-- If no cell of the one table has two candidates, none of the other has. -/
theorem Twins.single
    (twins : Twins one other oneAugmented otherAugmented start states others Paired)
    {follow otherFollow : SetMap} (same : ∀ symbol, follow.get? symbol = otherFollow.get? symbol)
    (single : ∀ (number : Nat) (state : State), states[number]? = some state →
      ∀ token first second, Candidate oneAugmented follow (one.root start) state token first →
        Candidate oneAugmented follow (one.root start) state token second → first = second)
    (number : Nat) (state : State) (found : others[number]? = some state) (token : Symbol)
    (first second : Entry)
    (candidate : Candidate otherAugmented otherFollow (other.root start) state token first)
    (rival : Candidate otherAugmented otherFollow (other.root start) state token second) :
    first = second := by
  obtain ⟨string, _, walked⟩ :=
    twins.otherCollection.reached number (List.getElem?_eq_some_iff.mp found).1
  obtain ⟨twin, twinWalked⟩ := twins.symm.walk_exists walked
  obtain ⟨twinState, twinFound⟩ := twins.collection.toCanonical.getElem?_walk twinWalked
  obtain ⟨twinFirst, twinCandidate, pair⟩ := twins.symm.candidate (fun symbol => (same symbol).symm)
    walked found twinWalked twinFound candidate
  obtain ⟨twinSecond, twinRival, otherPair⟩ := twins.symm.candidate
    (fun symbol => (same symbol).symm) walked found twinWalked twinFound rival
  obtain rfl := single twin twinState twinFound token _ _ twinCandidate twinRival
  exact twins.entry_determined pair.symm otherPair.symm

/-- Exact tables of twins are both without conflicts, or both not. -/
theorem Twins.isDeterministic_iff
    (twins : Twins one other oneAugmented otherAugmented start states others Paired)
    {follow otherFollow : SetMap} (same : ∀ symbol, follow.get? symbol = otherFollow.get? symbol)
    {table otherTable : Table} (exact : Exact oneAugmented follow (one.root start) states table)
    (otherExact : Exact otherAugmented otherFollow (other.root start) others otherTable) :
    table.isDeterministic = true ↔ otherTable.isDeterministic = true := by
  rw [exact.isDeterministic_iff, otherExact.isDeterministic_iff]
  exact ⟨twins.single same, twins.symm.single fun symbol => (same symbol).symm⟩

end Automata

end Grammar

end ShiftReduce
