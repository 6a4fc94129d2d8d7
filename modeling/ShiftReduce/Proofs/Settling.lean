/-
This file proves that growing passes over a map of symbol sets settle. Maps are compared
symbol by symbol, and the volume of a map is the number of members in all its sets. A pass
that only adds members either changes nothing or makes some set larger, and so the volume,
so a bound on the volume bounds the passes, and the last result is a map that the pass leaves
alone. A pass that visits a list leaves a map alone only if every single visit does.
-/

import Mathlib.Algebra.Order.BigOperators.Group.List
import Mathlib.Algebra.Order.Ring.Nat
import Mathlib.Data.List.Sort
import ShiftReduce.Lookahead.Follow

namespace ShiftReduce

/-! ### Sets by their members -/

namespace SymbolSet

theorem nodup (set : SymbolSet) : set.members.Nodup :=
  set.ascending.nodup

/-- Sets with the same members are equal. -/
theorem ext {first second : SymbolSet} (same : ∀ symbol, symbol ∈ first ↔ symbol ∈ second) :
    first = second := by
  obtain ⟨left, leftUp⟩ := first
  obtain ⟨right, rightUp⟩ := second
  have equal : left = right := leftUp.eq_of_mem_iff rightUp same
  subst equal
  rfl

theorem size_le {small large : SymbolSet} (inside : ∀ symbol ∈ small, symbol ∈ large) :
    small.size ≤ large.size :=
  small.nodup.length_le_of_subset fun _ member => inside _ member

/-- A set that is contained in one that is not larger is the same set. -/
theorem eq_of_size_le {small large : SymbolSet} (inside : ∀ symbol ∈ small, symbol ∈ large)
    (bound : large.size ≤ small.size) : small = large :=
  ext fun _ => ((List.subperm_of_subset small.nodup fun _ member =>
    inside _ member).perm_of_length_le bound).mem_iff

end SymbolSet

/-! ### Maps by their symbols -/

namespace SymbolMap

variable {Value : Type}

theorem mem_keys_iff {map : SymbolMap Value} {symbol : Symbol} :
    symbol ∈ map.keys ↔ ∃ value, map.get? symbol = some value := by
  rw [← isSome_get?_iff, Option.isSome_iff_exists]

theorem entries_eq_filterMap (map : SymbolMap Value) :
    map.entries = map.keys.filterMap fun key => (map.get? key).map fun value => (key, value) := by
  have written : ∀ entry ∈ map.entries,
      (map.get? entry.1).map (fun value => (entry.1, value)) = some entry := fun entry member => by
    rw [(map.get?_eq_some_iff entry.1 entry.2).mpr member]
    rfl
  rw [keys, List.filterMap_map]
  exact (List.filterMap_some.symm.trans (List.filterMap_congr fun entry member =>
    (written entry member).symm))

/-- Maps with the same symbols in the same order and the same values are one map. -/
theorem ext {first second : SymbolMap Value} (sameKeys : first.keys = second.keys)
    (same : ∀ symbol, first.get? symbol = second.get? symbol) : first = second := by
  have entries : first.entries = second.entries := by
    rw [entries_eq_filterMap, entries_eq_filterMap, sameKeys, funext same]
  cases first
  cases second
  cases entries
  rfl

theorem put_of_not_mem {symbol : Symbol} {value : Value} {entries : List (Symbol × Value)}
    (absent : symbol ∉ entries.map Prod.fst) :
    put symbol value entries = entries ++ [(symbol, value)] := by
  induction entries with
  | nil => rfl
  | cons entry rest inductionHypothesis =>
    obtain ⟨key, old⟩ := entry
    rw [List.map_cons, List.mem_cons, not_or] at absent
    rw [put, if_neg (Ne.symm absent.1), inductionHypothesis absent.2, List.cons_append]

/-- A list of pairs with different symbols is written as it stands. -/
theorem entries_ofList {pairs : List (Symbol × Value)} (different : (pairs.map Prod.fst).Nodup) :
    (ofList pairs).entries = pairs := by
  have general : ∀ (pairs : List (Symbol × Value)) (map : SymbolMap Value),
      ((map.entries ++ pairs).map Prod.fst).Nodup →
        (pairs.foldl (fun map pair => map.insert pair.1 pair.2) map).entries =
          map.entries ++ pairs := by
    intro pairs
    induction pairs with
    | nil => exact fun map _ => (List.append_nil _).symm
    | cons pair rest inductionHypothesis =>
      intro map distinct
      have absent : pair.1 ∉ map.entries.map Prod.fst := by
        rw [List.map_append, List.nodup_append] at distinct
        exact fun member => distinct.2.2 _ member _ List.mem_cons_self rfl
      have added : (map.insert pair.1 pair.2).entries = map.entries ++ [pair] :=
        put_of_not_mem absent
      rw [List.foldl_cons, inductionHypothesis, added, List.append_assoc, List.singleton_append]
      rw [added, List.append_assoc, List.singleton_append]
      exact distinct
  exact general pairs empty different

theorem keys_ofList {pairs : List (Symbol × Value)} (different : (pairs.map Prod.fst).Nodup) :
    (ofList pairs).keys = pairs.map Prod.fst := by
  rw [keys, entries_ofList different]

theorem get?_ofList_eq_some_iff {pairs : List (Symbol × Value)}
    (different : (pairs.map Prod.fst).Nodup) {symbol : Symbol} {value : Value} :
    (ofList pairs).get? symbol = some value ↔ (symbol, value) ∈ pairs := by
  rw [get?_eq_some_iff, entries_ofList different]

theorem keys_insert_of_mem {map : SymbolMap Value} {symbol : Symbol} (present : symbol ∈ map.keys)
    (value : Value) : (map.insert symbol value).keys = map.keys := by
  rw [keys_insert, if_pos present]

end SymbolMap

namespace SetMap

/-! ### Growing maps -/

/-- The same symbols in the same order, and every set is contained in its counterpart. -/
structure Within (small large : SetMap) : Prop where
  keys : small.keys = large.keys
  sets : ∀ symbol set, small.get? symbol = some set →
    ∃ other, large.get? symbol = some other ∧ ∀ member ∈ set, member ∈ other

/-- A map that contains another, with a larger set for some symbol. -/
structure StrictlyWithin (small large : SetMap) : Prop extends Within small large where
  larger : ∃ symbol fewer more, small.get? symbol = some fewer ∧
    large.get? symbol = some more ∧ ∃ member ∈ more, member ∉ fewer

theorem Within.refl (sets : SetMap) : sets.Within sets :=
  ⟨rfl, fun _ set found => ⟨set, found, fun _ member => member⟩⟩

theorem Within.trans {first second third : SetMap} (one : first.Within second)
    (other : second.Within third) : first.Within third := by
  refine ⟨one.keys.trans other.keys, fun symbol set found => ?_⟩
  obtain ⟨middle, middleFound, inMiddle⟩ := one.sets symbol set found
  obtain ⟨last, lastFound, inLast⟩ := other.sets symbol middle middleFound
  exact ⟨last, lastFound, fun member inside => inLast member (inMiddle member inside)⟩

theorem within_insert {sets : SetMap} {symbol : Symbol} {set larger : SymbolSet}
    (found : sets.get? symbol = some set) (inside : ∀ member ∈ set, member ∈ larger) :
    sets.Within (sets.insert symbol larger) := by
  refine ⟨(SymbolMap.keys_insert_of_mem (SymbolMap.mem_keys_iff.mpr ⟨set, found⟩) _).symm,
    fun other otherSet otherFound => ?_⟩
  by_cases same : other = symbol
  · subst same
    rw [found, Option.some_inj] at otherFound
    subst otherFound
    exact ⟨larger, SymbolMap.get?_insert_self _ _ _, inside⟩
  · exact ⟨otherSet, (SymbolMap.get?_insert_other sets same _).trans otherFound,
      fun _ member => member⟩

/-- Symbols that two maps both know or both do not know, with the same members, have the same
sets. -/
theorem get?_eq_of_members {first second : SetMap} {symbol twin : Symbol}
    (known : symbol ∈ first.keys ↔ twin ∈ second.keys)
    (same : ∀ set other, first.get? symbol = some set → second.get? twin = some other →
      ∀ member, member ∈ set ↔ member ∈ other) :
    first.get? symbol = second.get? twin := by
  rw [SymbolMap.mem_keys_iff, SymbolMap.mem_keys_iff] at known
  cases firstFound : first.get? symbol with
  | none =>
    rw [firstFound] at known
    refine (Option.eq_none_iff_forall_ne_some.mpr fun set secondFound => ?_).symm
    obtain ⟨_, found⟩ := known.mpr ⟨set, secondFound⟩
    cases found
  | some set =>
    obtain ⟨other, secondFound⟩ := known.mp ⟨set, firstFound⟩
    rw [secondFound, SymbolSet.ext (same set other firstFound secondFound)]

/-! ### Volume -/

/-- The number of members of a symbol's set. -/
def sizeAt (sets : SetMap) (symbol : Symbol) : Nat :=
  ((sets.get? symbol).map SymbolSet.size).getD 0

/-- The number of members of all sets. -/
def volume (sets : SetMap) : Nat :=
  (sets.keys.map sets.sizeAt).sum

theorem Within.sizeAt_le {small large : SetMap} (within : small.Within large)
    (symbol : Symbol) : small.sizeAt symbol ≤ large.sizeAt symbol := by
  unfold sizeAt
  cases found : small.get? symbol with
  | none => exact Nat.zero_le _
  | some set =>
    obtain ⟨other, otherFound, inside⟩ := within.sets symbol set found
    rw [otherFound]
    exact SymbolSet.size_le inside

/-- Sets whose members all come from a list are no larger than the list. -/
theorem sum_sizeAt_le {sets : SetMap} {symbols : List Symbol} (possible : List Symbol)
    (inside : ∀ symbol ∈ symbols, ∀ set, sets.get? symbol = some set →
      ∀ member ∈ set, member ∈ possible) :
    (symbols.map sets.sizeAt).sum ≤ symbols.length * possible.length := by
  have bound : ∀ size ∈ symbols.map sets.sizeAt, size ≤ possible.length := by
    intro size listed
    obtain ⟨symbol, member, rfl⟩ := List.mem_map.mp listed
    rw [sizeAt]
    cases found : sets.get? symbol with
    | none => exact Nat.zero_le _
    | some set => exact set.nodup.length_le_of_subset fun _ => inside symbol member set found _
  have total := List.sum_le_card_nsmul _ _ bound
  rw [List.length_map, Nat.nsmul_eq_mul] at total
  exact total

/-- A map that grows is the same map or makes some set larger. -/
theorem Within.eq_or_strictlyWithin {small large : SetMap} (within : small.Within large) :
    large = small ∨ small.StrictlyWithin large := by
  by_cases larger : ∃ symbol fewer more, small.get? symbol = some fewer ∧
      large.get? symbol = some more ∧ ∃ member ∈ more, member ∉ fewer
  · exact .inr ⟨within, larger⟩
  · left
    refine SymbolMap.ext within.keys.symm fun symbol => (get?_eq_of_members
      (by rw [within.keys]) fun set other found otherFound member => ?_).symm
    obtain ⟨actual, actualFound, inside⟩ := within.sets symbol set found
    rw [otherFound, Option.some_inj] at actualFound
    subst actualFound
    refine ⟨inside member, fun inOther => by_contra fun absent => larger ?_⟩
    exact ⟨symbol, set, other, found, otherFound, member, inOther, absent⟩

theorem StrictlyWithin.volume_lt {small large : SetMap} (strictly : small.StrictlyWithin large) :
    small.volume < large.volume := by
  obtain ⟨within, symbol, fewer, more, found, otherFound, member, inMore, absent⟩ := strictly
  have inside : ∀ other ∈ fewer, other ∈ more := by
    obtain ⟨actual, actualFound, inside⟩ := within.sets symbol fewer found
    rw [otherFound, Option.some_inj] at actualFound
    exact actualFound ▸ inside
  rw [volume, volume, ← within.keys]
  refine List.sum_lt_sum _ _ (fun symbol _ => within.sizeAt_le symbol)
    ⟨symbol, SymbolMap.mem_keys_iff.mpr ⟨fewer, found⟩, ?_⟩
  rw [sizeAt, sizeAt, found, otherFound]
  refine Nat.lt_of_not_le fun bound => absent ?_
  rw [SymbolSet.eq_of_size_le inside bound]
  exact inMore

theorem Within.volume_le {small large : SetMap} (within : small.Within large) :
    small.volume ≤ large.volume := by
  rcases within.eq_or_strictlyWithin with same | strictly
  · rw [same]
  · exact Nat.le_of_lt strictly.volume_lt

theorem Within.antisymm {first second : SetMap} (one : first.Within second)
    (other : second.Within first) : second = first := by
  rcases one.eq_or_strictlyWithin with same | strictly
  · exact same
  · exact absurd other.volume_le (Nat.not_le_of_lt strictly.volume_lt)

/-! ### Passes -/

section Passes

variable {Keeps : SetMap → Prop}

/-- A pass that visits a list grows the map if every visit does, and leaves the map alone
only if every visit leaves it alone. -/
theorem foldlM_grows {Element : Type} {visit : SetMap → Element → Except Fault SetMap}
    (list : List Element)
    (grows : ∀ element ∈ list, ∀ sets, Keeps sets →
      ∃ next, visit sets element = .ok next ∧ Keeps next ∧ sets.Within next)
    {sets : SetMap} (keeps : Keeps sets) :
    ∃ final, list.foldlM visit sets = .ok final ∧ Keeps final ∧ sets.Within final ∧
      (final = sets → ∀ element ∈ list, visit sets element = .ok sets) := by
  induction list generalizing sets with
  | nil => exact ⟨sets, rfl, keeps, .refl _, fun _ _ member => absurd member List.not_mem_nil⟩
  | cons first rest inductionHypothesis =>
    obtain ⟨next, visited, nextKeeps, within⟩ := grows first List.mem_cons_self sets keeps
    obtain ⟨final, done, finalKeeps, nextWithin, still⟩ := inductionHypothesis
      (fun element member => grows element (List.mem_cons_of_mem _ member)) nextKeeps
    refine ⟨final, ?_, finalKeeps, within.trans nextWithin, fun same element member => ?_⟩
    · rw [List.foldlM_cons, visited]
      exact done
    · have unmoved : next = sets := within.antisymm (same ▸ nextWithin)
      rcases List.mem_cons.mp member with rfl | inRest
      · rw [visited, unmoved]
      · rw [← unmoved]
        exact still (same.trans unmoved.symm) element inRest

/-- The results of passes that grow a map, up to the pass that changes nothing. -/
inductive Climbs (pass : SetMap → Except Fault SetMap) : SetMap → List SetMap → Prop
  | still {current : SetMap} (unchanged : pass current = .ok current) :
      Climbs pass current [current]
  | grown {current next : SetMap} {results : List SetMap} (passed : pass current = .ok next)
      (strictly : current.StrictlyWithin next) (later : Climbs pass next results) :
      Climbs pass current (next :: results)

namespace Climbs

variable {pass : SetMap → Except Fault SetMap} {current : SetMap} {results : List SetMap}

theorem settled_cons (climbs : Climbs pass current results) (earlier : SetMap) :
    settled (earlier :: results) = settled results := by
  cases climbs <;> rfl

/-- The last pass leaves its result alone. -/
theorem settles (climbs : Climbs pass current results) :
    pass (settled results) = .ok (settled results) := by
  induction climbs with
  | still unchanged => exact unchanged
  | grown _ _ later inductionHypothesis =>
    rw [later.settled_cons]
    exact inductionHypothesis

theorem within (climbs : Climbs pass current results) : current.Within (settled results) := by
  induction climbs with
  | still => exact .refl _
  | grown _ strictly later inductionHypothesis =>
    rw [later.settled_cons]
    exact strictly.toWithin.trans inductionHypothesis

/-- Passes stop by themselves if there are rounds for them. -/
theorem passes_eq (climbs : Climbs pass current results) {rounds : Nat}
    (enough : results.length ≤ rounds) : passes pass rounds current = .ok results := by
  induction climbs generalizing rounds with
  | still unchanged =>
    obtain ⟨before, rfl⟩ := Nat.exists_eq_add_one_of_ne_zero (Nat.ne_zero_of_lt enough)
    rw [passes, unchanged]
    exact if_pos rfl
  | @grown current next results passed strictly later inductionHypothesis =>
    obtain ⟨before, rfl⟩ := Nat.exists_eq_add_one_of_ne_zero (Nat.ne_zero_of_lt enough)
    have moved : next ≠ current := fun same =>
      absurd (same ▸ strictly.volume_lt) (Nat.lt_irrefl _)
    rw [passes, passed]
    show (if next = current then pure [next] else _) = _
    rw [if_neg moved, inductionHypothesis (Nat.le_of_succ_le_succ enough)]
    rfl

end Climbs

/-- With a bound on the volume, growing passes settle: each of them adds to the volume but for
the last. -/
theorem passes_climb {pass : SetMap → Except Fault SetMap} {limit : Nat} {current : SetMap}
    (grows : ∀ sets, Keeps sets → ∃ next, pass sets = .ok next ∧ Keeps next ∧ sets.Within next)
    (bounded : ∀ sets, Keeps sets → sets.volume ≤ limit) (keeps : Keeps current) :
    ∃ results, Climbs pass current results ∧ Keeps (settled results) ∧
      results.length + current.volume ≤ limit + 1 := by
  obtain ⟨next, passed, nextKeeps, within⟩ := grows current keeps
  have room := bounded current keeps
  rcases within.eq_or_strictlyWithin with rfl | strictly
  · exact ⟨[next], .still passed, keeps, by rw [List.length_singleton]; omega⟩
  · have more := strictly.volume_lt
    have nextRoom := bounded next nextKeeps
    obtain ⟨results, later, finalKeeps, short⟩ := passes_climb grows bounded nextKeeps
    refine ⟨next :: results, .grown passed strictly later, ?_, ?_⟩
    · rw [later.settled_cons]
      exact finalKeeps
    · rw [List.length_cons]
      omega
termination_by limit - current.volume

end Passes

end SetMap

end ShiftReduce
