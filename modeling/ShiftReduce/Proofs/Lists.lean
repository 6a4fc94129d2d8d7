/-
This file proves what the development needs to know of lists in general: what stands at a place of a
list, in what order the members of a list first occur, how a list is cut into pieces and put
together from parts, and what visiting its elements one after another gives when a visit can fail.
-/

import Mathlib.Data.List.Basic
import Mathlib.Logic.Function.Defs
import ShiftReduce.Fault

namespace ShiftReduce

/-! ### Places -/

section Places

variable {Element : Type}

/-- A symbol of two joined lists stands in one of them. -/
theorem append_eq_append_cons_iff {left right before after : List Element}
    {element : Element} :
    left ++ right = before ++ element :: after ↔
      (∃ rest, left = before ++ element :: rest ∧ after = rest ++ right) ∨
        ∃ front, before = left ++ front ∧ right = front ++ element :: after := by
  rw [List.append_eq_append_iff]
  constructor
  · rintro (inRight | ⟨rest, rfl, same⟩)
    · exact .inr inRight
    · cases rest with
      | nil => exact .inr ⟨[], (List.append_nil _).symm.trans (List.append_nil _).symm, same.symm⟩
      | cons first rest =>
        obtain ⟨rfl, rfl⟩ := List.cons.inj same
        exact .inl ⟨rest, rfl, rfl⟩
  · rintro (⟨rest, rfl, rfl⟩ | inRight)
    · exact .inr ⟨element :: rest, rfl, rfl⟩
    · exact .inl inRight

/-- A beginning without an element goes no further than up to that element. -/
theorem prefix_of_not_mem {part list others : List Element} {element : Element}
    (absent : element ∉ part) (front : part <+: list ++ element :: others) : part <+: list := by
  have upTo : list ++ [element] <+: list ++ element :: others :=
    (List.prefix_append_right_inj list).mpr (List.prefix_append [element] others)
  have outside : ¬ list ++ [element] <+: part := fun longer =>
    absent (longer.subset List.mem_concat_self)
  rcases List.prefix_or_prefix_of_prefix front upTo with inside | longer
  · exact (List.prefix_concat_iff.mp inside).resolve_left fun same =>
      outside (same ▸ List.prefix_rfl)
  · exact absurd longer outside

/-- A place in a list with one more entry is a place of the list or the last one. -/
theorem getElem?_concat_cases {list : List Element} {last element : Element} {place : Nat}
    (found : (list ++ [last])[place]? = some element) :
    list[place]? = some element ∨ place = list.length ∧ element = last := by
  rcases Nat.lt_or_ge place list.length with old | new
  · rw [List.getElem?_append_left old] at found
    exact .inl found
  · have inside := (List.getElem?_eq_some_iff.mp found).1
    rw [List.length_append, List.length_singleton] at inside
    obtain rfl : place = list.length := by omega
    rw [List.getElem?_concat_length, Option.some_inj] at found
    exact .inr ⟨rfl, found.symm⟩

/-- Of lists joined together, what only one of them has is filtered from that one. -/
theorem filter_flatMap_of_getElem? {Result : Type} {list : List Element} {place : Nat}
    {element : Element} (found : list[place]? = some element) (visit : Element → List Result)
    {keeps : Result → Bool} (others : ∀ (index : Nat) (other : Element),
      list[index]? = some other → index ≠ place → ∀ result ∈ visit other, ¬ keeps result = true) :
    (list.flatMap visit).filter keeps = (visit element).filter keeps := by
  induction list generalizing place with
  | nil => cases found
  | cons first rest inductionHypothesis =>
    rw [List.flatMap_cons, List.filter_append]
    cases place with
    | zero =>
      have dropped : (rest.flatMap visit).filter keeps = [] := by
        refine List.filter_eq_nil_iff.mpr fun result inside => ?_
        obtain ⟨other, member, visited⟩ := List.mem_flatMap.mp inside
        obtain ⟨index, placed⟩ := List.getElem?_of_mem member
        exact others (index + 1) other placed (Nat.succ_ne_zero index) result visited
      rw [Option.some_inj.mp found, dropped, List.append_nil]
    | succ place =>
      have dropped : (visit first).filter keeps = [] :=
        List.filter_eq_nil_iff.mpr (others 0 first rfl (Nat.succ_ne_zero place).symm)
      rw [dropped, List.nil_append]
      exact inductionHypothesis found fun index other placed apart =>
        others (index + 1) other placed fun same => apart (Nat.succ_inj.mp same)

/-- Where each index has a value, there is a list of values beside the indices. -/
theorem exists_aligned {Index Value : Type} {Related : Index → Value → Prop}
    {indices : List Index} (each : ∀ index ∈ indices, ∃ value, Related index value) :
    ∃ values : List Value, indices.length = values.length ∧
      ∀ pair ∈ indices.zip values, Related pair.1 pair.2 := by
  induction indices with
  | nil => exact ⟨[], rfl, fun _ member => absurd member List.not_mem_nil⟩
  | cons index rest inductionHypothesis =>
    obtain ⟨⟨value, here⟩, later⟩ := List.forall_mem_cons.mp each
    obtain ⟨values, aligned, others⟩ := inductionHypothesis later
    exact ⟨value :: values, congrArg Nat.succ aligned, List.forall_mem_cons.mpr ⟨here, others⟩⟩

end Places

/-! ### First occurrences -/

section Occurrences

variable {Element : Type} [BEq Element] [LawfulBEq Element] {list : List Element}
  {first second : Element}

theorem idxOf_lt_of_filter {wanted : Element → Bool} (firstWanted : wanted first = true)
    (secondWanted : wanted second = true)
    (before : (list.filter wanted).idxOf first < (list.filter wanted).idxOf second) :
    list.idxOf first < list.idxOf second := by
  induction list with
  | nil => exact absurd before (Nat.lt_irrefl _)
  | cons element rest inductionHypothesis =>
    by_cases kept : wanted element = true
    · rw [List.filter_cons_of_pos kept] at before
      by_cases here : element = first
      · rw [List.idxOf_cons_eq _ here] at before ⊢
        have other : element ≠ second := fun same => by
          rw [List.idxOf_cons_eq _ same] at before
          exact Nat.lt_irrefl _ before
        rw [List.idxOf_cons_ne _ other]
        exact Nat.succ_pos _
      · have other : element ≠ second := fun same => by
          rw [List.idxOf_cons_eq _ same] at before
          exact Nat.not_lt_zero _ before
        rw [List.idxOf_cons_ne _ here, List.idxOf_cons_ne _ other] at before ⊢
        exact Nat.succ_lt_succ (inductionHypothesis (Nat.lt_of_succ_lt_succ before))
    · rw [List.filter_cons_of_neg kept] at before
      have passed {other : Element} (otherWanted : wanted other = true) : element ≠ other :=
        fun same => kept (same ▸ otherWanted)
      rw [List.idxOf_cons_ne _ (passed firstWanted), List.idxOf_cons_ne _ (passed secondWanted)]
      exact Nat.succ_lt_succ (inductionHypothesis before)

/-- Without its repetitions, a list is in the order in which its members first occur. -/
theorem pairwise_eraseDups (list : List Element) :
    list.eraseDups.Pairwise fun first second => list.idxOf first < list.idxOf second := by
  match list with
  | [] => exact List.Pairwise.nil
  | element :: rest =>
    have shorter := List.length_filter_le (fun other => !other == element) rest
    have fresh {other : Element}
        (member : other ∈ (rest.filter fun other => !other == element).eraseDups) :
        (!other == element) = true := (List.mem_filter.mp (List.mem_eraseDups.mp member)).2
    have apart {other : Element} (unequal : (!other == element) = true) : element ≠ other := by
      rintro rfl
      rw [beq_self_eq_true] at unequal
      cases unequal
    rw [List.eraseDups_cons, List.pairwise_cons]
    constructor
    · intro other member
      rw [List.idxOf_cons_self, List.idxOf_cons_ne _ (apart (fresh member))]
      exact Nat.succ_pos _
    · refine (pairwise_eraseDups _).imp_of_mem fun {one other} oneMember otherMember before => ?_
      rw [List.idxOf_cons_ne _ (apart (fresh oneMember)),
        List.idxOf_cons_ne _ (apart (fresh otherMember))]
      exact Nat.succ_lt_succ (idxOf_lt_of_filter (fresh oneMember) (fresh otherMember) before)
termination_by list.length

theorem nodup_eraseDups (list : List Element) : list.eraseDups.Nodup :=
  (pairwise_eraseDups list).imp fun before => ne_of_apply_ne list.idxOf (Nat.ne_of_lt before)

section Renamed

variable {Result : Type} [BEq Result] [LawfulBEq Result] {change : Element → Result}

theorem contains_map (injective : Function.Injective change) (list : List Element)
    (element : Element) : (list.map change).contains (change element) = list.contains element := by
  simp only [List.contains_map, injective.beq_eq, List.any_beq]

theorem eraseDups_map (injective : Function.Injective change) (list : List Element) :
    (list.map change).eraseDups = list.eraseDups.map change := by
  match list with
  | [] => rfl
  | first :: rest =>
    have shorter := List.length_filter_le (fun other => !other == first) rest
    have kept : (rest.map change).filter (fun other => !other == change first) =
        (rest.filter fun other => !other == first).map change := by
      rw [List.filter_map]
      refine congrArg (List.map change) (List.filter_congr fun other _ => ?_)
      exact congrArg Bool.not injective.beq_eq
    rw [List.map_cons, List.eraseDups_cons, List.eraseDups_cons, List.map_cons, kept,
      eraseDups_map injective (rest.filter fun other => !other == first)]
termination_by list.length

end Renamed

end Occurrences

/-! ### Parts by a key -/

/-- The parts of a list by a key, for all keys one after another, make up the list. -/
theorem perm_flatMap_filter {Element Key : Type} [DecidableEq Key] (key : Element → Key)
    {keys : List Key} (distinct : keys.Nodup) {list : List Element}
    (covered : ∀ element ∈ list, key element ∈ keys) :
    (keys.flatMap fun wanted => list.filter fun element => key element == wanted).Perm list := by
  induction keys generalizing list with
  | nil =>
    cases list with
    | nil => exact .nil
    | cons element _ => exact absurd (covered element List.mem_cons_self) List.not_mem_nil
  | cons first rest inductionHypothesis =>
    obtain ⟨absent, distinctRest⟩ := List.nodup_cons.mp distinct
    have others : ∀ element ∈ list.filter fun element => !key element == first,
        key element ∈ rest := by
      intro element member
      obtain ⟨inside, unequal⟩ := List.mem_filter.mp member
      rcases List.mem_cons.mp (covered element inside) with same | later
      · rw [same, beq_self_eq_true] at unequal
        cases unequal
      · exact later
    have same : ∀ wanted ∈ rest, (list.filter fun element => key element == wanted) =
        (list.filter fun element => !key element == first).filter
          fun element => key element == wanted := by
      intro wanted member
      rw [List.filter_filter]
      refine List.filter_congr fun element _ => ?_
      by_cases found : key element = wanted
      · have other : wanted ≠ first := fun equal => absent (equal ▸ member)
        rw [found, beq_self_eq_true, beq_false_of_ne other]
        rfl
      · rw [beq_false_of_ne found]
        rfl
    rw [List.flatMap_cons, List.flatMap_congr same]
    exact ((inductionHypothesis distinctRest others).append_left _).trans
      (List.filter_append_perm _ list)

/-! ### Pieces of a list -/

/-- The pieces of a list are parts of it without the elements it was cut at, and the first piece
is its beginning. -/
theorem splitOnP_pieces {Element : Type} (cut : Element → Bool) (list : List Element) :
    ∃ first later, list.splitOnP cut = first :: later ∧ first <+: list ∧
      ∀ piece ∈ first :: later, piece <:+: list ∧ ∀ element ∈ piece, cut element = false := by
  induction list with
  | nil =>
    refine ⟨[], [], List.splitOnP_nil, List.prefix_rfl, fun piece member => ?_⟩
    rw [List.mem_singleton.mp member]
    exact ⟨List.infix_rfl, fun _ none => absurd none List.not_mem_nil⟩
  | cons element rest inductionHypothesis =>
    obtain ⟨first, later, same, front, each⟩ := inductionHypothesis
    rw [List.splitOnP_cons_eq_if_modifyHead, same]
    cases here : cut element with
    | true =>
      refine ⟨[], first :: later, if_pos rfl, List.nil_prefix, fun piece member => ?_⟩
      rcases List.mem_cons.mp member with rfl | inside
      · exact ⟨List.nil_infix, fun _ none => absurd none List.not_mem_nil⟩
      · exact ⟨(each piece inside).1.trans (List.suffix_cons element rest).isInfix,
          (each piece inside).2⟩
    | false =>
      have longer : element :: first <+: element :: rest := (List.prefix_cons_inj element).mpr front
      refine ⟨element :: first, later, if_neg Bool.false_ne_true, longer, fun piece member => ?_⟩
      rcases List.mem_cons.mp member with rfl | inside
      · exact ⟨longer.isInfix, List.forall_mem_cons.mpr
          ⟨here, (each first List.mem_cons_self).2⟩⟩
      · have known := each piece (List.mem_cons_of_mem _ inside)
        exact ⟨known.1.trans (List.suffix_cons element rest).isInfix, known.2⟩

/-- What is put behind a list without an element to cut at lengthens its last piece. -/
theorem splitOnP_append {Element : Type} (cut : Element → Bool) (list : List Element) :
    ∃ before last, ∀ more : List Element, (∀ element ∈ more, cut element = false) →
      (list ++ more).splitOnP cut = before ++ [last ++ more] := by
  induction list with
  | nil => exact ⟨[], [], fun more solid => List.splitOnP_eq_singleton solid⟩
  | cons element rest inductionHypothesis =>
    obtain ⟨before, last, each⟩ := inductionHypothesis
    cases here : cut element with
    | true =>
      refine ⟨[] :: before, last, fun more solid => ?_⟩
      rw [List.cons_append, List.splitOnP_cons_eq_if_modifyHead, if_pos here, each more solid]
      rfl
    | false =>
      have step (more : List Element) (solid : ∀ element ∈ more, cut element = false) :
          (element :: rest ++ more).splitOnP cut =
            (before ++ [last ++ more]).modifyHead (List.cons element) := by
        rw [List.cons_append, List.splitOnP_cons_eq_if_modifyHead,
          if_neg (by rw [here]; exact Bool.false_ne_true), each more solid]
      cases before with
      | nil => exact ⟨[], element :: last, step⟩
      | cons first later => exact ⟨(element :: first) :: later, last, step⟩

theorem eq_or_exists_of_mem_intercalate {Element : Type} {separator element : Element}
    {pieces : List (List Element)} (inside : element ∈ [separator].intercalate pieces) :
    element = separator ∨ ∃ piece ∈ pieces, element ∈ piece := by
  induction pieces with
  | nil => cases inside
  | cons piece rest inductionHypothesis =>
    cases rest with
    | nil =>
      rw [List.intercalate_singleton] at inside
      exact .inr ⟨piece, List.mem_cons_self, inside⟩
    | cons next others =>
      rw [List.intercalate_cons_cons, List.mem_append, List.mem_append] at inside
      rcases inside with (here | between) | later
      · exact .inr ⟨piece, List.mem_cons_self, here⟩
      · exact .inl (List.mem_singleton.mp between)
      · refine (inductionHypothesis later).imp_right ?_
        rintro ⟨other, member, found⟩
        exact ⟨other, List.mem_cons_of_mem _ member, found⟩

/-! ### Visits that can fail -/

section Visits

variable {Error Element Result State Twin TwinElement TwinResult : Type}
  {change : Element → TwinElement}

/-- Where every visit succeeds, visiting all succeeds and gives their results. -/
theorem exists_mapM {list : List Element}
    (visit : Element → Except Error Result)
    (each : ∀ element ∈ list, ∃ result, visit element = .ok result) :
    ∃ results, list.mapM visit = .ok results ∧ list.map visit = results.map .ok := by
  induction list with
  | nil => exact ⟨[], rfl, rfl⟩
  | cons element rest inductionHypothesis =>
    obtain ⟨result, visited⟩ := each element List.mem_cons_self
    obtain ⟨results, done, same⟩ :=
      inductionHypothesis fun other member => each other (List.mem_cons_of_mem _ member)
    refine ⟨result :: results, ?_, ?_⟩
    · rw [List.mapM_cons, visited, done]
      rfl
    · rw [List.map_cons, List.map_cons, visited, same]

/-- Where every visit succeeds, the results stand at the places of their elements. -/
theorem getElem?_of_map_ok {list : List Element} {results : List Result}
    {visit : Element → Except Error Result} (same : list.map visit = results.map .ok)
    {number : Nat} {result : Result} :
    results[number]? = some result ↔
      ∃ element, list[number]? = some element ∧ visit element = .ok result := by
  have visited := congrArg (fun outcomes => outcomes[number]?) same
  simp only [List.getElem?_map] at visited
  constructor
  · intro found
    rw [found] at visited
    exact Option.map_eq_some_iff.mp visited
  · rintro ⟨element, found, reached⟩
    rw [found, Option.map_some, reached] at visited
    obtain ⟨other, otherFound, equal⟩ := Option.map_eq_some_iff.mp visited.symm
    rw [otherFound, Except.ok.inj equal]

/-- Reading what stands beside some values gives what is read for these. -/
theorem mapM_aligned {Index Value : Type} {read : Index → Except Error Result}
    (result : Value → Result) {indices : List Index} {values : List Value}
    (aligned : indices.length = values.length)
    (each : ∀ pair ∈ indices.zip values, read pair.1 = .ok (result pair.2)) :
    indices.mapM read = .ok (values.map result) := by
  induction indices generalizing values with
  | nil =>
    rw [List.eq_nil_of_length_eq_zero aligned.symm]
    rfl
  | cons index rest inductionHypothesis =>
    obtain ⟨value, others, rfl⟩ := List.exists_cons_of_length_eq_add_one aligned.symm
    obtain ⟨here, later⟩ := List.forall_mem_cons.mp each
    rw [List.mapM_cons, here, inductionHypothesis (Nat.succ_inj.mp aligned) later]
    rfl

/-- Where every visit goes along with a change, so do the results of all visits. -/
theorem mapM_map {visit : Element → Except Error Result} {carry : Result → TwinResult}
    {other : TwinElement → Except Error TwinResult} {list : List Element}
    (each : ∀ element ∈ list, ∀ result, visit element = .ok result →
      other (change element) = .ok (carry result)) {results : List Result}
    (done : list.mapM visit = .ok results) :
    (list.map change).mapM other = .ok (results.map carry) := by
  induction list generalizing results with
  | nil =>
    rw [← Except.ok.inj done]
    rfl
  | cons element rest inductionHypothesis =>
    rw [List.mapM_cons] at done
    obtain ⟨result, visited, more⟩ := bind_eq_ok_iff.mp done
    obtain ⟨later, visitedLater, same⟩ := bind_eq_ok_iff.mp more
    rw [← Except.ok.inj same, List.map_cons, List.mapM_cons,
      each element List.mem_cons_self result visited,
      inductionHypothesis (fun other member => each other (List.mem_cons_of_mem _ member))
        visitedLater]
    rfl

theorem foldlM_map {visit : State → Element → Except Error State} {carry : State → Twin}
    {other : Twin → TwinElement → Except Error Twin} {list : List Element}
    (each : ∀ element ∈ list, ∀ before after, visit before element = .ok after →
      other (carry before) (change element) = .ok (carry after)) {start final : State}
    (done : list.foldlM visit start = .ok final) :
    (list.map change).foldlM other (carry start) = .ok (carry final) := by
  induction list generalizing start with
  | nil =>
    rw [← Except.ok.inj done]
    rfl
  | cons element rest inductionHypothesis =>
    rw [List.foldlM_cons] at done
    obtain ⟨next, visited, more⟩ := bind_eq_ok_iff.mp done
    rw [List.map_cons, List.foldlM_cons, each element List.mem_cons_self start next visited]
    exact inductionHypothesis (fun other member => each other (List.mem_cons_of_mem _ member)) more

end Visits

end ShiftReduce
