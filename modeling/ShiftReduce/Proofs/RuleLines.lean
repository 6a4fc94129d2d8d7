/-
This file proves that grammar text is read one line after another. What a line comes to depends on
the rule that is in force in front of it, and on nothing else: it may leave another rule in force
and spell heads and bodies, or be malformed. The number of the line is told in its fault alone. What
is read of some lines and of the lines behind them is what is read of all of them.
-/

import ShiftReduce.Proofs.LineBreaks
import ShiftReduce.Proofs.Printing

namespace ShiftReduce

namespace Grammar

/-! ### Separators -/

section Separators

variable {text before after : List Char}

/-- A text with a separator is split at the leftmost one. -/
theorem exists_splitRule (inside : ∃ separator ∈ separators, separator <:+: text) :
    ∃ before after, splitRule text = some (before, after) := by
  induction text with
  | nil =>
    obtain ⟨separator, listed, nothing⟩ := inside
    rw [List.infix_nil.mp nothing] at listed
    exact absurd listed (by decide)
  | cons character rest inductionHypothesis =>
    by_cases front : ∃ separator ∈ separators, separator <+: character :: rest
    · obtain ⟨separator, listed, starts⟩ := front
      obtain ⟨after, split⟩ := splitRule_of_separator listed starts
      exact ⟨[], after, split⟩
    · obtain ⟨separator, listed, part⟩ := inside
      have other : ∀ separator ∈ separators, ¬ separator <+: character :: rest :=
        fun separator listed starts => front ⟨separator, listed, starts⟩
      obtain ⟨before, after, split⟩ := inductionHypothesis
        ⟨separator, listed, (List.infix_cons_iff.mp part).resolve_left (other separator listed)⟩
      exact ⟨character :: before, after, by rw [splitRule_of_other other, split]; rfl⟩

theorem splitRule_eq_none (free : Unseparated text) : splitRule text = none := by
  induction text with
  | nil => rfl
  | cons character rest inductionHypothesis =>
    rw [splitRule_of_other fun separator listed front => free separator listed front.isInfix,
      inductionHypothesis (free.of_part (List.suffix_cons character rest).isInfix)]
    rfl

/-- What stands behind a text is behind its leftmost separator. A text that is split has a separator
of its own, so that none is completed by what stands behind it. -/
theorem splitRule_append_right (split : splitRule text = some (before, after)) (more : List Char) :
    splitRule (text ++ more) = some (before, after ++ more) := by
  induction text using splitRule.induct generalizing before with
  | case1 => cases split
  | case2 rest | case3 rest | case4 rest =>
    obtain ⟨rfl, rfl⟩ := Prod.mk.inj (Option.some_inj.mp split)
    rfl
  | case5 character rest arrow sign equals inductionHypothesis =>
    rw [splitRule.eq_5 character rest arrow sign equals] at split
    obtain ⟨⟨inner, later⟩, innerSplit, same⟩ := Option.map_eq_some_iff.mp split
    obtain ⟨rfl, rfl⟩ := Prod.mk.inj same
    rw [List.cons_append, splitRule.eq_5, inductionHypothesis innerSplit]
    · rfl
    · rintro others rfl begins
      cases rest with
      | nil => cases innerSplit
      | cons next => exact arrow _ rfl (congrArg (· :: _) (List.cons.inj begins).1)
    · exact sign
    · rintro others rfl begins
      rcases rest with _ | ⟨next, _ | ⟨last, rest⟩⟩
      · cases innerSplit
      · rw [(List.cons.inj begins).1] at innerSplit
        cases innerSplit
      · obtain ⟨rfl, more⟩ := List.cons.inj begins
        exact equals _ rfl (congrArg (_ :: · :: _) (List.cons.inj more).1)

end Separators

/-! ### The shape of a line -/

/-- A line that goes on with the rule in front of it. -/
def IsContinuation (line : List Char) : Prop :=
  (Text.trim line).head? = some '|'

/-- A line that begins a rule. -/
def IsRuleLine (line : List Char) : Prop :=
  ¬ IsContinuation line ∧ ∃ separator ∈ separators, separator <:+: Text.trim line

instance : DecidablePred IsContinuation := fun _ => inferInstanceAs (Decidable (_ = _))

instance : DecidablePred IsRuleLine := fun _ => inferInstanceAs (Decidable (_ ∧ _))

section Shapes

variable {line : List Char}

theorem IsContinuation.trim_eq (continues : IsContinuation line) :
    ∃ alternatives, Text.trim line = '|' :: alternatives :=
  List.head?_eq_some_iff.mp continues

theorem ofText_of_trim {alternatives : List Char} (same : Text.trim line = '|' :: alternatives) :
    Line.ofText line = .continuation alternatives := by
  rw [Line.ofText, same]
  rfl

theorem IsRuleLine.exists_split (begins : IsRuleLine line) :
    ∃ before after, splitRule (Text.trim line) = some (before, after) :=
  exists_splitRule begins.2

theorem ofText_of_split {before after : List Char} (barless : ¬ IsContinuation line)
    (split : splitRule (Text.trim line) = some (before, after)) :
    Line.ofText line = .rule before after := by
  rw [Line.ofText, ofTrimmed_of_head barless, split]

theorem ofText_of_other (barless : ¬ IsContinuation line) (other : ¬ IsRuleLine line) :
    Line.ofText line = .ignored := by
  have free : Unseparated (Text.trim line) := fun separator listed inside =>
    other ⟨barless, separator, listed, inside⟩
  rw [Line.ofText, ofTrimmed_of_head barless, splitRule_eq_none free]

end Shapes

/-! ### What a line comes to -/

/-- What lines come to: the rule that they leave in force, and the heads and bodies they spell. -/
structure Reading where
  last : Option Symbol
  rules : List (Symbol × List Symbol)

namespace Reading

/-- Nothing is spelled, and the rule in force stays so. -/
def silent (current : Option Symbol) : Reading :=
  ⟨current, []⟩

/-- The alternatives of one head are spelled. -/
def ofBodies (head : Symbol) (bodies : List (List Symbol)) : Reading :=
  ⟨some head, bodies.map fun body => (head, body)⟩

/-- Lines with others behind them. -/
def append (first second : Reading) : Reading :=
  ⟨second.last, first.rules ++ second.rules⟩

/-- Lines with others behind them, which read on with the rule that the first ones leave in force;
unless some of either are malformed. -/
def followedBy (first : Option Reading) (next : Option Symbol → Option Reading) :
    Option Reading :=
  first.bind fun reading => (next reading.last).map reading.append

theorem append_assoc (first second third : Reading) :
    (first.append second).append third = first.append (second.append third) :=
  congrArg (Reading.mk third.last) (List.append_assoc first.rules second.rules third.rules)

@[simp] theorem followedBy_silent (current : Option Symbol)
    (next : Option Symbol → Option Reading) :
    followedBy (some (silent current)) next = next current := by
  rw [followedBy, Option.bind_some]
  cases found : next (silent current).last with
  | none => exact found.symm
  | some reading => exact found.symm

theorem followedBy_assoc (first : Option Reading) (next more : Option Symbol → Option Reading) :
    followedBy (followedBy first next) more =
      followedBy first fun current => followedBy (next current) more := by
  rw [followedBy, followedBy, followedBy, Option.bind_assoc]
  refine Option.bind_congr fun one _ => ?_
  rw [followedBy, Option.bind_map, Option.map_bind]
  refine Option.bind_congr fun two _ => ?_
  rw [Function.comp_apply, Function.comp_apply, Option.map_map]
  exact Option.map_congr fun three _ => append_assoc one two three

/-- No reserved symbol is in force or spelled. -/
structure Plain (reading : Reading) : Prop where
  last : ∀ head ∈ reading.last, head ∉ Symbol.reserved
  heads : ∀ rule ∈ reading.rules, rule.1 ∉ Symbol.reserved
  bodies : ∀ rule ∈ reading.rules, ∀ symbol ∈ rule.2, symbol ∉ Symbol.reserved

theorem Plain.silent {current : Option Symbol} (known : ∀ head ∈ current, head ∉ Symbol.reserved) :
    (silent current).Plain :=
  ⟨known, fun _ none => absurd none List.not_mem_nil, fun _ none => absurd none List.not_mem_nil⟩

theorem Plain.ofBodies {head : Symbol} {bodies : List (List Symbol)}
    (known : head ∉ Symbol.reserved)
    (each : ∀ body ∈ bodies, ∀ symbol ∈ body, symbol ∉ Symbol.reserved) :
    (ofBodies head bodies).Plain where
  last _ same := Option.some_inj.mp same ▸ known
  heads rule member := by
    obtain ⟨_, _, rfl⟩ := List.mem_map.mp member
    exact known
  bodies rule member := by
    obtain ⟨body, inside, rfl⟩ := List.mem_map.mp member
    exact each body inside

theorem Plain.append {first second : Reading} (one : first.Plain) (other : second.Plain) :
    (first.append second).Plain :=
  ⟨other.last, List.forall_mem_append.mpr ⟨one.heads, other.heads⟩,
    List.forall_mem_append.mpr ⟨one.bodies, other.bodies⟩⟩

/-- What is spelled without reserved symbols makes a grammar. -/
theorem Plain.wellFormed {reading : Reading} (plain : reading.Plain) :
    WellFormed (numbered reading.rules) false where
  dense place production found := by
    rw [numbered, List.getElem?_map, List.getElem?_zipIdx, Option.map_map] at found
    obtain ⟨rule, _, rfl⟩ := Option.map_eq_some_iff.mp found
    exact congrArg Int.ofNat (Nat.zero_add place)
  heads production member := by
    obtain ⟨⟨rule, place⟩, inside, rfl⟩ := List.mem_map.mp member
    exact plain.heads rule (List.fst_mem_of_mem_zipIdx inside)
  bodies production member := by
    obtain ⟨⟨rule, place⟩, inside, rfl⟩ := List.mem_map.mp member
    exact plain.bodies rule (List.fst_mem_of_mem_zipIdx inside)
  started none := by cases none

end Reading

/-- What a line comes to, with a rule in force in front of it. -/
def readLine (number : Nat) (current : Option Symbol) (line : List Char) :
    Except GrammarFault Reading :=
  match Line.ofText line, current with
  | .continuation alternatives, some head => do
      let bodies ← readAlternatives number alternatives
      return Reading.ofBodies head bodies
  | .rule headText alternatives, _ => do
      let head ← readHead number headText
      let bodies ← readAlternatives number alternatives
      return Reading.ofBodies head bodies
  | _, _ => .ok (Reading.silent current)

/-- Lines are read by reading the first one and then those behind it. -/
theorem readLines_cons (number : Nat) (current : Option Symbol) (line : List Char)
    (rest : List (List Char)) :
    readLines number current (line :: rest) = do
      let reading ← readLine number current line
      let later ← readLines (number + 1) reading.last rest
      return reading.rules ++ later := by
  conv => lhs; unfold readLines
  unfold readLine
  cases Line.ofText line with
  | continuation alternatives =>
    cases current with
    | none => exact (bind_pure (readLines (number + 1) none rest)).symm
    | some head =>
      dsimp only
      cases readAlternatives number alternatives <;> rfl
  | rule headText alternatives =>
    dsimp only
    cases readHead number headText with
    | error => rfl
    | ok => cases readAlternatives number alternatives <;> rfl
  | ignored => exact (bind_pure (readLines (number + 1) current rest)).symm

/-- The bodies that alternatives spell, unless they are malformed. -/
def bodiesOf (text : List Char) : Option (List (List Symbol)) :=
  (readAlternatives 1 text).toOption

/-- The head in front of a separator, unless it is malformed. -/
def headOf (text : List Char) : Option Symbol :=
  (readHead 1 text).toOption

/-- What a line comes to, unless it is malformed. -/
def readingOf (current : Option Symbol) (line : List Char) : Option Reading :=
  (readLine 1 current line).toOption

section Numbers

variable (number : Nat) (text : List Char)

@[simp] theorem toOption_readAlternatives :
    (readAlternatives number text).toOption = bodiesOf text := by
  simp only [bodiesOf, readAlternatives]
  split <;> rfl

@[simp] theorem toOption_readHead : (readHead number text).toOption = headOf text := by
  simp only [headOf, readHead]
  split
  · split <;> rfl
  · rfl

/-- Whether a line is malformed does not depend on its number. -/
@[simp] theorem toOption_readLine (current : Option Symbol) (line : List Char) :
    (readLine number current line).toOption = readingOf current line := by
  unfold readingOf readLine
  cases Line.ofText line with
  | continuation alternatives =>
    cases current with
    | none => rfl
    | some head => simp only [toOption_bind, toOption_readAlternatives]
  | rule headText alternatives =>
    simp only [toOption_bind, toOption_readAlternatives, toOption_readHead]
  | ignored => rfl

end Numbers

section Readings

variable {line text before after : List Char} {current : Option Symbol} {head : Symbol}

theorem readingOf_of_trim {alternatives : List Char}
    (same : Text.trim line = '|' :: alternatives) (head : Symbol) :
    readingOf (some head) line = (bodiesOf alternatives).map (Reading.ofBodies head) := by
  unfold readingOf readLine
  rw [ofText_of_trim same]
  dsimp only
  rw [toOption_bind, toOption_readAlternatives]
  cases bodiesOf alternatives <;> rfl

/-- Without a rule in front of it a continuation comes to nothing. -/
theorem readingOf_none_of_continuation (continues : IsContinuation line) :
    readingOf none line = some (.silent none) := by
  obtain ⟨alternatives, same⟩ := continues.trim_eq
  unfold readingOf readLine
  rw [ofText_of_trim same]
  rfl

theorem readingOf_of_split (barless : ¬ IsContinuation line)
    (split : splitRule (Text.trim line) = some (before, after)) (current : Option Symbol) :
    readingOf current line =
      (headOf before).bind fun head => (bodiesOf after).map (Reading.ofBodies head) := by
  unfold readingOf readLine
  rw [ofText_of_split barless split]
  dsimp only
  rw [toOption_bind, toOption_readHead]
  refine Option.bind_congr fun head _ => ?_
  rw [toOption_bind, toOption_readAlternatives]
  cases bodiesOf after <;> rfl

theorem readingOf_of_other (barless : ¬ IsContinuation line) (other : ¬ IsRuleLine line)
    (current : Option Symbol) : readingOf current line = some (.silent current) := by
  unfold readingOf readLine
  rw [ofText_of_other barless other]
  rfl

theorem bodiesOf_eq (text : List Char) :
    bodiesOf text =
      if ((text.splitOn '|').map bodyOf).any fun body => body.contains Symbol.endMarker then none
      else some ((text.splitOn '|').map bodyOf) := by
  unfold bodiesOf readAlternatives
  dsimp only
  split <;> rfl

/-- A head that is read is not reserved. -/
theorem not_reserved_of_headOf (found : headOf text = some head) : head ∉ Symbol.reserved := by
  have read := toOption_eq_some_iff.mp found
  unfold readHead at read
  split at read
  · split at read
    · cases read
    · rename_i free
      rw [← Except.ok.inj read, ← Symbol.isReserved_iff]
      exact free
  · cases read

/-- Bodies that are read hold no reserved symbol. -/
theorem not_reserved_of_bodiesOf {bodies : List (List Symbol)}
    (found : bodiesOf text = some bodies) :
    ∀ body ∈ bodies, ∀ symbol ∈ body, symbol ∉ Symbol.reserved := by
  rw [bodiesOf_eq] at found
  split at found
  · cases found
  · rename_i unused
    rw [← Option.some_inj.mp found]
    intro body member symbol inside reserved
    rcases List.mem_cons.mp reserved with rfl | empty
    · exact unused (List.any_eq_true.mpr ⟨body, member, List.contains_iff_mem.mpr inside⟩)
    · obtain ⟨alternative, _, rfl⟩ := List.mem_map.mp member
      have kept := (List.mem_filter.mp inside).2
      rw [List.contains_iff_mem.mpr empty] at kept
      cases kept

/-- A line that is not malformed puts no reserved symbol in force and spells none. -/
theorem plain_of_readingOf {reading : Reading}
    (known : ∀ head ∈ current, head ∉ Symbol.reserved)
    (found : readingOf current line = some reading) : reading.Plain := by
  have spelled {head : Symbol} {text : List Char} (free : head ∉ Symbol.reserved)
      (read : (bodiesOf text).map (Reading.ofBodies head) = some reading) : reading.Plain := by
    obtain ⟨bodies, same, rfl⟩ := Option.map_eq_some_iff.mp read
    exact .ofBodies free (not_reserved_of_bodiesOf same)
  by_cases continues : IsContinuation line
  · cases current with
    | none =>
      rw [readingOf_none_of_continuation continues] at found
      exact Option.some_inj.mp found ▸ .silent known
    | some head =>
      obtain ⟨alternatives, same⟩ := continues.trim_eq
      rw [readingOf_of_trim same] at found
      exact spelled (known head rfl) found
  · by_cases begins : IsRuleLine line
    · obtain ⟨before, after, split⟩ := begins.exists_split
      rw [readingOf_of_split continues split] at found
      obtain ⟨head, named, read⟩ := Option.bind_eq_some_iff.mp found
      exact spelled (not_reserved_of_headOf named) read
    · rw [readingOf_of_other continues begins] at found
      exact Option.some_inj.mp found ▸ .silent known

end Readings

/-! ### What lines come to -/

/-- What lines come to one after another, unless one of them is malformed. -/
def readingsOf (current : Option Symbol) : List (List Char) → Option Reading
  | [] => some (.silent current)
  | line :: rest => Reading.followedBy (readingOf current line) fun head => readingsOf head rest

/-- What lines come to is what the first of them and then the others come to. -/
theorem readingsOf_append (current : Option Symbol) (first second : List (List Char)) :
    readingsOf current (first ++ second) =
      Reading.followedBy (readingsOf current first) fun head => readingsOf head second := by
  induction first generalizing current with
  | nil => exact (Reading.followedBy_silent current fun head => readingsOf head second).symm
  | cons line rest inductionHypothesis =>
    rw [List.cons_append, readingsOf, readingsOf, Reading.followedBy_assoc]
    exact congrArg (Reading.followedBy _) (funext inductionHypothesis)

/-- The lines are read as what they come to, whatever their numbers are. -/
@[simp] theorem toOption_readLines (number : Nat) (current : Option Symbol)
    (lines : List (List Char)) :
    (readLines number current lines).toOption = (readingsOf current lines).map Reading.rules := by
  induction lines generalizing number current with
  | nil => rfl
  | cons line rest inductionHypothesis =>
    rw [readLines_cons, toOption_bind, toOption_readLine, readingsOf, Reading.followedBy,
      Option.map_bind]
    refine Option.bind_congr fun reading _ => ?_
    rw [Function.comp_apply, toOption_bind, inductionHypothesis]
    cases readingsOf reading.last rest <;> rfl

theorem plain_of_readingsOf {current : Option Symbol} {lines : List (List Char)}
    {reading : Reading} (known : ∀ head ∈ current, head ∉ Symbol.reserved)
    (found : readingsOf current lines = some reading) : reading.Plain := by
  induction lines generalizing current reading with
  | nil => exact Option.some_inj.mp found ▸ .silent known
  | cons line rest inductionHypothesis =>
    obtain ⟨first, here, others⟩ := Option.bind_eq_some_iff.mp found
    obtain ⟨later, further, rfl⟩ := Option.map_eq_some_iff.mp others
    have plain := plain_of_readingOf known here
    exact plain.append (inductionHypothesis plain.last further)

/-! ### Texts -/

/-- The heads and bodies that the lines of a text spell, unless one of them is malformed. -/
def spelled (text : List Char) : Option (List (Symbol × List Symbol)) :=
  (readingsOf none (Text.splitLines text)).map Reading.rules

section Texts

variable {text : String} {grammar : Grammar}

theorem toOption_read (text : String) :
    (read text).toOption = (spelled text.toList).bind fun rules =>
      (ofProductions (numbered rules) false).toOption := by
  rw [read, toOption_bind, toOption_readLines]
  rfl

theorem read_eq_ok_iff :
    read text = .ok grammar ↔ ∃ rules, spelled text.toList = some rules ∧
      grammar.productions = numbered rules ∧ grammar.augmented = false := by
  rw [← toOption_eq_some_iff, toOption_read, Option.bind_eq_some_iff]
  refine exists_congr fun rules => and_congr_right fun _ => ?_
  simp [ofProductions_eq_ok_iff]

/-- A text is rejected only if one of its lines is malformed. -/
theorem exists_read_iff :
    (∃ grammar, read text = .ok grammar) ↔ ∃ rules, spelled text.toList = some rules := by
  constructor
  · rintro ⟨grammar, found⟩
    obtain ⟨rules, same, _⟩ := read_eq_ok_iff.mp found
    exact ⟨rules, same⟩
  · rintro ⟨rules, found⟩
    obtain ⟨reading, lines, rfl⟩ := Option.map_eq_some_iff.mp found
    have plain : reading.Plain := plain_of_readingsOf (fun _ none => by cases none) lines
    exact ⟨⟨numbered reading.rules, false, plain.wellFormed⟩,
      read_eq_ok_iff.mpr ⟨_, found, rfl, rfl⟩⟩

end Texts

end Grammar

end ShiftReduce
