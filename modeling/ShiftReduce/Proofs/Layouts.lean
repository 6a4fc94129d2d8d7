/-
This file proves that the layout of grammar text does not matter. If every continuation of a text
has a rule line in front of it in the text itself, the text may be put behind any other, and both
are read as they are read alone. And a continuation may stand on the line that it goes on with: a
space, and nothing else, then separates the alternatives of the two lines.
-/

import ShiftReduce.Proofs.RuleLines

namespace ShiftReduce

namespace Grammar

/-! ### Lines with rules of their own -/

/-- Every continuation has a rule line in front of it. -/
def Headed (lines : List (List Char)) : Prop :=
  ∀ before line after, lines = before ++ line :: after → IsContinuation line →
    ∃ earlier ∈ before, IsRuleLine earlier

section Headed

variable {line : List Char} {lines : List (List Char)}

theorem Headed.not_isContinuation (headed : Headed (line :: lines)) : ¬ IsContinuation line := by
  intro continues
  obtain ⟨_, member, _⟩ := headed [] line lines rfl continues
  cases member

theorem Headed.of_cons (headed : Headed (line :: lines)) (other : ¬ IsRuleLine line) :
    Headed lines := by
  rintro before next after rfl continues
  obtain ⟨earlier, member, begins⟩ := headed (line :: before) next after rfl continues
  rcases List.mem_cons.mp member with rfl | inside
  · exact absurd begins other
  · exact ⟨earlier, inside, begins⟩

theorem headed_of_isRuleLine (begins : IsRuleLine line) (lines : List (List Char)) :
    Headed (line :: lines) := by
  intro before next after split continues
  cases before with
  | nil =>
    rw [← (List.cons.inj split).1] at continues
    exact absurd continues begins.1
  | cons first others => exact ⟨first, List.mem_cons_self, (List.cons.inj split).1 ▸ begins⟩

/-- Such lines do not go on with a rule in front of them. -/
theorem Headed.readingsOf_eq (headed : Headed lines) (current : Option Symbol) :
    (readingsOf current lines).map Reading.rules = (readingsOf none lines).map Reading.rules := by
  induction lines generalizing current with
  | nil => rfl
  | cons line rest inductionHypothesis =>
    have barless := headed.not_isContinuation
    by_cases begins : IsRuleLine line
    · obtain ⟨before, after, split⟩ := begins.exists_split
      rw [readingsOf, readingsOf, readingOf_of_split barless split,
        readingOf_of_split barless split]
    · have same (head : Option Symbol) : readingsOf head (line :: rest) = readingsOf head rest := by
        simp [readingsOf, readingOf_of_other barless begins]
      rw [same, same, inductionHypothesis (headed.of_cons begins) current]

theorem readingsOf_of_empty (empty : ∀ line ∈ lines, line = []) (current : Option Symbol) :
    readingsOf current lines = some (.silent current) := by
  induction lines with
  | nil => rfl
  | cons line rest inductionHypothesis =>
    obtain ⟨rfl, others⟩ := List.forall_mem_cons.mp empty
    rw [readingsOf, readingOf_of_other (by decide) (by decide), Reading.followedBy_silent,
      inductionHypothesis others]

/-- A text in front of such lines, and a line feed between them. -/
theorem spelled_append_newline {first second : List Char}
    (headed : Headed (Text.splitLines second)) :
    spelled (first ++ '\n' :: second) = (spelled first).bind fun rules =>
      (spelled second).map fun later => rules ++ later := by
  obtain ⟨gap, joined, empty⟩ := Text.splitLines_append_newline first second
  have behind (head : Option Symbol) :
      readingsOf head (gap ++ Text.splitLines second) =
        readingsOf head (Text.splitLines second) := by
    simp [readingsOf_append, readingsOf_of_empty empty]
  rw [spelled, joined, readingsOf_append, Reading.followedBy, Option.map_bind, spelled,
    Option.bind_map]
  refine Option.bind_congr fun reading _ => ?_
  rw [Function.comp_apply, Function.comp_apply, behind, spelled,
    ← headed.readingsOf_eq reading.last, Option.map_map, Option.map_map]
  rfl

end Headed

/-! ### Texts behind each other -/

/-- The production with its id moved on by a number. -/
def movedBy (count : Nat) (production : Production) : Production :=
  { production with id := production.id + count }

theorem numbered_append (first second : List (Symbol × List Symbol)) :
    numbered (first ++ second) =
      numbered first ++ (numbered second).map (movedBy first.length) := by
  rw [numbered, List.zipIdx_append, List.map_append]
  refine congrArg (numbered first ++ ·) ?_
  rw [List.zipIdx_eq_map_add, List.map_map, numbered, List.map_map]
  refine List.map_congr_left fun placed _ => congrArg (Production.mk · placed.1.1 placed.1.2) ?_
  show ((0 + first.length + placed.2 : Nat) : Int) = placed.2 + first.length
  omega

/-- A text whose continuations have rules of their own can be put behind another. -/
theorem read_append_newline {first second : String}
    (headed : Headed (Text.splitLines second.toList)) :
    ((∃ joined, read (first ++ "\n" ++ second) = .ok joined) ↔
      (∃ one, read first = .ok one) ∧ ∃ other, read second = .ok other) ∧
    ∀ joined one other, read (first ++ "\n" ++ second) = .ok joined → read first = .ok one →
      read second = .ok other → joined.augmented = false ∧
        joined.productions = one.productions ++ other.productions.map (movedBy one.size) := by
  have characters : (first ++ "\n" ++ second).toList = first.toList ++ '\n' :: second.toList := by
    rw [String.toList_append, String.toList_append, List.append_assoc]
    rfl
  have joins : spelled (first ++ "\n" ++ second).toList = _ :=
    characters ▸ spelled_append_newline headed
  constructor
  · rw [exists_read_iff, exists_read_iff, exists_read_iff, joins]
    cases spelled first.toList <;> cases spelled second.toList <;> simp
  · intro joined one other joinedRead oneRead otherRead
    obtain ⟨rules, found, same, plain⟩ := read_eq_ok_iff.mp joinedRead
    obtain ⟨oneRules, oneFound, oneSame, _⟩ := read_eq_ok_iff.mp oneRead
    obtain ⟨otherRules, otherFound, otherSame, _⟩ := read_eq_ok_iff.mp otherRead
    rw [joins, oneFound, otherFound] at found
    obtain rfl := Option.some_inj.mp found
    refine ⟨plain, ?_⟩
    rw [same, oneSame, otherSame, numbered_append, size, oneSame, numbered, List.length_map,
      List.length_zipIdx]

/-! ### Continuations on the line in front of them -/

section Joined

variable {line next : List Char}

/-- Blanks at the end of an alternative are not part of its body. -/
theorem bodyOf_append_blanks {blanks : List Char}
    (blank : ∀ character ∈ blanks, Text.isBlank character = true) (text : List Char) :
    bodyOf (text ++ blanks) = bodyOf text := by
  rw [bodyOf, symbolsOf, Text.runs_append_blanks blank]
  rfl

/-- Alternatives with a bar and blanks between them. -/
theorem bodies_append {gap : List Char}
    (blank : ∀ character ∈ gap, Text.isBlank character = true) (text more : List Char) :
    ((text ++ (gap ++ '|' :: more)).splitOn '|').map bodyOf =
      (text.splitOn '|').map bodyOf ++ (more.splitOn '|').map bodyOf := by
  obtain ⟨before, last, each⟩ := splitOnP_append (fun character => character == '|') text
  have barless : ∀ character ∈ gap, (character == '|') = false := by
    intro character inside
    refine beq_false_of_ne fun bar => ?_
    rw [bar] at inside
    exact absurd (blank '|' inside) (by decide)
  have alone := each [] fun _ none => absurd none List.not_mem_nil
  rw [List.append_nil, List.append_nil] at alone
  have behind : (text ++ gap ++ '|' :: more).splitOnP (fun character => character == '|') =
      (text ++ gap).splitOnP (fun character => character == '|') ++
        more.splitOnP fun character => character == '|' :=
    List.splitOnP_append_cons _ _ (beq_self_eq_true '|')
  rw [List.splitOn_eq_splitOnP, List.splitOn_eq_splitOnP, List.splitOn_eq_splitOnP,
    ← List.append_assoc, behind, each gap barless, alone, List.map_append, List.map_append,
    List.map_append, List.map_singleton, List.map_singleton, bodyOf_append_blanks blank]

theorem bodiesOf_append {gap : List Char}
    (blank : ∀ character ∈ gap, Text.isBlank character = true) (text more : List Char) :
    bodiesOf (text ++ (gap ++ '|' :: more)) = (bodiesOf text).bind fun bodies =>
      (bodiesOf more).map fun later => bodies ++ later := by
  rw [bodiesOf_eq, bodiesOf_eq, bodiesOf_eq, bodies_append blank, List.any_append]
  cases ((text.splitOn '|').map bodyOf).any fun body => body.contains Symbol.endMarker <;>
    cases ((more.splitOn '|').map bodyOf).any fun body => body.contains Symbol.endMarker <;> rfl

/-- What stands behind a bar adds what a continuation adds that holds the same. -/
theorem ofBodies_append {gap more : List Char}
    (blank : ∀ character ∈ gap, Text.isBlank character = true)
    (same : Text.trim next = '|' :: more) (head : Symbol) (text : List Char) :
    (bodiesOf (text ++ (gap ++ '|' :: more))).map (Reading.ofBodies head) =
      Reading.followedBy ((bodiesOf text).map (Reading.ofBodies head)) fun last =>
        readingOf last next := by
  rw [bodiesOf_append blank]
  cases bodiesOf text with
  | none => rfl
  | some bodies =>
    show _ = (readingOf (some head) next).map (Reading.ofBodies head bodies).append
    rw [Option.bind_some, readingOf_of_trim same, Option.map_map, Option.map_map]
    refine Option.map_congr fun later _ => ?_
    exact congrArg (Reading.mk (some head)) List.map_append

/-- A continuation on the line in front of it comes to the same as behind that line. The joined line
begins as before, so it is of the same shape and only has more bodies. -/
theorem readingOf_append (follows : IsContinuation line ∨ IsRuleLine line)
    (continues : IsContinuation next) (current : Option Symbol) :
    readingOf current (line ++ ' ' :: Text.trim next) =
      Reading.followedBy (readingOf current line) fun head => readingOf head next := by
  obtain ⟨more, nextSame⟩ := continues.trim_eq
  have nonempty : Text.trim line ≠ [] := by
    intro empty
    rcases follows with lineContinues | begins
    · rw [IsContinuation, empty] at lineContinues
      cases lineContinues
    · obtain ⟨_, _, split⟩ := begins.exists_split
      rw [empty] at split
      cases split
  obtain ⟨gap, blank, joined⟩ :=
    Text.trim_append_space nonempty (nextSame ▸ List.cons_ne_nil _ _ : Text.trim next ≠ [])
  rw [nextSame] at joined ⊢
  rcases follows with lineContinues | begins
  · obtain ⟨alternatives, lineSame⟩ := lineContinues.trim_eq
    rw [lineSame, List.cons_append] at joined
    cases current with
    | none =>
      rw [readingOf_none_of_continuation (List.head?_eq_some_iff.mpr ⟨_, joined⟩),
        readingOf_none_of_continuation lineContinues, Reading.followedBy_silent,
        readingOf_none_of_continuation continues]
    | some head =>
      rw [readingOf_of_trim joined, readingOf_of_trim lineSame, ofBodies_append blank nextSame]
  · obtain ⟨before, after, split⟩ := begins.exists_split
    have barless : ¬ IsContinuation (line ++ ' ' :: '|' :: more) := by
      intro bar
      rw [IsContinuation, joined, List.head?_append_of_ne_nil _ nonempty] at bar
      exact begins.1 bar
    have joinedSplit := splitRule_append_right split (gap ++ '|' :: more)
    rw [← joined] at joinedSplit
    rw [readingOf_of_split barless joinedSplit, readingOf_of_split begins.1 split,
      Reading.followedBy, Option.bind_assoc]
    exact Option.bind_congr fun head _ => ofBodies_append blank nextSame head after

theorem readingsOf_joined (follows : IsContinuation line ∨ IsRuleLine line)
    (continues : IsContinuation next) (after : List (List Char)) (current : Option Symbol) :
    readingsOf current ((line ++ ' ' :: Text.trim next) :: after) =
      readingsOf current (line :: next :: after) := by
  rw [readingsOf, readingsOf, readingOf_append follows continues, Reading.followedBy_assoc]
  rfl

/-- A text whose line has the continuation behind it on it. -/
theorem spelled_joined {text merged : List Char} {before after : List (List Char)}
    (lines : Text.splitLines text = before ++ line :: next :: after)
    (joined : Text.splitLines merged = before ++ (line ++ ' ' :: Text.trim next) :: after)
    (follows : IsContinuation line ∨ IsRuleLine line) (continues : IsContinuation next) :
    spelled merged = spelled text := by
  rw [spelled, spelled, lines, joined, readingsOf_append, readingsOf_append]
  exact congrArg (fun next => (Reading.followedBy _ next).map Reading.rules)
    (funext (readingsOf_joined follows continues after))

end Joined

/-- The layout of grammar text does not matter. A text whose continuations have rules of their own
can be put behind another: it is read if and only if both are, and then to the productions of both.
A continuation can be put on the line of the rule that it goes on with: the lines of the text are
such that one line takes the place of two, and any text of these lines is read alike. -/
theorem read_layouts :
    (∀ first second : String, Headed (Text.splitLines second.toList) →
      ((∃ joined, read (first ++ "\n" ++ second) = .ok joined) ↔
        (∃ one, read first = .ok one) ∧ ∃ other, read second = .ok other) ∧
      ∀ joined one other, read (first ++ "\n" ++ second) = .ok joined → read first = .ok one →
        read second = .ok other → joined.augmented = false ∧
          joined.productions = one.productions ++ other.productions.map (movedBy one.size)) ∧
    ∀ (text : String) (before after : List (List Char)) (line next : List Char),
      Text.splitLines text.toList = before ++ line :: next :: after →
      IsContinuation line ∨ IsRuleLine line → IsContinuation next →
      (∃ front ending back, text.toList = front ++ (line ++ (ending ++ (next ++ back))) ∧
        Text.Breaks ending (next ++ back) ∧
        Text.splitLines (front ++ (line ++ ' ' :: Text.trim next ++ back)) =
          before ++ (line ++ ' ' :: Text.trim next) :: after) ∧
      ∀ merged : String, Text.splitLines merged.toList =
          before ++ (line ++ ' ' :: Text.trim next) :: after →
        (read merged).toOption = (read text).toOption := by
  refine ⟨fun _ _ headed => read_append_newline headed,
    fun text before after line next lines follows continues => ⟨?_, fun merged joined => ?_⟩⟩
  · have unbroken (wanted : List Char) (member : wanted ∈ line :: next :: after) :
        ∀ character ∈ wanted, Text.isLineBreak character = false :=
      Text.unbroken_of_mem_splitLines (lines ▸ List.mem_append_right before member)
    obtain ⟨front, ending, back, whole, breaks, placed⟩ := Text.exists_two_lines lines
    refine ⟨front, ending, back, whole, breaks, placed _ (by simp) ?_⟩
    refine List.forall_mem_append.mpr ⟨unbroken line List.mem_cons_self,
      List.forall_mem_cons.mpr ⟨rfl, fun character inside => ?_⟩⟩
    exact unbroken next (List.mem_cons_of_mem _ List.mem_cons_self) character
      (Text.mem_of_mem_trim inside)
  · rw [toOption_read, toOption_read, spelled_joined lines joined follows continues]

/-- The line feed completes the break that ends the first text; the continuation of the second is
put on the line of its rule. -/
theorem read_layouts_mixed :
    ∃ one other joined, read "S -> a\r" = .ok one ∧
      read "T ::= b\x0b\t|c\u2028U → T" = .ok other ∧
      Headed (Text.splitLines "T ::= b\x0b\t|c\u2028U → T".toList) ∧
      read ("S -> a\r" ++ "\n" ++ "T ::= b\x0b\t|c\u2028U → T") = .ok joined ∧
      joined.productions = one.productions ++ other.productions.map (movedBy one.size) ∧
      one.size = 1 ∧ other.size = 3 ∧ read "T ::= b |c\u2028U → T" = .ok other := by
  have lines : Text.splitLines "T ::= b\x0b\t|c\u2028U → T".toList =
      [] ++ "T ::= b".toList :: "\t|c".toList :: ["U → T".toList] := by
    decide +kernel
  have begins : IsRuleLine "T ::= b".toList := by decide +kernel
  have headed : Headed (Text.splitLines "T ::= b\x0b\t|c\u2028U → T".toList) :=
    lines ▸ headed_of_isRuleLine begins _
  obtain ⟨joins, merges⟩ := read_layouts
  obtain ⟨succeeds, together⟩ := joins "S -> a\r" _ headed
  have oneSize : (read "S -> a\r").toOption.map size = some 1 := by decide +kernel
  have otherSize : (read "T ::= b\x0b\t|c\u2028U → T").toOption.map size = some 3 := by
    decide +kernel
  obtain ⟨one, oneRead, oneSized⟩ := Option.map_eq_some_iff.mp oneSize
  obtain ⟨other, otherRead, otherSized⟩ := Option.map_eq_some_iff.mp otherSize
  have alike := (merges _ [] ["U → T".toList] "T ::= b".toList "\t|c".toList lines (.inr begins)
    (by decide +kernel)).2 "T ::= b |c\u2028U → T" (by decide +kernel)
  rw [otherRead, toOption_eq_some_iff] at alike
  rw [toOption_eq_some_iff] at oneRead otherRead
  obtain ⟨joined, joinedRead⟩ := succeeds.mpr ⟨⟨one, oneRead⟩, other, otherRead⟩
  exact ⟨one, other, joined, oneRead, otherRead, headed, joinedRead,
    (together joined one other joinedRead oneRead otherRead).2, oneSized, otherSized, alike⟩

end Grammar

end ShiftReduce
