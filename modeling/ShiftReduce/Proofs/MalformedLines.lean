/-
This file proves that grammar text is rejected exactly for its malformed lines. What is wrong with a
line can be seen on the line itself, but for the end marker in a continuation, which is wrong only
behind a rule line. The first malformed line of a text is the one that its fault names; and since no
symbol that is read is reserved, the grammar of the lines is never at fault where no line is.
-/

import ShiftReduce.Proofs.RuleLines

namespace ShiftReduce

namespace Grammar

/-! ### The leftmost separator -/

/-- A text with a separator between two parts, and no separator begins further left. -/
structure LeftmostSplit (text before after : List Char) : Prop where
  whole : ∃ separator ∈ separators, text = before ++ (separator ++ after)
  leftmost : ∀ separator ∈ separators, ∀ front back : List Char,
    text = front ++ (separator ++ back) → before.length ≤ front.length

section Separators

variable {text before after : List Char}

theorem splitRule_separator {separator : List Char} (listed : separator ∈ separators)
    (after : List Char) : splitRule (separator ++ after) = some ([], after) := by
  simp only [separators, List.mem_cons, List.not_mem_nil, or_false] at listed
  rcases listed with rfl | rfl | rfl <;> rfl

theorem leftmostSplit_cons_iff {character : Char} {rest : List Char}
    (other : ∀ separator ∈ separators, ¬ separator <+: character :: rest) :
    LeftmostSplit (character :: rest) before after ↔
      ∃ inner, before = character :: inner ∧ LeftmostSplit rest inner after := by
  constructor
  · rintro ⟨⟨separator, listed, split⟩, leftmost⟩
    cases before with
    | nil => exact absurd ⟨after, split.symm⟩ (other separator listed)
    | cons first inner =>
      obtain ⟨rfl, same⟩ := List.cons.inj split
      refine ⟨inner, rfl, ⟨separator, listed, same⟩, ?_⟩
      intro rival rivalListed front back rivalSame
      have longer := leftmost rival rivalListed (character :: front) back
        (by rw [rivalSame, List.cons_append])
      exact Nat.le_of_succ_le_succ longer
  · rintro ⟨inner, rfl, ⟨separator, listed, same⟩, leftmost⟩
    refine ⟨⟨separator, listed, by rw [same, List.cons_append]⟩, ?_⟩
    intro rival rivalListed front back rivalSame
    cases front with
    | nil => exact absurd ⟨back, rivalSame.symm⟩ (other rival rivalListed)
    | cons first front =>
      exact Nat.succ_le_succ (leftmost rival rivalListed front back (List.cons.inj rivalSame).2)

/-- A text is split at its leftmost separator. -/
theorem splitRule_eq_some_iff :
    splitRule text = some (before, after) ↔ LeftmostSplit text before after := by
  induction text generalizing before with
  | nil =>
    refine iff_of_false (fun split => by cases split) fun ⟨⟨separator, listed, split⟩, _⟩ => ?_
    rw [(List.append_eq_nil_iff.mp (List.append_eq_nil_iff.mp split.symm).2).1] at listed
    exact absurd listed (by decide)
  | cons character rest inductionHypothesis =>
    by_cases found : ∃ separator ∈ separators, separator <+: character :: rest
    · obtain ⟨separator, listed, later, same⟩ := found
      rw [← same, splitRule_separator listed, Option.some_inj, Prod.mk.injEq]
      constructor
      · rintro ⟨rfl, rfl⟩
        exact ⟨⟨separator, listed, rfl⟩, fun _ _ _ _ _ => Nat.zero_le _⟩
      · rintro ⟨⟨rival, rivalListed, split⟩, leftmost⟩
        obtain rfl : before = [] :=
          List.eq_nil_of_length_eq_zero (Nat.le_zero.mp (leftmost separator listed [] later rfl))
        have oneReading := splitRule_separator listed later
        rw [split, List.nil_append, splitRule_separator rivalListed] at oneReading
        exact ⟨rfl, (Prod.mk.inj (Option.some_inj.mp oneReading)).2.symm⟩
    · have other : ∀ separator ∈ separators, ¬ separator <+: character :: rest :=
        fun separator listed front => found ⟨separator, listed, front⟩
      rw [splitRule_of_other other, Option.map_eq_some_iff, leftmostSplit_cons_iff other]
      constructor
      · rintro ⟨⟨inner, later⟩, split, same⟩
        obtain ⟨rfl, rfl⟩ := Prod.mk.inj same
        exact ⟨inner, rfl, inductionHypothesis.mp split⟩
      · rintro ⟨inner, rfl, split⟩
        exact ⟨(inner, after), inductionHypothesis.mpr split, rfl⟩

end Separators

/-! ### Malformed lines -/

/-- Some alternative has the end marker as a symbol. -/
def UsesEndMarker (alternatives : List Char) : Prop :=
  ∃ alternative ∈ alternatives.splitOn '|', Symbol.endMarker ∈ symbolsOf alternative

/-- A line that cannot be read behind the given ones: a rule line without a head, with more than
one or with a reserved one, or whose alternatives use the end marker; or a continuation that uses
it, if there is a rule to continue. -/
inductive Malformed (earlier : List (List Char)) (line : List Char) : Prop
  | rule {before after : List Char} (begins : IsRuleLine line)
      (split : LeftmostSplit (Text.trim line) before after)
      (wrong : (symbolsOf before).length ≠ 1 ∨
        (∃ head ∈ Symbol.reserved, symbolsOf before = [head]) ∨ UsesEndMarker after)
  | continuation {alternatives : List Char} (continues : Text.trim line = '|' :: alternatives)
      (follows : ∃ rule ∈ earlier, IsRuleLine rule) (wrong : UsesEndMarker alternatives)

/-- The line at a place is malformed behind the lines in front of it. -/
def MalformedAt (lines : List (List Char)) (place : Nat) : Prop :=
  ∃ line, lines[place]? = some line ∧ Malformed (lines.take place) line

/-- The line at a place is malformed, and no line in front of it is. -/
def FirstMalformed (lines : List (List Char)) (place : Nat) : Prop :=
  MalformedAt lines place ∧ ∀ earlier < place, ¬ MalformedAt lines earlier

section Lines

variable {text line before after : List Char} {earlier rest : List (List Char)} {number : Nat}
  {current : Option Symbol}

theorem malformedAt_length_iff :
    MalformedAt (earlier ++ line :: rest) earlier.length ↔ Malformed earlier line := by
  rw [MalformedAt, List.getElem?_append_right (Nat.le_refl _), Nat.sub_self,
    List.getElem?_cons_zero, List.take_left]
  simp only [Option.some_inj, exists_eq_left']

theorem malformed_rule_iff (barless : ¬ IsContinuation line)
    (split : splitRule (Text.trim line) = some (before, after)) :
    Malformed earlier line ↔ (symbolsOf before).length ≠ 1 ∨
      (∃ head ∈ Symbol.reserved, symbolsOf before = [head]) ∨ UsesEndMarker after := by
  have leftmost := splitRule_eq_some_iff.mp split
  constructor
  · rintro (⟨_, other, wrong⟩ | ⟨continues, _, _⟩)
    · rw [← splitRule_eq_some_iff, split, Option.some_inj, Prod.mk.injEq] at other
      obtain ⟨rfl, rfl⟩ := other
      exact wrong
    · exact absurd (congrArg List.head? continues) barless
  · obtain ⟨separator, listed, whole⟩ := leftmost.whole
    have begins : IsRuleLine line :=
      ⟨barless, separator, listed, before, after, by rw [whole, List.append_assoc]⟩
    exact .rule begins leftmost

theorem malformed_continuation_iff {alternatives : List Char}
    (continues : Text.trim line = '|' :: alternatives) :
    Malformed earlier line ↔
      (∃ rule ∈ earlier, IsRuleLine rule) ∧ UsesEndMarker alternatives := by
  constructor
  · rintro (⟨begins, _, _⟩ | ⟨same, follows, wrong⟩)
    · exact absurd (congrArg List.head? continues) begins.1
    · rw [continues] at same
      exact ⟨follows, (List.cons.inj same).2 ▸ wrong⟩
  · rintro ⟨follows, wrong⟩
    exact .continuation continues follows wrong

theorem not_malformed_of_other (barless : ¬ IsContinuation line) (other : ¬ IsRuleLine line) :
    ¬ Malformed earlier line := by
  rintro (⟨begins, _, _⟩ | ⟨continues, _, _⟩)
  · exact other begins
  · exact barless (congrArg List.head? continues)

end Lines

/-! ### Faults of a line -/

/-- A computation about the line of a number fails exactly under a condition, by a fault that names
the line. -/
structure FailsAt {Result : Type} (number : Nat) (condition : Prop)
    (outcome : Except GrammarFault Result) : Prop where
  iff : (∃ fault, outcome = .error fault) ↔ condition
  line : ∀ fault, outcome = .error fault → fault.line = some number

section Faults

variable {text line before after : List Char} {earlier : List (List Char)} {number : Nat}
  {current : Option Symbol}

theorem failsAt_ok {Result : Type} {condition : Prop} (fine : ¬ condition) (result : Result) :
    FailsAt number condition (.ok result) :=
  ⟨iff_of_false (fun ⟨_, failed⟩ => by cases failed) fine, fun _ failed => by cases failed⟩

theorem failsAt_error {Result : Type} {condition : Prop} {fault : GrammarFault} (wrong : condition)
    (names : fault.line = some number) :
    FailsAt number condition (.error fault : Except GrammarFault Result) :=
  ⟨iff_of_true ⟨fault, rfl⟩ wrong, fun _ failed => Except.error.inj failed ▸ names⟩

/-- Two computations about a line, one after the other. -/
theorem FailsAt.bind {First Result : Type} {one other : Prop} {first : Except GrammarFault First}
    {next : First → Except GrammarFault Result} (here : FailsAt number one first)
    (later : ∀ value, FailsAt number other (next value)) :
    FailsAt number (one ∨ other) (first >>= next) := by
  cases first with
  | error fault =>
    exact failsAt_error (.inl (here.iff.mp ⟨fault, rfl⟩)) (here.line fault rfl)
  | ok value =>
    have fine : ¬ one := fun wrong => by
      obtain ⟨fault, failed⟩ := here.iff.mpr wrong
      cases failed
    exact ⟨(later value).iff.trans (or_iff_right fine).symm, (later value).line⟩

theorem FailsAt.congr {Result : Type} {one other : Prop} {outcome : Except GrammarFault Result}
    (fails : FailsAt number one outcome) (same : one ↔ other) : FailsAt number other outcome :=
  ⟨fails.iff.trans same, fails.line⟩

/-- Only the spellings of the empty word are left out of a body. -/
theorem endMarker_mem_bodyOf :
    Symbol.endMarker ∈ bodyOf text ↔ Symbol.endMarker ∈ symbolsOf text := by
  rw [bodyOf, List.mem_filter]
  exact and_iff_left (by decide)

theorem readAlternatives_failsAt (number : Nat) (text : List Char) :
    FailsAt number (UsesEndMarker text) (readAlternatives number text) := by
  have uses : (((text.splitOn '|').map bodyOf).any fun body =>
      body.contains Symbol.endMarker) = true ↔ UsesEndMarker text := by
    simp only [List.any_eq_true, List.mem_map, List.contains_iff_mem, exists_exists_and_eq_and,
      endMarker_mem_bodyOf, UsesEndMarker]
  unfold readAlternatives
  dsimp only
  split
  · rename_i used
    exact failsAt_error (uses.mp used) rfl
  · rename_i unused
    exact failsAt_ok (fun wrong => unused (uses.mpr wrong)) _

theorem readHead_failsAt (number : Nat) (text : List Char) :
    FailsAt number ((symbolsOf text).length ≠ 1 ∨ ∃ head ∈ Symbol.reserved, symbolsOf text = [head])
      (readHead number text) := by
  unfold readHead
  split
  · rename_i head single
    split
    · rename_i reserved
      exact failsAt_error (.inr ⟨head, (Symbol.isReserved_iff head).mp reserved, single⟩) rfl
    · rename_i free
      refine failsAt_ok ?_ head
      rintro (several | ⟨other, reserved, same⟩)
      · exact several (by rw [single, List.length_singleton])
      · rw [single, List.singleton_inj] at same
        exact free ((Symbol.isReserved_iff head).mpr (same ▸ reserved))
  · rename_i several
    refine failsAt_error (.inl fun one => ?_) rfl
    obtain ⟨head, single⟩ := List.length_eq_one_iff.mp one
    exact several head single

/-- Reading a line fails exactly if it is malformed behind the lines in front of it, where a rule is
in force if one of these is a rule line. -/
theorem readLine_failsAt (inForce : current.isSome = true ↔ ∃ rule ∈ earlier, IsRuleLine rule)
    (number : Nat) (line : List Char) :
    FailsAt number (Malformed earlier line) (readLine number current line) := by
  have spelled (text : List Char) (head : Symbol) : FailsAt number (UsesEndMarker text)
      (readAlternatives number text >>= fun bodies => .ok (Reading.ofBodies head bodies)) :=
    ((readAlternatives_failsAt number text).bind fun bodies =>
      failsAt_ok not_false (Reading.ofBodies head bodies)).congr (or_iff_left not_false)
  unfold readLine
  by_cases continues : IsContinuation line
  · obtain ⟨alternatives, same⟩ := continues.trim_eq
    rw [ofText_of_trim same]
    cases current with
    | none =>
      refine failsAt_ok (fun wrong => ?_) _
      exact absurd (inForce.mpr ((malformed_continuation_iff same).mp wrong).1) Bool.false_ne_true
    | some head =>
      refine (spelled alternatives head).congr ?_
      rw [malformed_continuation_iff same]
      exact (and_iff_right (inForce.mp rfl)).symm
  · by_cases begins : IsRuleLine line
    · obtain ⟨before, after, split⟩ := begins.exists_split
      rw [ofText_of_split continues split]
      refine ((readHead_failsAt number before).bind (spelled after)).congr ?_
      rw [malformed_rule_iff continues split, or_assoc]
    · rw [ofText_of_other continues begins]
      exact failsAt_ok (not_malformed_of_other continues begins) _

/-- Behind a line that is read a rule is in force if one was before or the line is a rule line. -/
theorem last_of_readLine {reading : Reading} (read : readLine number current line = .ok reading) :
    reading.last.isSome = true ↔ current.isSome = true ∨ IsRuleLine line := by
  have found := toOption_eq_some_iff.mpr read
  rw [toOption_readLine] at found
  by_cases continues : IsContinuation line
  · have other : ¬ IsRuleLine line := fun begins => begins.1 continues
    cases current with
    | none =>
      rw [readingOf_none_of_continuation continues, Option.some_inj] at found
      exact found ▸ (or_iff_left other).symm
    | some head =>
      obtain ⟨alternatives, same⟩ := continues.trim_eq
      rw [readingOf_of_trim same] at found
      obtain ⟨bodies, _, rfl⟩ := Option.map_eq_some_iff.mp found
      exact iff_of_true rfl (.inl rfl)
  · by_cases begins : IsRuleLine line
    · obtain ⟨before, after, split⟩ := begins.exists_split
      rw [readingOf_of_split continues split] at found
      obtain ⟨head, _, spelled⟩ := Option.bind_eq_some_iff.mp found
      obtain ⟨bodies, _, rfl⟩ := Option.map_eq_some_iff.mp spelled
      exact iff_of_true rfl (.inr begins)
    · rw [readingOf_of_other continues begins, Option.some_inj] at found
      exact found ▸ (or_iff_left begins).symm

end Faults

/-! ### The first malformed line -/

section Texts

variable {lines earlier rest : List (List Char)} {current : Option Symbol} {fault : GrammarFault}

/-- The remaining lines are read up to the first malformed one, if those in front of them are
fine. All that is known of the rule in force is whether one of these is a rule line. -/
theorem readLines_first (split : lines = earlier ++ rest)
    (inForce : current.isSome = true ↔ ∃ rule ∈ earlier, IsRuleLine rule)
    (fine : ∀ place < earlier.length, ¬ MalformedAt lines place) :
    (∀ fault, readLines (earlier.length + 1) current rest = .error fault →
      ∃ place, FirstMalformed lines place ∧ fault.line = some (place + 1)) ∧
    ∀ rules, readLines (earlier.length + 1) current rest = .ok rules →
      ∀ place, ¬ MalformedAt lines place := by
  induction rest generalizing earlier current with
  | nil =>
    refine ⟨fun fault failed => (by cases failed), fun _ _ place malformed => ?_⟩
    obtain ⟨line, found, _⟩ := id malformed
    rw [split, List.append_nil] at found
    exact fine place (List.getElem?_eq_some_iff.mp found).1 malformed
  | cons line rest inductionHypothesis =>
    have fails := readLine_failsAt inForce (earlier.length + 1) line
    have here : MalformedAt lines earlier.length ↔ Malformed earlier line :=
      split ▸ malformedAt_length_iff
    rw [readLines_cons]
    cases read : readLine (earlier.length + 1) current line with
    | error fault =>
      refine ⟨fun other failed => ?_, fun rules succeeded => (by cases succeeded)⟩
      rw [← Except.error.inj failed]
      exact ⟨earlier.length, ⟨here.mpr (fails.iff.mp ⟨fault, read⟩), fine⟩, fails.line fault read⟩
    | ok reading =>
      have sound : ¬ MalformedAt lines earlier.length := fun malformed => by
        obtain ⟨fault, failed⟩ := fails.iff.mpr (here.mp malformed)
        rw [read] at failed
        cases failed
      have longer : lines = (earlier ++ [line]) ++ rest := by
        rw [split, List.append_assoc, List.singleton_append]
      have count : (earlier ++ [line]).length = earlier.length + 1 := List.length_append
      obtain ⟨rejected, accepted⟩ := inductionHypothesis longer
        (by
          rw [last_of_readLine read, inForce]
          simp only [List.mem_append, List.mem_singleton, or_and_right, exists_or, exists_eq_left])
        fun place inside => by
          rw [count, Nat.lt_succ_iff_lt_or_eq] at inside
          rcases inside with before | rfl
          · exact fine place before
          · exact sound
      rw [count] at rejected accepted
      refine ⟨fun fault failed => rejected fault (bind_ok_eq_error_iff.mp failed), ?_⟩
      intro rules succeeded
      obtain ⟨_, same, others⟩ := bind_eq_ok_iff.mp succeeded
      obtain ⟨later, further, _⟩ := bind_eq_ok_iff.mp others
      exact accepted later (Except.ok.inj same ▸ further)

theorem readLines_of_read {text : String} (failed : read text = .error fault) :
    readLines 1 none (Text.splitLines text.toList) = .error fault := by
  cases lines : readLines 1 none (Text.splitLines text.toList) with
  | error other =>
    rw [read, lines] at failed
    rw [← Except.error.inj failed]
  | ok rules =>
    have found := toOption_eq_some_iff.mpr lines
    rw [toOption_readLines] at found
    obtain ⟨grammar, succeeded⟩ := exists_read_iff.mpr ⟨rules, found⟩
    rw [succeeded] at failed
    cases failed

theorem read_first (text : String) :
    (∀ fault, read text = .error fault → ∃ place,
      FirstMalformed (Text.splitLines text.toList) place ∧ fault.line = some (place + 1)) ∧
    ∀ grammar, read text = .ok grammar →
      ∀ place, ¬ MalformedAt (Text.splitLines text.toList) place := by
  have start : (none : Option Symbol).isSome = true ↔
      ∃ rule ∈ ([] : List (List Char)), IsRuleLine rule :=
    iff_of_false Bool.false_ne_true fun ⟨_, member, _⟩ => List.not_mem_nil member
  obtain ⟨rejected, accepted⟩ := readLines_first (List.nil_append _).symm start
    fun place inside => absurd inside (Nat.not_lt_zero place)
  refine ⟨fun fault failed => rejected fault (readLines_of_read failed), fun grammar read => ?_⟩
  obtain ⟨rules, lines, _⟩ := bind_eq_ok_iff.mp read
  exact accepted rules lines

/-- A fault that names a line says so first. -/
theorem text_of_line {number : Nat} (names : fault.line = some number) :
    fault.diagnostic.text = s!"line {number}: " ++ fault.message := by
  rw [GrammarFault.diagnostic, names]
  rfl

end Texts

/-- A text is rejected if and only if one of its lines is malformed, and then by a fault that names
the first malformed line, counted from one, and whose wording begins with that number. -/
theorem rejected_malformed (text : String) :
    ((∃ fault, read text = .error fault) ↔
      ∃ place, MalformedAt (Text.splitLines text.toList) place) ∧
    ∀ fault, read text = .error fault → ∃ place,
      FirstMalformed (Text.splitLines text.toList) place ∧ fault.line = some (place + 1) ∧
        fault.diagnostic.text = s!"line {place + 1}: " ++ fault.message := by
  obtain ⟨rejected, accepted⟩ := read_first text
  constructor
  · constructor
    · rintro ⟨fault, failed⟩
      obtain ⟨place, ⟨malformed, _⟩, _⟩ := rejected fault failed
      exact ⟨place, malformed⟩
    · rintro ⟨place, malformed⟩
      cases outcome : read text with
      | error fault => exact ⟨fault, rfl⟩
      | ok grammar => exact absurd malformed (accepted grammar outcome place)
  · intro fault failed
    obtain ⟨place, first, names⟩ := rejected fault failed
    exact ⟨place, first, names, text_of_line names⟩

/-- A continuation in front of all rules and a line of other text are read over, but they count. -/
theorem rejected_malformed_late :
    ∃ fault, read "| $\r\nnotes\r\nS -> a\r\n | b $\r\n-> c" = .error fault ∧
      FirstMalformed (Text.splitLines "| $\r\nnotes\r\nS -> a\r\n | b $\r\n-> c".toList) 3 ∧
      fault.diagnostic.text = "line 4: End-of-input marker '$' used in a production body" := by
  have failed : read "| $\r\nnotes\r\nS -> a\r\n | b $\r\n-> c" = .error (.endMarkerUsed 4) := by
    decide +kernel
  obtain ⟨place, first, names, _⟩ := (rejected_malformed _).2 _ failed
  obtain rfl : 3 = place := Nat.succ.inj (Option.some_inj.mp names)
  exact ⟨_, failed, first, by decide +kernel⟩

end Grammar

end ShiftReduce
