/-
This file proves that reading undoes printing. What the reader can make of a text is known
exactly: heads are words that hold no separator and do not start with a bar, and body symbols are
words without bars. The line of a production of such symbols has its first separator behind the
head and no bar behind the separator, so it is read as that production again. A grammar that was
read can therefore be printed, production by production, and read again.
-/

import ShiftReduce.Grammar.Reader
import ShiftReduce.Proofs.Words

namespace ShiftReduce

namespace Grammar

/-! ### Separators -/

/-- What stands between the head and the alternatives of a rule. -/
def separators : List (List Char) :=
  ["->".toList, "→".toList, "::=".toList]

/-- A text that holds no separator. -/
def Unseparated (text : List Char) : Prop :=
  ∀ separator ∈ separators, ¬ separator <:+: text

section Separators

variable {text rest : List Char}

theorem Unseparated.of_part {part : List Char} (free : Unseparated text) (inside : part <:+: text) :
    Unseparated part :=
  fun separator listed found => free separator listed (found.trans inside)

theorem splitRule_of_separator {separator : List Char} (listed : separator ∈ separators)
    (front : separator <+: text) : ∃ after, splitRule text = some ([], after) := by
  obtain ⟨after, rfl⟩ := front
  simp only [separators, List.mem_cons, List.not_mem_nil, or_false] at listed
  rcases listed with rfl | rfl | rfl
  · exact ⟨after, rfl⟩
  · exact ⟨after, rfl⟩
  · exact ⟨after, rfl⟩

theorem splitRule_of_other {character : Char}
    (other : ∀ separator ∈ separators, ¬ separator <+: character :: rest) :
    splitRule (character :: rest) =
      (splitRule rest).map fun (before, after) => (character :: before, after) := by
  rw [splitRule]
  · rintro others rfl rfl
    exact other "->".toList (by decide) ⟨others, rfl⟩
  · rintro rfl
    exact other "→".toList (by decide) ⟨rest, rfl⟩
  · rintro others rfl rfl
    exact other "::=".toList (by decide) ⟨others, rfl⟩

/-- What stands in front of the leftmost separator holds none. -/
theorem unseparated_of_splitRule {before after : List Char}
    (split : splitRule text = some (before, after)) : Unseparated before ∧ before <+: text := by
  induction text generalizing before with
  | nil => cases split
  | cons character rest inductionHypothesis =>
    by_cases found : ∃ separator ∈ separators, separator <+: character :: rest
    · obtain ⟨separator, listed, front⟩ := found
      obtain ⟨others, same⟩ := splitRule_of_separator listed front
      rw [split, Option.some_inj, Prod.mk.injEq] at same
      rw [same.1]
      refine ⟨fun separator listed inside => ?_, List.nil_prefix⟩
      rw [List.infix_nil.mp inside] at listed
      exact absurd listed (by decide)
    · have other : ∀ separator ∈ separators, ¬ separator <+: character :: rest :=
        fun separator listed front => found ⟨separator, listed, front⟩
      rw [splitRule_of_other other] at split
      obtain ⟨⟨inner, later⟩, innerSplit, same⟩ := Option.map_eq_some_iff.mp split
      obtain ⟨rfl, rfl⟩ := Prod.mk.inj same
      obtain ⟨free, front⟩ := inductionHypothesis innerSplit
      have longer : character :: inner <+: character :: rest :=
        (List.prefix_cons_inj character).mpr front
      refine ⟨fun separator listed inside => ?_, longer⟩
      rcases List.infix_cons_iff.mp inside with start | later
      · exact other separator listed (start.trans longer)
      · exact free separator listed later

/-- No separator begins in a text that holds none and goes on with a blank. -/
theorem splitRule_append (free : Unseparated text) (rest : List Char) :
    splitRule (text ++ ' ' :: '-' :: '>' :: rest) = some (text ++ [' '], rest) := by
  induction text with
  | nil => rfl
  | cons character others inductionHypothesis =>
    have other : ∀ separator ∈ separators,
        ¬ separator <+: character :: (others ++ ' ' :: '-' :: '>' :: rest) := by
      intro separator listed front
      have absent : ' ' ∉ separator :=
        (show ∀ listed ∈ separators, ' ' ∉ listed by decide) separator listed
      exact free separator listed (prefix_of_not_mem absent front).isInfix
    rw [List.cons_append, splitRule_of_other other,
      inductionHypothesis (free.of_part (List.suffix_cons _ _).isInfix)]
    rfl

end Separators

/-! ### What can be read -/

/-- A head that the reader can come to. -/
structure IsHead (symbol : Symbol) : Prop where
  word : Text.IsWord symbol.toList
  unseparated : Unseparated symbol.toList
  barless : symbol.toList.head? ≠ some '|'

/-- A symbol that the reader can come to in a body. -/
structure IsPart (symbol : Symbol) : Prop where
  word : Text.IsWord symbol.toList
  barless : '|' ∉ symbol.toList

/-- A grammar whose productions can be read from text. -/
structure Legible (grammar : Grammar) : Prop where
  heads : ∀ production ∈ grammar.productions, IsHead production.head
  bodies : ∀ production ∈ grammar.productions, ∀ symbol ∈ production.body, IsPart symbol

/-- The productions, each on a line of its own. -/
def printed (grammar : Grammar) : String :=
  Text.joined "\n" (grammar.productions.map Production.text)

/-! ### One line -/

section Lines

variable {production : Production}

theorem text_toList (production : Production) : production.text.toList =
    production.head.toList ++ ' ' :: '-' :: '>' :: ' ' :: production.bodyText.toList := by
  show (production.head ++ " -> " ++ production.bodyText).toList = _
  rw [String.toList_append, String.toList_append, List.append_assoc]
  rfl

theorem joined_toList (body : List Symbol) :
    (Text.joined " " body).toList = [' '].intercalate (body.map String.toList) :=
  String.toList_intercalate

theorem words_of_parts {symbols : List Symbol} (parts : ∀ symbol ∈ symbols, IsPart symbol) :
    ∀ word ∈ symbols.map String.toList, Text.IsWord word := by
  intro word member
  obtain ⟨symbol, inside, rfl⟩ := List.mem_map.mp member
  exact (parts symbol inside).word

/-- A printed body consists of words with single blanks between them: its symbols, or the empty
word if there are none. -/
theorem bodyText_toList (parts : ∀ symbol ∈ production.body, IsPart symbol) :
    ∃ symbols : List Symbol, (∀ symbol ∈ symbols, IsPart symbol) ∧ symbols ≠ [] ∧
      production.bodyText.toList = [' '].intercalate (symbols.map String.toList) ∧
      (symbols = production.body ∨ symbols = [Symbol.epsilon] ∧ production.body = []) := by
  rw [Production.bodyText]
  cases spelled : production.body with
  | nil =>
    refine ⟨[Symbol.epsilon], List.forall_mem_singleton.mpr ?_, List.cons_ne_nil _ _, rfl,
      .inr ⟨rfl, rfl⟩⟩
    have solid : ∀ character ∈ Symbol.epsilon.toList, Text.isBlank character = false :=
      List.forall_mem_singleton.mpr (show Text.isBlank 'ε' = false by decide)
    exact ⟨⟨by decide, solid⟩, by decide⟩
  | cons symbol rest =>
    rw [spelled] at parts
    have words := Text.runs_intercalate (words_of_parts parts)
    have written : (Text.joined " " (symbol :: rest)).isEmpty = false := by
      rw [← Bool.not_eq_true, String.isEmpty_iff, ← String.toList_eq_nil_iff, joined_toList]
      intro nothing
      rw [nothing, Text.runs_nil] at words
      cases words
    refine ⟨symbol :: rest, parts, List.cons_ne_nil _ _, ?_, .inl rfl⟩
    rw [written]
    exact joined_toList _

/-- The body is read back from its text. -/
theorem bodyOf_bodyText (parts : ∀ symbol ∈ production.body, IsPart symbol)
    (plain : ∀ symbol ∈ production.body, symbol ∉ Symbol.reserved) :
    bodyOf (' ' :: production.bodyText.toList) = production.body := by
  obtain ⟨symbols, symbolParts, _, written, spelled⟩ := bodyText_toList parts
  have read : symbolsOf (' ' :: production.bodyText.toList) = symbols := by
    rw [symbolsOf, Text.runs_blank rfl, written,
      Text.runs_intercalate (words_of_parts symbolParts), List.map_map]
    exact (List.map_congr_left fun symbol _ => String.ofList_toList).trans (List.map_id _)
  rw [bodyOf, read]
  rcases spelled with rfl | ⟨rfl, nothing⟩
  · refine List.filter_eq_self.mpr fun symbol inside => ?_
    have other : symbol ∉ Symbol.epsilonSpellings :=
      fun spelling => plain symbol inside (List.mem_cons_of_mem _ spelling)
    rw [Bool.not_eq_true', ← Bool.not_eq_true, List.contains_iff_mem]
    exact other
  · rw [nothing]
    decide

/-- The characters behind the separator are neither bars nor line breaks. -/
theorem bodyText_characters (parts : ∀ symbol ∈ production.body, IsPart symbol) :
    ∀ character ∈ production.bodyText.toList,
      character ≠ '|' ∧ Text.isLineBreak character = false := by
  obtain ⟨symbols, symbolParts, _, written, _⟩ := bodyText_toList parts
  rw [written]
  intro character inside
  rcases eq_or_exists_of_mem_intercalate inside with rfl | ⟨word, member, found⟩
  · decide
  · obtain ⟨symbol, listed, rfl⟩ := List.mem_map.mp member
    refine ⟨?_, ?_⟩
    · rintro rfl
      exact (symbolParts symbol listed).barless found
    · exact Text.isLineBreak_of_solid ((symbolParts symbol listed).word.solid character found)

theorem text_unbroken (head : IsHead production.head)
    (parts : ∀ symbol ∈ production.body, IsPart symbol) :
    production.text.toList ≠ [] ∧
      ∀ character ∈ production.text.toList, Text.isLineBreak character = false := by
  rw [text_toList]
  refine ⟨List.append_ne_nil_of_left_ne_nil head.word.nonempty _, fun character inside => ?_⟩
  rcases List.mem_append.mp inside with front | behind
  · exact Text.isLineBreak_of_solid (head.word.solid character front)
  · simp only [List.mem_cons] at behind
    rcases behind with rfl | rfl | rfl | rfl | later
    · decide
    · decide
    · decide
    · decide
    · exact (bodyText_characters parts character later).2

theorem ofTrimmed_of_head {text : List Char} (barless : text.head? ≠ some '|') :
    Line.ofTrimmed text = match splitRule text with
      | some (head, alternatives) => .rule head alternatives
      | none => .ignored := by
  unfold Line.ofTrimmed
  split
  · exact absurd rfl barless
  · rfl

/-- A printed production is a rule line with the head in front of its separator. -/
theorem ofText_text (head : IsHead production.head)
    (parts : ∀ symbol ∈ production.body, IsPart symbol) :
    Line.ofText production.text.toList =
      .rule (production.head.toList ++ [' ']) (' ' :: production.bodyText.toList) := by
  obtain ⟨symbols, symbolParts, nonempty, written, _⟩ := bodyText_toList parts
  have words := words_of_parts symbolParts
  have start : production.text.toList.head? = production.head.toList.head? := by
    rw [text_toList, List.head?_append, List.head?_eq_some_head head.word.nonempty,
      Option.some_or]
  have trimmed : Text.trim production.text.toList = production.text.toList := by
    refine Text.trim_of_ends (fun first opens => ?_) fun last ends => ?_
    · rw [start] at opens
      exact head.word.solid first (List.mem_of_head? opens)
    · have solid : production.bodyText.toList ≠ [] := by
        intro nothing
        rw [nothing] at written
        have none := Text.runs_intercalate words
        rw [← written, Text.runs_nil] at none
        exact nonempty (List.map_eq_nil_iff.mp none.symm)
      rw [text_toList, List.append_cons, List.append_cons, List.append_cons, List.append_cons,
        List.getLast?_append, List.getLast?_eq_some_getLast solid, Option.some_or,
        ← List.getLast?_eq_some_getLast solid, written] at ends
      exact Text.getLast?_intercalate words ends
  rw [Line.ofText, trimmed, ofTrimmed_of_head (start ▸ head.barless), text_toList,
    splitRule_append head.unseparated]

theorem readHead_of_isHead {symbol : Symbol} (head : IsHead symbol)
    (plain : symbol ∉ Symbol.reserved) (number : Nat) :
    readHead number (symbol.toList ++ [' ']) = .ok symbol := by
  have read : symbolsOf (symbol.toList ++ [' ']) = [symbol] := by
    rw [symbolsOf, Text.runs_word_append head.word rfl, Text.runs_nil]
    exact congrArg (· :: []) String.ofList_toList
  have free : Symbol.isReserved symbol = false := by
    rw [← Bool.not_eq_true, Symbol.isReserved_iff]
    exact plain
  rw [readHead, read]
  show (if Symbol.isReserved symbol = true then _ else _) = _
  rw [free]
  rfl

theorem readAlternatives_of_bodyText (parts : ∀ symbol ∈ production.body, IsPart symbol)
    (plain : ∀ symbol ∈ production.body, symbol ∉ Symbol.reserved) (number : Nat) :
    readAlternatives number (' ' :: production.bodyText.toList) = .ok [production.body] := by
  have single : (' ' :: production.bodyText.toList).splitOn '|' =
      [' ' :: production.bodyText.toList] := by
    refine List.splitOn_eq_singleton fun inside => ?_
    rcases List.mem_cons.mp inside with equal | later
    · exact absurd equal (by decide)
    · exact (bodyText_characters parts '|' later).1 rfl
  have endless : production.body.contains Symbol.endMarker = false := by
    rw [← Bool.not_eq_true, List.contains_iff_mem]
    exact fun inside => plain _ inside Symbol.endMarker_reserved
  simp only [readAlternatives, single, List.map_cons, List.map_nil, bodyOf_bodyText parts plain,
    List.any_cons, List.any_nil, endless, Bool.or_false, Bool.false_eq_true, if_false]

end Lines

/-! ### All lines -/

theorem readLines_of_rule {number : Nat} {current : Option Symbol} {line : List Char}
    {headText alternatives : List Char} (rest : List (List Char))
    (shape : Line.ofText line = .rule headText alternatives) :
    readLines number current (line :: rest) = do
      let head ← readHead number headText
      let bodies ← readAlternatives number alternatives
      let later ← readLines (number + 1) (some head) rest
      return bodies.map (fun body => (head, body)) ++ later := by
  rw [readLines]
  exact shape

/-- The lines of productions are read as their heads and bodies. -/
theorem readLines_of_productions {productions : List Production}
    (heads : ∀ production ∈ productions, IsHead production.head ∧
      production.head ∉ Symbol.reserved)
    (bodies : ∀ production ∈ productions, ∀ symbol ∈ production.body, IsPart symbol ∧
      symbol ∉ Symbol.reserved) (number : Nat) (current : Option Symbol) :
    readLines number current (productions.map fun production => production.text.toList) =
      .ok (productions.map fun production => (production.head, production.body)) := by
  induction productions generalizing number current with
  | nil => rfl
  | cons production rest inductionHypothesis =>
    obtain ⟨head, plain⟩ := heads production List.mem_cons_self
    have body := bodies production List.mem_cons_self
    have parts : ∀ symbol ∈ production.body, IsPart symbol := fun symbol inside =>
      (body symbol inside).1
    rw [List.map_cons, readLines_of_rule _ (ofText_text head parts),
      readHead_of_isHead head plain,
      readAlternatives_of_bodyText parts fun symbol inside => (body symbol inside).2]
    show (readLines (number + 1) (some production.head) _ >>= _) = _
    rw [inductionHypothesis (fun other member => heads other (List.mem_cons_of_mem _ member))
      fun other member => bodies other (List.mem_cons_of_mem _ member)]
    rfl

/-- Productions whose ids are their positions are numbered as they are. -/
theorem numbered_productions (grammar : Grammar) :
    numbered (grammar.productions.map fun production => (production.head, production.body)) =
      grammar.productions := by
  refine List.ext_getElem? fun place => ?_
  rw [numbered, List.getElem?_map, List.getElem?_zipIdx, List.getElem?_map]
  cases found : grammar.productions[place]? with
  | none => rfl
  | some production =>
    have dense := grammar.wellFormed.dense place production found
    simp only [Option.map_some, Nat.zero_add, Option.some_inj]
    rw [← dense]

/-- A legible grammar is read from its printed productions. -/
theorem read_of_legible {grammar : Grammar} (plain : grammar.augmented = false)
    (legible : grammar.Legible) : read grammar.printed = .ok grammar := by
  have lines : Text.splitLines grammar.printed.toList =
      grammar.productions.map fun production => production.text.toList := by
    show Text.splitLines ("\n".intercalate (grammar.productions.map Production.text)).toList = _
    rw [String.toList_intercalate, List.map_map]
    refine Text.splitLines_intercalate fun line member => ?_
    obtain ⟨production, inside, rfl⟩ := List.mem_map.mp member
    exact text_unbroken (legible.heads production inside) (legible.bodies production inside)
  have rules := readLines_of_productions
    (fun production inside => ⟨legible.heads production inside,
      grammar.wellFormed.heads production inside⟩)
    (fun production inside symbol member => ⟨legible.bodies production inside symbol member,
      grammar.wellFormed.bodies production inside symbol member⟩) 1 none
  rw [read, lines, rules]
  exact ofProductions_eq_ok_iff.mpr ⟨(numbered_productions grammar).symm, plain⟩

/-! ### What the reader comes to -/

section Reading

variable {number : Nat} {text : List Char} {symbol : Symbol}

theorem mem_symbolsOf (member : symbol ∈ symbolsOf text) :
    symbol.toList ∈ Text.runs text := by
  obtain ⟨run, inside, rfl⟩ := List.mem_map.mp member
  rw [String.toList_ofList]
  exact inside

/-- Heads stand at the beginning of a trimmed line that is not a continuation, in front of its
first separator. The first character in front of the separator opens both the line and the head. -/
theorem isHead_of_readHead {line alternatives : List Char}
    (shape : Line.ofText line = .rule text alternatives)
    (read : readHead number text = .ok symbol) : IsHead symbol := by
  have single : symbolsOf text = [symbol] := by
    unfold readHead at read
    split at read
    · rename_i head same
      split at read
      · cases read
      · rw [same, Except.ok.inj read]
    · cases read
  obtain ⟨word, inside⟩ :=
    Text.isWord_of_mem_runs (mem_symbolsOf (single ▸ List.mem_singleton.mpr rfl))
  rw [Line.ofText] at shape
  have barless : (Text.trim line).head? ≠ some '|' := by
    intro bar
    obtain ⟨others, same⟩ := List.head?_eq_some_iff.mp bar
    rw [same] at shape
    cases shape
  rw [ofTrimmed_of_head barless] at shape
  cases split : splitRule (Text.trim line) with
  | none =>
    rw [split] at shape
    cases shape
  | some parts =>
    obtain ⟨before, after⟩ := parts
    rw [split] at shape
    obtain ⟨rfl, rfl⟩ := Line.rule.inj shape
    obtain ⟨free, front⟩ := unseparated_of_splitRule split
    refine ⟨word, free.of_part inside, fun bar => ?_⟩
    cases before with
    | nil => cases single
    | cons character others =>
      obtain ⟨rest, same⟩ := front
      have opens : (Text.trim line).head? = some character := by
        rw [← same]
        rfl
      obtain ⟨tail, later, runs⟩ := Text.runs_solid (Text.head?_trim opens) others
      rw [symbolsOf, runs] at single
      rw [← (List.cons.inj single).1, String.toList_ofList] at bar
      exact barless (opens.trans bar)

theorem isPart_of_readAlternatives {bodies : List (List Symbol)}
    (read : readAlternatives number text = .ok bodies) :
    ∀ body ∈ bodies, ∀ symbol ∈ body, IsPart symbol := by
  simp only [readAlternatives] at read
  split at read
  · cases read
  · rw [← Except.ok.inj read]
    intro body member symbol inside
    obtain ⟨alternative, piece, rfl⟩ := List.mem_map.mp member
    obtain ⟨word, part⟩ := Text.isWord_of_mem_runs (mem_symbolsOf (List.mem_filter.mp inside).1)
    obtain ⟨first, later, same, _, each⟩ :=
      splitOnP_pieces (fun character => character == '|') text
    rw [List.splitOn_eq_splitOnP, same] at piece
    refine ⟨word, fun bar => ?_⟩
    have other := (each alternative piece).2 '|' (part.subset bar)
    cases other

/-- Rules are made of heads and body symbols as they can be read: those that a line with a head
adds, and those of the lines behind it. -/
theorem legible_of_readLines {lines : List (List Char)} {current : Option Symbol}
    {rules : List (Symbol × List Symbol)} (known : ∀ head ∈ current, IsHead head)
    (read : readLines number current lines = .ok rules) :
    ∀ rule ∈ rules, IsHead rule.1 ∧ ∀ symbol ∈ rule.2, IsPart symbol := by
  induction lines generalizing number current rules with
  | nil =>
    rw [← Except.ok.inj read]
    exact fun _ none => absurd none List.not_mem_nil
  | cons line rest inductionHypothesis =>
    have added {head : Symbol} {alternatives : List Char} (isHead : IsHead head)
        (done : (do
          let bodies ← readAlternatives number alternatives
          let later ← readLines (number + 1) (some head) rest
          return bodies.map (fun body => (head, body)) ++ later) = .ok rules) :
        ∀ rule ∈ rules, IsHead rule.1 ∧ ∀ symbol ∈ rule.2, IsPart symbol := by
      obtain ⟨bodies, here, more⟩ := bind_eq_ok_iff.mp done
      obtain ⟨later, others, same⟩ := bind_eq_ok_iff.mp more
      rw [← Except.ok.inj same]
      refine List.forall_mem_append.mpr ⟨fun rule member => ?_,
        inductionHypothesis (fun _ equal => Option.some_inj.mp equal ▸ isHead) others⟩
      obtain ⟨body, inside, rfl⟩ := List.mem_map.mp member
      exact ⟨isHead, isPart_of_readAlternatives here body inside⟩
    unfold readLines at read
    split at read
    · exact added (known _ rfl) read
    · rename_i shape
      obtain ⟨head, found, done⟩ := bind_eq_ok_iff.mp read
      exact added (isHead_of_readHead shape found) done
    · exact inductionHypothesis known read

end Reading

/-- Everything that is read is legible. -/
theorem legible_of_read {text : String} {grammar : Grammar} (found : read text = .ok grammar) :
    grammar.augmented = false ∧ grammar.Legible := by
  obtain ⟨rules, lines, made⟩ := bind_eq_ok_iff.mp found
  obtain ⟨same, plain⟩ := ofProductions_eq_ok_iff.mp made
  have each := legible_of_readLines (fun _ absent => by cases absent) lines
  have source : ∀ production ∈ grammar.productions,
      (production.head, production.body) ∈ rules := by
    intro production member
    rw [same, numbered] at member
    obtain ⟨⟨rule, place⟩, inside, rfl⟩ := List.mem_map.mp member
    exact List.fst_mem_of_mem_zipIdx inside
  exact ⟨plain, fun production member => (each _ (source production member)).1,
    fun production member => (each _ (source production member)).2⟩

/-- Printing and reading undo each other: a grammar whose symbols can be read is read from its
printed productions, and what is read from any text is such a grammar. -/
theorem read_printed :
    (∀ grammar : Grammar, grammar.augmented = false → grammar.Legible →
      read grammar.printed = .ok grammar) ∧
    ∀ text grammar, read text = .ok grammar →
      grammar.augmented = false ∧ grammar.Legible ∧ read grammar.printed = .ok grammar := by
  refine ⟨fun _ plain legible => read_of_legible plain legible, fun text grammar found => ?_⟩
  obtain ⟨plain, legible⟩ := legible_of_read found
  exact ⟨plain, legible, read_of_legible plain legible⟩

/-- A head with a bar, separators as body symbols, and empty bodies. -/
theorem read_printed_barred :
    ∃ grammar, read "  A|B\t::= -> → | epsilon |\nno rule\r\n | c ε d\n" = .ok grammar ∧
      grammar.printed = "A|B -> -> →\nA|B -> ε\nA|B -> ε\nA|B -> c d" ∧
      read "A|B -> -> →\nA|B -> ε\nA|B -> ε\nA|B -> c d" = .ok grammar := by
  have evaluated : ((read "  A|B\t::= -> → | epsilon |\nno rule\r\n | c ε d\n").toOption.map
      printed) = some "A|B -> -> →\nA|B -> ε\nA|B -> ε\nA|B -> c d" := by
    decide +kernel
  cases found : read "  A|B\t::= -> → | epsilon |\nno rule\r\n | c ε d\n" with
  | error fault =>
    rw [found] at evaluated
    cases evaluated
  | ok grammar =>
    rw [found] at evaluated
    have written : grammar.printed = _ := Option.some_inj.mp evaluated
    obtain ⟨legible, again⟩ := read_printed
    obtain ⟨plain, isLegible, _⟩ := again _ grammar found
    exact ⟨grammar, rfl, written, written ▸ legible grammar plain isLegible⟩

end Grammar

end ShiftReduce
