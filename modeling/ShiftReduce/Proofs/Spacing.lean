/-
This file proves that cutting a text into words undoes putting words into a text. Words with blanks
between them, and with or without blanks at the two ends, are cut into the same words; every text is
made in this way from its own words and from no others. So a run on a text is the run on its words,
however they are spaced.
-/

import ShiftReduce.Proofs.Words
import ShiftReduce.Run.Simulator

namespace ShiftReduce

namespace Text

/-! ### Blanks around words -/

/-- All characters are blank. -/
def AllBlank (text : List Char) : Prop :=
  ∀ character ∈ text, isBlank character = true

instance (text : List Char) : Decidable (AllBlank text) :=
  List.decidableBAll (fun character => isBlank character = true) text

/-- What stands in front of some words, between each of them and the next, and behind them. -/
structure Spacing where
  front : String
  gaps : List String
  back : String

/-- Each word behind its gap. -/
def interleave : List String → List String → String
  | gap :: gaps, word :: words => gap ++ word ++ interleave gaps words
  | _, _ => ""

/-- The text that is made of some words and what stands around them. -/
def Spacing.around (spacing : Spacing) : List String → String
  | [] => spacing.front ++ spacing.back
  | first :: rest => spacing.front ++ first ++ interleave spacing.gaps rest ++ spacing.back

/-- There are blanks around the words, one gap between each word and the next, and no gap is
empty. -/
structure Spacing.Fits (spacing : Spacing) (words : List String) : Prop where
  front : AllBlank spacing.front.toList
  count : spacing.gaps.length = words.length - 1
  gaps : ∀ gap ∈ spacing.gaps, gap ≠ "" ∧ AllBlank gap.toList
  back : AllBlank spacing.back.toList

/-- The pieces of a text between its maximal runs of blanks. A run at an end of the text has an
empty piece beside it. -/
def pieces (text : List Char) : List (List Char) :=
  match _ : text.dropWhile fun character => !isBlank character with
  | [] => [text]
  | _ :: later =>
      (text.takeWhile fun character => !isBlank character) :: pieces (later.dropWhile isBlank)
termination_by text.length
decreasing_by
  have shorter : (text.dropWhile fun character => !isBlank character).length ≤ text.length :=
    (List.dropWhile_suffix _).length_le
  rw [‹text.dropWhile _ = _›] at shorter
  exact Nat.lt_of_le_of_lt (List.dropWhile_suffix isBlank).length_le shorter

/-! ### Runs and blanks -/

section Runs

variable {blanks text word rest : List Char}

theorem allBlank_nil : AllBlank [] :=
  fun _ absent => absurd absent List.not_mem_nil

theorem solid_of_mem_takeWhile {character : Char}
    (member : character ∈ text.takeWhile fun character => !isBlank character) :
    isBlank character = false := by
  rw [← Bool.not_eq_true']
  exact List.all_eq_true.mp List.all_takeWhile character member

theorem blank_of_dropWhile {character : Char} {later : List Char}
    (cut : (text.dropWhile fun character => !isBlank character) = character :: later) :
    isBlank character = true := by
  have start := List.head?_dropWhile_not (fun character => !isBlank character) text
  rw [cut] at start
  rwa [← Bool.not_eq_false']

theorem runs_blanks_append (blank : AllBlank blanks) (text : List Char) :
    runs (blanks ++ text) = runs text := by
  induction blanks with
  | nil => rfl
  | cons first later inductionHypothesis =>
    obtain ⟨here, others⟩ := List.forall_mem_cons.mp blank
    rw [List.cons_append, runs_blank here, inductionHypothesis others]

theorem pieces_of_solid (cut : (text.dropWhile fun character => !isBlank character) = []) :
    pieces text = [text] := by
  rw [pieces]
  split
  · rfl
  · rename_i other
    rw [cut] at other
    cases other

theorem pieces_of_blank {character : Char}
    (cut : (text.dropWhile fun character => !isBlank character) = character :: rest) :
    pieces text =
      (text.takeWhile fun character => !isBlank character) :: pieces (rest.dropWhile isBlank) := by
  rw [pieces]
  split
  · rename_i other
    rw [cut] at other
    cases other
  · rename_i other
    rw [cut] at other
    cases other
    rfl

/-- A text without blanks is a run, unless it is empty. -/
theorem runs_of_solid (solid : ∀ character ∈ text, isBlank character = false) :
    runs text = [text].filter fun piece => !piece.isEmpty := by
  cases text with
  | nil => rfl
  | cons first rest => exact runs_word ⟨List.cons_ne_nil first rest, solid⟩

/-- The runs of a text are its pieces without the empty ones. Cut at the first blank of a run of
blanks, a text leaves the others in front of the rest, where they make no difference. -/
theorem runs_eq_filter_pieces (text : List Char) :
    runs text = (pieces text).filter fun piece => !piece.isEmpty := by
  have whole := List.takeWhile_append_dropWhile (p := fun character => !isBlank character)
    (l := text)
  cases cut : text.dropWhile fun character => !isBlank character with
  | nil =>
    rw [cut, List.append_nil] at whole
    rw [pieces_of_solid cut]
    exact runs_of_solid fun character member => solid_of_mem_takeWhile (whole.symm ▸ member)
  | cons character later =>
    rw [cut] at whole
    have shorter : (later.dropWhile isBlank).length < text.length := by
      have skipped := (List.dropWhile_suffix isBlank (l := later)).length_le
      rw [← whole, List.length_append, List.length_cons]
      omega
    have skipped : runs later = runs (later.dropWhile isBlank) := by
      conv => lhs; rw [← List.takeWhile_append_dropWhile (p := isBlank) (l := later)]
      exact runs_blanks_append (List.all_eq_true.mp List.all_takeWhile) _
    rw [pieces_of_blank cut, ← List.singleton_append, List.filter_append,
      ← runs_of_solid fun _ member => solid_of_mem_takeWhile member,
      ← runs_eq_filter_pieces (later.dropWhile isBlank), ← skipped,
      ← runs_append (blank_of_dropWhile cut), whole]
termination_by text.length

/-- A text with other characters than blanks has a first word, which goes up to the next blank. -/
theorem exists_first_word (text : List Char) : AllBlank text ∨ ∃ blanks word rest,
    text = blanks ++ (word ++ rest) ∧ AllBlank blanks ∧ IsWord word ∧
      ∀ character ∈ rest.head?, isBlank character = true := by
  induction text with
  | nil => exact .inl allBlank_nil
  | cons character rest inductionHypothesis =>
    cases here : isBlank character with
    | true =>
      refine inductionHypothesis.imp (fun blank => List.forall_mem_cons.mpr ⟨here, blank⟩) ?_
      rintro ⟨blanks, word, later, rfl, blank, isWord, ends⟩
      exact ⟨character :: blanks, word, later, rfl, List.forall_mem_cons.mpr ⟨here, blank⟩, isWord,
        ends⟩
    | false =>
      refine .inr ⟨[], character :: rest.takeWhile (fun character => !isBlank character),
        rest.dropWhile (fun character => !isBlank character), ?_, allBlank_nil,
        ⟨List.cons_ne_nil _ _, ?_⟩, ?_⟩
      · rw [List.nil_append, List.cons_append, List.takeWhile_append_dropWhile]
      · exact List.forall_mem_cons.mpr ⟨here, fun _ member => solid_of_mem_takeWhile member⟩
      · intro first starts
        obtain ⟨later, cut⟩ := List.head?_eq_some_iff.mp starts
        exact blank_of_dropWhile cut

/-- A word up to a blank or the end is the first run. -/
theorem runs_first_word (isWord : IsWord word)
    (ends : ∀ character ∈ rest.head?, isBlank character = true) :
    runs (word ++ rest) = word :: runs rest := by
  cases rest with
  | nil => simp [runs_word isWord]
  | cons character later =>
    rw [runs_word_append isWord (ends character rfl), runs_blank (ends character rfl)]

/-- Between a word and what follows a gap, the text is cut. -/
theorem runs_word_blanks {gap : String} (isWord : IsWord word) (nonempty : gap ≠ "")
    (blank : AllBlank gap.toList) (text : List Char) :
    runs (word ++ (gap.toList ++ text)) = word :: runs text := by
  rw [runs_first_word isWord, runs_blanks_append blank]
  intro character starts
  rw [List.head?_append_of_ne_nil _ (String.toList_eq_nil_iff.not.mpr nonempty)] at starts
  exact blank character (List.mem_of_head? starts)

end Runs

/-! ### Words with blanks around them -/

section Words

variable {first : String} {gaps rest words : List String} {spacing : Spacing}

/-- Words with gaps between them are the runs of what they make up. -/
theorem runs_interleave (isWord : IsWord first.toList)
    (each : ∀ word ∈ rest, IsWord word.toList) (count : gaps.length = rest.length)
    (blank : ∀ gap ∈ gaps, gap ≠ "" ∧ AllBlank gap.toList) {back : List Char}
    (blankBack : AllBlank back) :
    runs (first.toList ++ (interleave gaps rest).toList ++ back) =
      (first :: rest).map String.toList := by
  induction rest generalizing first gaps with
  | nil =>
    have nothing : (interleave gaps []).toList = [] := by
      rw [List.eq_nil_of_length_eq_zero count]
      rfl
    rw [nothing, List.append_nil, runs_append_blanks blankBack, runs_word isWord]
    rfl
  | cons next others inductionHypothesis =>
    obtain ⟨gap, more, rfl⟩ := List.exists_cons_of_length_eq_add_one count
    obtain ⟨⟨nonempty, here⟩, later⟩ := List.forall_mem_cons.mp blank
    obtain ⟨isNext, areWords⟩ := List.forall_mem_cons.mp each
    have split : first.toList ++ (interleave (gap :: more) (next :: others)).toList ++ back =
        first.toList ++ (gap.toList ++
          (next.toList ++ (interleave more others).toList ++ back)) := by
      rw [interleave, String.toList_append, String.toList_append]
      simp only [List.append_assoc]
    rw [split, runs_word_blanks isWord nonempty here,
      inductionHypothesis isNext areWords (Nat.succ_inj.mp count) later]
    rfl

/-- Words with blanks around them are the words of the text that they make up. -/
theorem words_around (each : ∀ word ∈ words, IsWord word.toList) (fits : spacing.Fits words) :
    Text.words (spacing.around words) = words := by
  have read : runs (spacing.around words).toList = words.map String.toList := by
    cases words with
    | nil =>
      rw [Spacing.around, String.toList_append, runs_blanks_append fits.front,
        runs_of_blanks fits.back]
      rfl
    | cons first rest =>
      obtain ⟨isWord, others⟩ := List.forall_mem_cons.mp each
      rw [Spacing.around, String.toList_append, String.toList_append, String.toList_append,
        List.append_assoc, List.append_assoc, runs_blanks_append fits.front, ← List.append_assoc]
      exact runs_interleave isWord others fits.count fits.gaps fits.back
  rw [Text.words, read, List.map_map]
  exact (List.map_congr_left fun word _ => String.ofList_toList).trans (List.map_id _)

theorem isWord_of_mem_words {text word : String} (member : word ∈ Text.words text) :
    IsWord word.toList := by
  obtain ⟨run, found, rfl⟩ := List.mem_map.mp member
  rw [String.toList_ofList]
  exact (isWord_of_mem_runs found).1

/-- Words with single spaces between them are cut into the same words. -/
theorem words_joined (each : ∀ word ∈ words, IsWord word.toList) :
    Text.words (Text.joined " " words) = words := by
  have written : (Text.joined " " words).toList = [' '].intercalate (words.map String.toList) :=
    String.toList_intercalate
  rw [Text.words, written, runs_intercalate (List.forall_mem_map.mpr each), List.map_map]
  exact (List.map_congr_left fun word _ => String.ofList_toList).trans (List.map_id _)

/-- A word in front of a text whose front is a gap. -/
theorem around_cons (front word : String) (spacing : Spacing) (first : String)
    (rest : List String) :
    (Spacing.mk front (spacing.front :: spacing.gaps) spacing.back).around (word :: first :: rest) =
      front ++ word ++ spacing.around (first :: rest) := by
  simp only [Spacing.around, interleave, String.append_assoc]

theorem Spacing.Fits.cons {front next word : String} {others : List String}
    (fits : spacing.Fits (next :: others)) (blank : AllBlank front.toList)
    (gapped : spacing.front ≠ "") :
    (Spacing.mk front (spacing.front :: spacing.gaps) spacing.back).Fits
      (word :: next :: others) where
  front := blank
  count := congrArg Nat.succ fits.count
  gaps := List.forall_mem_cons.mpr ⟨⟨gapped, fits.front⟩, fits.gaps⟩
  back := fits.back

/-- Words do not start with blanks, so a text that does has something in front of its first word. -/
theorem front_ne_empty {next : String} {others : List String} (isWord : IsWord next.toList)
    (starts : ∀ character ∈ (spacing.around (next :: others)).toList.head?,
      isBlank character = true) :
    spacing.front ≠ "" := by
  intro nothing
  obtain ⟨character, later, spelled⟩ := List.exists_cons_of_ne_nil isWord.nonempty
  have blank : isBlank character = true := by
    refine starts character ?_
    rw [Spacing.around, nothing, String.empty_append, String.append_assoc, String.toList_append,
      spelled]
    rfl
  have solid := isWord.solid character (spelled ▸ List.mem_cons_self)
  rw [blank] at solid
  cases solid

/-- Every text is made of words with blanks around them. What is behind the first word starts with a
blank, unlike a word, so that there is a gap in front of the next one. -/
theorem exists_around (text : List Char) : ∃ (spacing : Spacing) (words : List String),
    (∀ word ∈ words, IsWord word.toList) ∧ spacing.Fits words ∧
      (spacing.around words).toList = text := by
  have noGaps : ∀ gap ∈ ([] : List String), gap ≠ "" ∧ AllBlank gap.toList :=
    fun _ absent => absurd absent List.not_mem_nil
  rcases exists_first_word text with
    blank | ⟨blanks, word, rest, split, blank, isWord, ends⟩
  · refine ⟨⟨String.ofList text, [], ""⟩, [], fun _ absent => absurd absent List.not_mem_nil,
      ⟨?_, rfl, noGaps, allBlank_nil⟩, ?_⟩
    · rwa [String.toList_ofList]
    · rw [Spacing.around, String.append_empty, String.toList_ofList]
  have shorter : rest.length < text.length := by
    have nonempty := List.length_pos_iff.mpr isWord.nonempty
    rw [split, List.length_append, List.length_append]
    omega
  obtain ⟨spacing, words, each, fits, whole⟩ := exists_around rest
  have isFirst : IsWord (String.ofList word).toList := by rwa [String.toList_ofList]
  have blankFront : AllBlank (String.ofList blanks).toList := by rwa [String.toList_ofList]
  cases words with
  | nil =>
    have blankBack : AllBlank (String.ofList rest).toList := by
      rw [String.toList_ofList, ← whole, Spacing.around, String.toList_append]
      exact List.forall_mem_append.mpr ⟨fits.front, fits.back⟩
    refine ⟨⟨String.ofList blanks, [], String.ofList rest⟩, [String.ofList word],
      List.forall_mem_singleton.mpr isFirst, ⟨blankFront, rfl, noGaps, blankBack⟩, ?_⟩
    simp only [Spacing.around, interleave, String.append_empty, String.toList_append,
      String.toList_ofList, split, List.append_assoc]
  | cons next others =>
    have gapped : spacing.front ≠ "" :=
      front_ne_empty (each next List.mem_cons_self) (whole.symm ▸ ends)
    refine ⟨⟨String.ofList blanks, spacing.front :: spacing.gaps, spacing.back⟩,
      String.ofList word :: next :: others, List.forall_mem_cons.mpr ⟨isFirst, each⟩,
      fits.cons blankFront gapped, ?_⟩
    rw [around_cons, String.toList_append, String.toList_append, whole, String.toList_ofList,
      String.toList_ofList, split, List.append_assoc]
termination_by text.length

/-- Cutting undoes spacing. Words with blanks around them are the words of the text that they make
up, and a run on the text is the run on the words. Every text is made in this way from its words
only. They are the pieces between its maximal runs of blanks, less the empty ones, and putting
single spaces between them changes none of them. -/
theorem words_spaced :
    (∀ (words : List String) (spacing : Spacing), (∀ word ∈ words, IsWord word.toList) →
      spacing.Fits words →
        Text.words (spacing.around words) = words ∧
        ∀ (simulator : Simulator) (limit : Nat),
          simulator.run limit (.text (spacing.around words)) =
            simulator.run limit (.tokens words)) ∧
    ∀ text : String,
      Text.words text =
        ((pieces text.toList).filter fun piece => !piece.isEmpty).map String.ofList ∧
      (∀ word ∈ Text.words text, IsWord word.toList) ∧
      Text.words (Text.joined " " (Text.words text)) = Text.words text ∧
      (∃ spacing : Spacing, spacing.Fits (Text.words text) ∧
        spacing.around (Text.words text) = text) ∧
      (∀ (words : List String) (spacing : Spacing), (∀ word ∈ words, IsWord word.toList) →
        spacing.Fits words → spacing.around words = text → words = Text.words text) ∧
      ∀ (simulator : Simulator) (limit : Nat),
        simulator.run limit (.text text) = simulator.run limit (.tokens (Text.words text)) := by
  refine ⟨fun words spacing each fits => ?_, fun text => ?_⟩
  · have same := words_around each fits
    refine ⟨same, fun simulator limit => ?_⟩
    rw [Simulator.run, Simulator.run, Input.toTokens, Input.toTokens, same]
  · refine ⟨by rw [Text.words, runs_eq_filter_pieces], fun _ => isWord_of_mem_words,
      words_joined fun _ => isWord_of_mem_words, ?_, ?_, fun _ _ => rfl⟩
    · obtain ⟨spacing, words, each, fits, whole⟩ := exists_around text.toList
      have made : spacing.around words = text := String.toList_inj.mp whole
      have same : Text.words text = words := made ▸ words_around each fits
      exact ⟨spacing, same.symm ▸ fits, same.symm ▸ made⟩
    · rintro words spacing each fits rfl
      exact (words_around each fits).symm

/-- Blanks of several kinds, some of them control characters. The zero-width space is none of them
and belongs to the last word. -/
theorem words_spaced_mixed :
    ∃ spacing : Spacing, spacing.Fits ["id", "+", "\u200bid"] ∧
      spacing.around ["id", "+", "\u200bid"] = "\t id\u00a0\x1f+\u3000\u200bid\r" ∧
      Text.words "\t id\u00a0\x1f+\u3000\u200bid\r" = ["id", "+", "\u200bid"] ∧
      ∀ (simulator : Simulator) (limit : Nat),
        simulator.run limit (.text "\t id\u00a0\x1f+\u3000\u200bid\r") =
          simulator.run limit (.tokens ["id", "+", "\u200bid"]) := by
  have each : ∀ word ∈ ["id", "+", "\u200bid"], IsWord word.toList := by decide +kernel
  have fits : (Spacing.mk "\t " ["\u00a0\x1f", "\u3000"] "\r").Fits ["id", "+", "\u200bid"] :=
    ⟨by decide +kernel, rfl, by decide +kernel, by decide +kernel⟩
  have whole : (Spacing.mk "\t " ["\u00a0\x1f", "\u3000"] "\r").around ["id", "+", "\u200bid"] =
      "\t id\u00a0\x1f+\u3000\u200bid\r" := by
    decide +kernel
  have only := (words_spaced.2 _).2.2.2.2.1 _ _ each fits whole
  obtain ⟨-, alike⟩ := words_spaced.1 _ _ each fits
  rw [whole] at alike
  exact ⟨_, fits, whole, only.symm, alike⟩

end Words

end Text

end ShiftReduce
