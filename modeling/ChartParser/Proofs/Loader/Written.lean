import ChartParser.Loader.Written
import ChartParser.Proofs.Text.Words
import Mathlib.Data.List.Forall2
import Mathlib.Data.List.ReduceOption

/-!
# Rules and the texts that write them

A line on which words are laid out is read as these words, and on every line some
words are laid out. So a text registers the rules that it writes, every list of
writable rules is written by some text, and no text writes anything else.
-/

namespace ChartParser

open Text

/-- White space is no part of a word. -/
theorem IsWord.not_mem {word : String} (isWord : IsWord word) {character : Char}
    (blank : isBlank character) : character ∉ word.toList := by
  intro member
  rw [isWord.2 character member] at blank
  cases blank

namespace LaidOut

variable {words : List String} {line : List Char}

/-- What is laid out are words. -/
theorem isWord (laid : LaidOut words line) : ∀ word ∈ words, IsWord word := by
  induction laid with
  | nothing => simp
  | blank isBlank onLine laid inductionHypothesis => exact inductionHypothesis
  | word isWord apart laid inductionHypothesis =>
      exact List.forall_mem_cons.mpr ⟨isWord, inductionHypothesis⟩

/-- No line feed stands among words that are laid out on a line. -/
theorem lineFeed_not_mem (laid : LaidOut words line) : '\n' ∉ line := by
  induction laid with
  | nothing => simp
  | blank isBlank onLine laid inductionHypothesis =>
      exact List.not_mem_cons_of_ne_of_not_mem onLine.symm inductionHypothesis
  | word isWord apart laid inductionHypothesis =>
      exact List.not_mem_append (isWord.not_mem (by decide)) inductionHypothesis

/-- The words of a line are those that are laid out on it. -/
theorem words_eq (laid : LaidOut words line) : Text.words (String.ofList line) = words := by
  induction laid with
  | nothing => rfl
  | blank isBlank onLine laid inductionHypothesis =>
      exact (words_cons isBlank _).trans inductionHypothesis
  | @word words rest word isWord apart laid inductionHypothesis =>
      have alone : Text.words (String.ofList word.toList) = [word] := by
        rw [words_of_free isWord.1 isWord.2, String.ofList_toList]
      cases rest with
      | nil =>
          rw [words_ofList_nil] at inductionHypothesis
          rw [List.append_nil, alone, ← inductionHypothesis]
      | cons next later =>
          have blank : isBlank next := apart next rfl
          rw [words_cons blank] at inductionHypothesis
          rw [words_append_cons blank, alone, inductionHypothesis]
          rfl

/-- Words are laid out with single spaces between them. -/
theorem intercalate (areWords : ∀ word ∈ words, IsWord word) :
    LaidOut words (" ".intercalate words).toList := by
  induction words with
  | nil => exact nothing
  | cons word words inductionHypothesis =>
      rw [List.forall_mem_cons] at areWords
      have later := inductionHypothesis areWords.2
      cases words with
      | nil =>
          rw [String.intercalate_singleton, ← List.append_nil word.toList]
          exact .word areWords.1 (by simp) nothing
      | cons next words =>
          have spaced : (" ".intercalate (word :: next :: words)).toList =
              word.toList ++ ' ' :: (" ".intercalate (next :: words)).toList := by
            rw [String.intercalate_cons_cons, String.toList_append, String.toList_append,
              List.append_assoc]
            rfl
          rw [spaced]
          exact .word areWords.1 (by simp; decide) (.blank (by decide) (by decide) later)

/-- Characters without white space are laid out as one more word. -/
theorem cons {characters : List Char} (nonempty : characters ≠ [])
    (free : ∀ character ∈ characters, isBlank character = false)
    (apart : ∀ next ∈ line.head?, isBlank next) (laid : LaidOut words line) :
    LaidOut (String.ofList characters :: words) (characters ++ line) := by
  have isWord : IsWord (String.ofList characters) := by
    rw [IsWord, String.toList_ofList]
    exact ⟨nonempty, free⟩
  have longer := LaidOut.word isWord apart laid
  rwa [String.toList_ofList] at longer

end LaidOut

/-- Words that are joined with single spaces are told apart again. -/
theorem words_intercalate_of_isWord {words : List String}
    (areWords : ∀ word ∈ words, IsWord word) : Text.words (" ".intercalate words) = words := by
  have laid := (LaidOut.intercalate areWords).words_eq
  rwa [String.ofList_toList] at laid

/-- On every line some words are laid out. -/
theorem exists_laidOut {line : List Char} (oneLine : '\n' ∉ line) :
    ∃ words, LaidOut words line := by
  induction line with
  | nil => exact ⟨[], .nothing⟩
  | cons character rest inductionHypothesis =>
      obtain ⟨words, laid⟩ := inductionHypothesis (List.not_mem_of_not_mem_cons oneLine)
      by_cases blank : isBlank character
      · exact ⟨words, .blank blank (List.ne_of_not_mem_cons oneLine).symm laid⟩
      · rw [Bool.not_eq_true] at blank
        -- The character is a word of its own, or begins the word that stands right after it.
        cases laid with
        | nothing =>
            exact ⟨_, .cons (List.cons_ne_nil character []) (by simpa using blank) (by simp)
              .nothing⟩
        | blank isBlank onLine laid =>
            exact ⟨_, .cons (List.cons_ne_nil character []) (by simpa using blank)
              (by simpa using isBlank) (.blank isBlank onLine laid)⟩
        | @word words rest word isWord apart laid =>
            exact ⟨_, .cons (List.cons_ne_nil character word.toList)
              (List.forall_mem_cons.mpr ⟨blank, isWord.2⟩) apart laid⟩

/-- The words for a rule are its parts, and the arrow. -/
theorem Registration.forall_onLine {registration : Registration} {arrow : String} :
    (∀ word ∈ registration.onLine arrow, IsWord word) ↔
      IsWord arrow ∧ registration.Writable := by
  cases registration <;> simp only [onLine, Writable, parts, List.forall_mem_cons] <;> tauto

/-- The words for a rule register it. -/
theorem Line.ofWords_onLine (registration : Registration) (arrow : String) :
    ofWords (registration.onLine arrow) = registered registration := by
  cases registration <;> rfl

/-- Neither three nor four words register anything. -/
theorem Line.ofWords_of_length {words : List String} (notThree : words.length ≠ 3)
    (notFour : words.length ≠ 4) : ofWords words = ignored words.length := by
  unfold ofWords
  split
  · exact absurd rfl notFour
  · exact absurd rfl notThree
  · rfl

/-- The rule that a line is read as, if it is read as one. -/
def ruleOn (line : List Char) : Option Registration :=
  (Line.read (String.ofList line)).registration?

/-- A line on which words are laid out is read as these words. -/
theorem LaidOut.ruleOn_eq {words : List String} {line : List Char} (laid : LaidOut words line) :
    ruleOn line = (Line.ofWords words).registration? := by
  rw [ruleOn, Line.read, laid.words_eq]

/-- White space at the end of a line does not count. -/
theorem ruleOn_concat {character : Char} (blank : isBlank character) (line : List Char) :
    ruleOn (line ++ [character]) = ruleOn line := by
  rw [ruleOn, Line.read, words_concat blank, ← Line.read, ← ruleOn]

/-- A carriage return at the end of a line does not count. -/
theorem ruleOn_dropFinal (line : List Char) : ruleOn (dropFinal '\r' line) = ruleOn line := by
  rw [ruleOn, Line.read, words_dropFinal, ← Line.read, ← ruleOn]

namespace LineWrites

variable {line : List Char} {written : Option Registration}

/-- A line that writes something or nothing is one line. -/
theorem lineFeed_not_mem (writes : LineWrites line written) : '\n' ∉ line := by
  cases writes with
  | rule laid => exact laid.lineFeed_not_mem
  | nothing laid => exact laid.lineFeed_not_mem

/-- What a line writes can be written. -/
theorem writable (writes : LineWrites line written) :
    ∀ registration ∈ written.toList, registration.Writable := by
  cases writes with
  | rule laid => simpa using (Registration.forall_onLine.mp laid.isWord).2
  | nothing => simp

/-- A line is read as the rule that it writes. -/
theorem ruleOn_eq (writes : LineWrites line written) : ruleOn line = written := by
  cases writes with
  | rule laid => rw [laid.ruleOn_eq, Line.ofWords_onLine, Line.registration?]
  | nothing laid notThree notFour =>
      rw [laid.ruleOn_eq, Line.ofWords_of_length notThree notFour, Line.registration?]

end LineWrites

/-- A line writes the rule that it is read as, or nothing. -/
theorem lineWrites_ruleOn {line : List Char} (oneLine : '\n' ∉ line) :
    LineWrites line (ruleOn line) := by
  obtain ⟨words, laid⟩ := exists_laidOut oneLine
  rw [laid.ruleOn_eq]
  by_cases four : words.length = 4
  · obtain ⟨name, arrow, left, right, rfl⟩ := List.length_eq_four.mp four
    exact .rule laid
  · by_cases three : words.length = 3
    · obtain ⟨name, arrow, token, rfl⟩ := List.length_eq_three.mp three
      exact .rule laid
    · rw [Line.ofWords_of_length three four]
      exact .nothing laid three four

/-- Every writable rule is written by some line. -/
theorem Registration.Writable.exists_line {registration : Registration}
    (writable : registration.Writable) : ∃ line, LineWrites line (some registration) := by
  have isArrow : IsWord "->" := ⟨by simp, by simp [isBlank]⟩
  exact ⟨_, .rule (LaidOut.intercalate (forall_onLine.mpr ⟨isArrow, writable⟩))⟩

/-- The rules that the lines of a text are read as, in order. -/
def registrationsIn (text : List Char) : List Registration :=
  (text.splitOn '\n').filterMap ruleOn

/-- A text of one unended line. -/
theorem registrationsIn_of_not_mem {line : List Char} (oneLine : '\n' ∉ line) :
    registrationsIn line = (ruleOn line).toList := by
  rw [registrationsIn, List.splitOn_eq_singleton oneLine]
  cases read : ruleOn line <;> simp [read]

/-- The first line of a text, and what follows it. -/
theorem registrationsIn_append_cons {line : List Char} (oneLine : '\n' ∉ line)
    (later : List Char) :
    registrationsIn (line ++ '\n' :: later) = (ruleOn line).toList ++ registrationsIn later := by
  rw [registrationsIn, List.splitOn_append_cons_self_of_not_mem oneLine]
  cases read : ruleOn line <;> simp [registrationsIn, read]

namespace Loading

/-- One more line registers its rule. -/
theorem grammar_readLine (loading : Loading) (line : String) :
    (loading.readLine line).grammar =
      loading.grammar.registerAll (Line.read line).registration?.toList := by
  rw [readLine]
  split <;> rename_i found <;> rw [found] <;> rfl

/-- Lines register their rules in order. -/
theorem grammar_foldl_readLine (loading : Loading) (lines : List String) :
    (lines.foldl readLine loading).grammar =
      loading.grammar.registerAll (lines.filterMap fun line => (Line.read line).registration?) := by
  induction lines generalizing loading with
  | nil => rfl
  | cons line lines inductionHypothesis =>
      refine (inductionHypothesis (loading.readLine line)).trans ?_
      rw [grammar_readLine, List.filterMap_cons]
      cases (Line.read line).registration? <;> rfl

/-- A text registers the rules of its lines: neither a carriage return at the end of a line nor an
empty line at the end of the text counts. -/
theorem grammar_readText (loading : Loading) (text : String) :
    (loading.readText text).grammar =
      loading.grammar.registerAll (registrationsIn text.toList) := by
  have read : (fun line => (Line.read line).registration?) ∘ String.ofList = ruleOn := rfl
  have returns : ruleOn ∘ dropFinal '\r' = ruleOn := funext ruleOn_dropFinal
  rw [readText, grammar_foldl_readLine, lines, List.filterMap_map, read, List.filterMap_append,
    List.filterMap_map, returns, registrationsIn, splitOn_eq_pieces, List.filterMap_append]
  cases rest : (pieces '\n' text.toList).rest <;> rfl

end Loading

namespace TextWrites

variable {text : List Char} {registrations : List Registration}

/-- The lines of a text are read as the rules that it writes. -/
theorem registrationsIn_eq (writes : TextWrites text registrations) :
    registrationsIn text = registrations := by
  induction writes with
  | nothing => rfl
  | unended first =>
      rw [registrationsIn_of_not_mem first.lineFeed_not_mem, first.ruleOn_eq]
  | @ended line ending later written rest first isEnding others inductionHypothesis =>
      rcases isEnding with rfl | rfl
      · rw [List.append_assoc, List.singleton_append,
          registrationsIn_append_cons first.lineFeed_not_mem, first.ruleOn_eq,
          inductionHypothesis]
      · -- The carriage return is white space at the end of the line.
        have oneLine : '\n' ∉ line ++ ['\r'] :=
          List.not_mem_append first.lineFeed_not_mem (by decide)
        have parts : line ++ ['\r', '\n'] ++ later = line ++ ['\r'] ++ '\n' :: later := by simp
        rw [parts, registrationsIn_append_cons oneLine, ruleOn_concat (by decide),
          first.ruleOn_eq, inductionHypothesis]

/-- A text writes only what can be written. -/
theorem writable (writes : TextWrites text registrations) :
    ∀ registration ∈ registrations, registration.Writable := by
  induction writes with
  | nothing => simp
  | unended first => exact first.writable
  | ended first isEnding others inductionHypothesis =>
      exact List.forall_mem_append.mpr ⟨first.writable, inductionHypothesis⟩

/-- Writable rules are written by a text, one to a line. -/
theorem exists_text (writable : ∀ registration ∈ registrations, registration.Writable) :
    ∃ text, TextWrites text registrations := by
  induction registrations with
  | nil => exact ⟨[], .nothing⟩
  | cons registration registrations inductionHypothesis =>
      rw [List.forall_mem_cons] at writable
      obtain ⟨line, first⟩ := writable.1.exists_line
      obtain ⟨text, others⟩ := inductionHypothesis writable.2
      exact ⟨_, .ended first (.inl rfl) others⟩

end TextWrites

/-- A text writes the rules that its lines are read as. -/
theorem textWrites_registrationsIn (text : List Char) : TextWrites text (registrationsIn text) := by
  induction text using pieces_induction '\n' with
  | unended line oneLine =>
      rw [registrationsIn_of_not_mem oneLine]
      exact .unended (lineWrites_ruleOn oneLine)
  | ended line later oneLine inductionHypothesis =>
      rw [registrationsIn_append_cons oneLine, ← List.singleton_append, ← List.append_assoc]
      exact .ended (lineWrites_ruleOn oneLine) (.inl rfl) inductionHypothesis

/-- A text writes the rules that its lines are read as and nothing else. -/
theorem textWrites_iff {text : List Char} {registrations : List Registration} :
    TextWrites text registrations ↔ registrationsIn text = registrations := by
  constructor
  · exact TextWrites.registrationsIn_eq
  · rintro rfl
    exact textWrites_registrationsIn text

/-- The lines of a text write the rules that they are read as one by one. -/
theorem exists_written (text : List Char) :
    ∃ written, List.Forall₂ LineWrites (text.splitOn '\n') written ∧
      written.reduceOption = registrationsIn text := by
  refine ⟨(text.splitOn '\n').map ruleOn, ?_, ?_⟩
  · rw [List.forall₂_map_right_iff, List.forall₂_same]
    intro line member
    exact lineWrites_ruleOn (not_mem_of_mem_splitOn '\n' text line member)
  · rw [List.reduceOption, List.filterMap_map]
    rfl

/-- Written rules are read back, whatever the layout; every list of writable rules can be written;
and every text registers what it writes, one rule or nothing for each of its lines. -/
theorem text_format_exact :
    (∀ loading text registrations, TextWrites (String.toList text) registrations →
      (Loading.readText loading text).grammar = loading.grammar.registerAll registrations) ∧
    (∀ registrations, (∃ text : String, TextWrites text.toList registrations) ↔
      ∀ registration ∈ registrations, Registration.Writable registration) ∧
    ∀ text : String, ∃ written,
      List.Forall₂ LineWrites (text.toList.splitOn '\n') written ∧
        (∀ registration ∈ written.reduceOption, registration.Writable) ∧
        ∀ loading, (Loading.readText loading text).grammar =
          loading.grammar.registerAll written.reduceOption := by
  refine ⟨?_, ?_, ?_⟩
  · intro loading text registrations writes
    rw [Loading.grammar_readText, writes.registrationsIn_eq]
  · intro registrations
    constructor
    · rintro ⟨text, writes⟩
      exact writes.writable
    · intro writable
      obtain ⟨text, writes⟩ := TextWrites.exists_text writable
      exact ⟨String.ofList text, by rwa [String.toList_ofList]⟩
  · intro text
    obtain ⟨written, lineByLine, together⟩ := exists_written text.toList
    refine ⟨written, lineByLine, ?_, ?_⟩
    · rw [together]
      exact (textWrites_registrationsIn text.toList).writable
    · intro loading
      rw [together]
      exact Loading.grammar_readText loading text

/-- A text with white space of several kinds, a remark between its rules and no end on its last
line. -/
def spacedText : String :=
  " S\t->\u00a0S S\u2028\r\nremarks may stand on lines\n\nS := a\r"

/-- The spaced text writes two rules. -/
theorem spaced_text_written :
    TextWrites spacedText.toList [.binary "S" "S" "S", .terminal "S" "a"] ∧
      ((Loading.onto (.empty "S")).readText spacedText).grammar =
        (Grammar.empty "S").registerAll [.binary "S" "S" "S", .terminal "S" "a"] := by
  have writes : TextWrites spacedText.toList [.binary "S" "S" "S", .terminal "S" "a"] :=
    textWrites_iff.mpr (by decide +kernel)
  exact ⟨writes, text_format_exact.1 _ _ _ writes⟩

end ChartParser
