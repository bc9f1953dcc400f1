import ChartParser.Text.Blank
import ChartParser.Text.Lines
import ChartParser.Proofs.Text.Pieces

/-!
# Words of a text

White space takes the words before it apart from the words after it, and adds
none. So white space at the end of a line does not count, and texts that are
joined with spaces have the words of each text and no others.
-/

namespace ChartParser.Text

/-- Words before white space are told apart from words after it. -/
theorem words_append_cons {character : Char} (blank : isBlank character)
    (first second : List Char) :
    words (String.ofList (first ++ character :: second)) =
      words (String.ofList first) ++ words (String.ofList second) := by
  simp only [words, String.toList_ofList, List.splitOnP_append_cons first second blank,
    List.filter_append, List.map_append]

/-- No word stands on an empty line. -/
theorem words_ofList_nil : words (String.ofList []) = [] :=
  rfl

/-- White space at the beginning does not count. -/
theorem words_cons {character : Char} (blank : isBlank character) (rest : List Char) :
    words (String.ofList (character :: rest)) = words (String.ofList rest) :=
  words_append_cons blank [] rest

/-- What is not empty and holds no white space is one word. -/
theorem words_of_free {characters : List Char} (nonempty : characters ≠ [])
    (free : ∀ character ∈ characters, isBlank character = false) :
    words (String.ofList characters) = [String.ofList characters] := by
  rw [words, String.toList_ofList, List.splitOnP_eq_singleton free]
  simp [nonempty]

/-- White space at the end does not count. -/
theorem words_concat {character : Char} (blank : isBlank character) (before : List Char) :
    words (String.ofList (before ++ [character])) = words (String.ofList before) := by
  rw [words_append_cons blank, words_ofList_nil, List.append_nil]

/-- A final carriage return does not count. -/
theorem words_dropFinal (line : List Char) :
    words (String.ofList (dropFinal '\r' line)) = words (String.ofList line) := by
  rcases dropFinal_cases '\r' line with same | longer
  · rw [same]
  · have apart := words_concat (by decide : isBlank '\r') (dropFinal '\r' line)
    rw [← longer] at apart
    exact apart.symm

/-- Words before a space are told apart from words after it. -/
theorem words_append_space (first second : String) :
    words (first ++ " " ++ second) = words first ++ words second := by
  have characters : first ++ " " ++ second =
      String.ofList (first.toList ++ ' ' :: second.toList) := by
    rw [← String.toList_inj, String.toList_ofList, String.toList_append, String.toList_append,
      List.append_assoc]
    rfl
  rw [characters, words_append_cons (by decide), String.ofList_toList, String.ofList_toList]

/-- Texts that are joined with single spaces have the words of each of them, in order. -/
theorem words_intercalate (texts : List String) :
    words (" ".intercalate texts) = texts.flatMap words := by
  induction texts with
  | nil => rfl
  | cons text texts inductionHypothesis =>
      cases texts with
      | nil => rw [String.intercalate_singleton, List.flatMap_singleton]
      | cons next later =>
          rw [List.flatMap_cons, ← inductionHypothesis, String.intercalate_cons_cons,
            words_append_space]

end ChartParser.Text
