import ChartParser.Proofs.Loader.Outcome
import ChartParser.Proofs.Loader.Written

/-!
# Loading a text in parts

A line feed ends a line whatever follows it, so a text can be cut behind each of its
line feeds and loaded part by part. Where a part is cut before a line feed, its last
line may keep a carriage return; that is white space, and the grammar is the same.
-/

namespace ChartParser

open Text

/-- A line feed and what follows it stand apart from what is before them. -/
theorem pieces_lineFeed (first second : String) :
    pieces '\n' (first ++ "\n" ++ second).toList =
      ⟨(pieces '\n' first.toList).ended ++
          (pieces '\n' first.toList).rest :: (pieces '\n' second.toList).ended,
        (pieces '\n' second.toList).rest⟩ := by
  rw [String.toList_append, String.toList_append, List.append_assoc]
  exact pieces_append_terminator first.toList second.toList

/-- A text that does not end in a carriage return has none at the end of its last line. -/
theorem getLast?_rest_ne {text : String} (other : text.toList.getLast? ≠ some '\r') :
    (pieces '\n' text.toList).rest.getLast? ≠ some '\r' := by
  intro last
  have nonempty : (pieces '\n' text.toList).rest ≠ [] := by
    intro empty
    rw [empty] at last
    cases last
  apply other
  rw [← joined_pieces '\n' text.toList, List.getLast?_append_of_ne_nil _ nonempty, last]

namespace Loading

/-- Lines that are read in two goes are read one after the other. -/
theorem readEnded_append (loading : Loading) (first second : List String) :
    loading.readEnded (first ++ second) = (loading.readEnded first).readEnded second := by
  simp only [readEnded, List.foldl_append]

/-- What is before a line feed is loaded first. Its last line is read without a carriage return at
its end. -/
theorem readText_lineFeed (loading : Loading) (first second : String) :
    loading.readText (first ++ "\n" ++ second) =
      ((loading.readEnded ((pieces '\n' first.toList).ended.map String.ofList)).readLine
        (String.ofList (dropFinal '\r' (pieces '\n' first.toList).rest))).readText second := by
  rw [readText_eq, readText_eq _ second, pieces_lineFeed, List.map_append, List.map_cons,
    readEnded_append]
  simp only [readEnded, List.foldl_cons, String.toList_ofList]

/-- An empty text changes nothing. -/
@[simp] theorem readText_empty (loading : Loading) : loading.readText "" = loading :=
  rfl

/-- A text that ends in a line feed is loaded before what follows it. -/
theorem readText_append (loading : Loading) (first second : String) :
    loading.readText (first ++ "\n" ++ second) =
      (loading.readText (first ++ "\n")).readText second := by
  have ended := loading.readText_lineFeed first ""
  rw [String.append_empty, readText_empty] at ended
  rw [readText_lineFeed, ended]

/-- A carriage return at the end of a line changes nothing in the grammar. -/
theorem grammar_readLine_dropFinal (loading : Loading) (line : List Char) :
    (loading.readLine (String.ofList (dropFinal '\r' line))).grammar =
      (loading.readLine (String.ofList line)).grammar := by
  rw [grammar_readLine, grammar_readLine, Line.read, words_dropFinal, ← Line.read]

/-- What a text registers does not depend on what has been logged before it. -/
theorem grammar_readText_congr {loading other : Loading} (same : loading.grammar = other.grammar)
    (text : String) : (loading.readText text).grammar = (other.readText text).grammar := by
  rw [grammar_readText, grammar_readText, same]

/-- Two texts with a line feed between them leave the grammar that they leave one after the other.
Nothing else that is loaded depends on the cut either, unless the first text ends in a carriage
return. Without a line feed between them that holds of every first text that is empty or ends in a
line feed. -/
theorem readText_in_parts (loading : Loading) (first second : String) :
    (loading.readText (first ++ "\n" ++ second)).grammar =
        ((loading.readText first).readText second).grammar ∧
      (first.toList.getLast? ≠ some '\r' →
        loading.readText (first ++ "\n" ++ second) = (loading.readText first).readText second) ∧
      ((first = "" ∨ ∃ before, first = before ++ "\n") →
        loading.readText (first ++ second) = (loading.readText first).readText second) := by
  refine ⟨?_, ?_, ?_⟩
  · rw [readText_lineFeed, readText_eq loading first]
    exact grammar_readText_congr (grammar_readLine_dropFinal _ _) second
  · intro other
    rw [readText_lineFeed, readText_eq loading first,
      dropFinal_of_getLast?_ne (getLast?_rest_ne other)]
  · rintro (rfl | ⟨before, rfl⟩)
    · rw [String.empty_append, readText_empty]
    · exact loading.readText_append before second

/-- A carriage return before the seam ends its line together with a line feed there. The grammar
does not depend on the cut, but the log of a line that says nothing shows the carriage return. -/
theorem carriage_return_at_seam :
    ((onto (.empty "S")).readText ("S -> a\r" ++ "\n" ++ "\nS -> S S")).grammar =
        (((onto (.empty "S")).readText "S -> a\r").readText "\nS -> S S").grammar ∧
      ((onto (.empty "S")).readText "S\r\n").events = #[.skippedLine 1 "S"] ∧
      ((onto (.empty "S")).readText "S\r").events = #[.skippedLine 1 "S\r"] ∧
      (onto (.empty "S")).readText ("S -> a" ++ "\n" ++ "\rS -> S S") =
        ((onto (.empty "S")).readText "S -> a").readText "\rS -> S S" ∧
      (onto (.empty "S")).readText ("S -> a\r\n" ++ "\n") =
        ((onto (.empty "S")).readText "S -> a\r\n").readText "\n" := by
  have withReturn := readText_in_parts (onto (.empty "S")) "S -> a\r" "\nS -> S S"
  have without := readText_in_parts (onto (.empty "S")) "S -> a" "\rS -> S S"
  have ended := readText_in_parts (onto (.empty "S")) "S -> a\r\n" "\n"
  exact ⟨withReturn.1, rfl, rfl, without.2.1 (by decide), ended.2.2 (.inr ⟨"S -> a\r", rfl⟩)⟩

end Loading

end ChartParser
