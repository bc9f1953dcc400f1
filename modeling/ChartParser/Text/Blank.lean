/-!
# White space

Words are told apart by characters of Unicode's White_Space property. The
class is wider than the blanks of ASCII and leaves out characters that only
look empty, such as the zero-width space.
-/

namespace ChartParser.Text

/-- Whether a character has the White_Space property. -/
def isBlank (character : Char) : Bool :=
  let code := character.toNat
  (0x0009 ≤ code && code ≤ 0x000D) || code == 0x0020 || code == 0x0085 || code == 0x00A0 ||
    code == 0x1680 || (0x2000 ≤ code && code ≤ 0x200A) || code == 0x2028 || code == 0x2029 ||
    code == 0x202F || code == 0x205F || code == 0x3000

/-- The maximal runs of characters that are not white space, in order. -/
def words (text : String) : List String :=
  ((text.toList.splitOnP isBlank).filter fun run => !run.isEmpty).map String.ofList

/-- The text without the white space at either end. -/
def trim (text : String) : String :=
  let withoutLeading := text.toList.dropWhile isBlank
  String.ofList (withoutLeading.reverse.dropWhile isBlank).reverse

/-- Cutting at a class of characters leaves none of them in the pieces. -/
theorem free_of_mem_splitOnPPrepend {separates : Char → Bool}
    {characters reversed piece : List Char}
    (free : ∀ character ∈ reversed, separates character = false)
    (member : piece ∈ characters.splitOnPPrepend separates reversed) :
    ∀ character ∈ piece, separates character = false := by
  induction characters generalizing reversed with
  | nil =>
      simp only [List.splitOnPPrepend, List.mem_singleton] at member
      subst member
      simpa using free
  | cons first rest inductionHypothesis =>
      unfold List.splitOnPPrepend at member
      split at member
      · rcases List.mem_cons.mp member with same | later
        · subst same
          simpa using free
        · exact inductionHypothesis (by simp) later
      · rename_i inside
        refine inductionHypothesis ?_ member
        simp only [List.mem_cons, forall_eq_or_imp]
        exact ⟨by simpa using inside, free⟩

/-- A word is not empty and holds no white space. -/
theorem mem_words {text word : String} (member : word ∈ words text) :
    word.toList ≠ [] ∧ ∀ character ∈ word.toList, isBlank character = false := by
  simp only [words, List.mem_map, List.mem_filter] at member
  obtain ⟨run, ⟨cut, nonempty⟩, rfl⟩ := member
  refine ⟨by simpa using nonempty, ?_⟩
  rw [String.toList_ofList]
  exact free_of_mem_splitOnPPrepend (by simp) cut

end ChartParser.Text
