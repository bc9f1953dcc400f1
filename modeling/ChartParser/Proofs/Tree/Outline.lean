import ChartParser.Tree.Outline

/-!
# Indented renderings and flat ones

Cut at its line feeds, an indented rendering is the outline of its tree behind
indentations. Without these the lines make up the flat rendering, and a root that
stands deeper moves every line by the same number of blanks.
-/

namespace ChartParser

namespace Tree

variable {tree : Tree} {above : Nat} {line : OutlineLine}

/-- The first line of a tree opens a bracket. -/
theorem exists_outlineBelow_eq_cons (above : Nat) (tree : Tree) :
    ∃ text later, tree.outlineBelow above = ⟨above, "[" ++ text⟩ :: later := by
  cases tree with
  | leaf symbol token =>
      exact ⟨symbol ++ " " ++ token ++ "]", [], by simp only [outlineBelow, String.append_assoc]⟩
  | node symbol left right => exact ⟨symbol, _, rfl⟩

/-- A tree has some line. -/
theorem outlineBelow_ne_nil (above : Nat) (tree : Tree) : tree.outlineBelow above ≠ [] := by
  obtain ⟨text, later, lines⟩ := tree.exists_outlineBelow_eq_cons above
  rw [lines]
  exact List.cons_ne_nil _ _

/-- A leaf has one line and a node two, and there is one node less than leaves. -/
theorem length_outlineBelow (above : Nat) (tree : Tree) :
    (tree.outlineBelow above).length + 2 = 3 * tree.leaves.length := by
  induction tree generalizing above with
  | leaf symbol token => rfl
  | node symbol left right leftHypothesis rightHypothesis =>
      have leftLines := leftHypothesis (above + 1)
      have rightLines := rightHypothesis (above + 1)
      simp only [outlineBelow, leaves, List.length_cons, List.length_append, List.length_nil]
      omega

/-- A line closes a bracket, or it begins with one that it opens. -/
theorem text_of_mem_outlineBelow (member : line ∈ tree.outlineBelow above) :
    line.text = "]" ∨ ∃ later, line.text.toList = '[' :: later := by
  induction tree generalizing above with
  | leaf symbol token =>
      obtain rfl := mem_outlineBelow_leaf.mp member
      exact Or.inr ⟨(symbol ++ " " ++ token ++ "]").toList, by simp⟩
  | node symbol left right leftHypothesis rightHypothesis =>
      rcases mem_outlineBelow_node.mp member with rfl | inLeft | inRight | rfl
      · exact Or.inr ⟨symbol.toList, by simp⟩
      · exact leftHypothesis inLeft
      · exact rightHypothesis inRight
      · exact Or.inl rfl

/-- No line of an unbroken tree is broken. -/
theorem Unbroken.lineFeed_not_mem (unbroken : tree.Unbroken)
    (member : line ∈ tree.outlineBelow above) : '\n' ∉ line.text.toList := by
  induction tree generalizing above with
  | leaf symbol token =>
      obtain rfl := mem_outlineBelow_leaf.mp member
      simpa [Unbroken] using unbroken
  | node symbol left right leftHypothesis rightHypothesis =>
      obtain ⟨symbolUnbroken, leftUnbroken, rightUnbroken⟩ := unbroken
      rcases mem_outlineBelow_node.mp member with rfl | inLeft | inRight | rfl
      · simpa using symbolUnbroken
      · exact leftHypothesis leftUnbroken inLeft
      · exact rightHypothesis rightUnbroken inRight
      · exact (by decide : '\n' ∉ "]".toList)

/-- The lines of an indented rendering are those of the outline. -/
theorem indentedAt_eq_intercalate (tree : Tree) (depth above : Nat) :
    tree.indentedAt (depth + above) =
      "\n".intercalate ((tree.outlineBelow above).map (OutlineLine.written depth)) := by
  induction tree generalizing above with
  | leaf symbol token =>
      simp [indentedAt, outlineBelow, OutlineLine.written, String.append_assoc]
  | node symbol left right leftHypothesis rightHypothesis =>
      have leftLines := left.outlineBelow_ne_nil (above + 1)
      have rightLines := right.outlineBelow_ne_nil (above + 1)
      simp only [outlineBelow, List.map_cons, List.map_append, List.map_nil]
      rw [String.intercalate_cons_of_ne_nil (by simp),
        String.intercalate_append_of_ne_nil (by simp [leftLines]) (by simp),
        String.intercalate_append_of_ne_nil (by simp [leftLines]) (by simp [rightLines]),
        String.intercalate_singleton, ← leftHypothesis, ← rightHypothesis]
      simp only [indentedAt, OutlineLine.written, Nat.add_assoc, String.append_assoc]

/-- The characters of an indentation. -/
theorem indentation_toList (depth : Nat) :
    (indentation depth).toList = List.replicate (4 * depth) ' ' := by
  rw [indentation, String.toList_ofList]

/-- Indentations add up. -/
theorem indentation_add (first second : Nat) :
    indentation (first + second) = indentation first ++ indentation second := by
  rw [← String.toList_inj, String.toList_append]
  simp only [indentation_toList, Nat.mul_add, List.replicate_append_replicate]

/-- Behind its indentation a line begins with a bracket. -/
theorem written_toList (member : line ∈ tree.outlineBelow above) (depth : Nat) :
    ∃ bracket later, (line.written depth).toList =
        List.replicate (4 * (depth + line.above)) ' ' ++ bracket :: later ∧
      (bracket = '[' ∨ bracket = ']') ∧ line.text.toList = bracket :: later := by
  rw [OutlineLine.written, String.toList_append, indentation_toList]
  rcases text_of_mem_outlineBelow member with closes | ⟨later, opens⟩
  · exact ⟨']', [], by rw [closes]; simp, Or.inr rfl, by rw [closes]; simp⟩
  · exact ⟨'[', later, by rw [opens], Or.inl rfl, opens⟩

/-- Cut at its line feeds, the rendering of an unbroken tree is its outline. -/
theorem Unbroken.cutLines_indentedAt (unbroken : tree.Unbroken) (depth : Nat) :
    Text.cutLines (tree.indentedAt depth) = tree.outline.map (OutlineLine.written depth) := by
  have whole : ∀ written ∈ tree.outline.map (OutlineLine.written depth),
      '\n' ∉ written.toList := by
    intro written member
    obtain ⟨line, inOutline, rfl⟩ := List.mem_map.mp member
    rw [OutlineLine.written, String.toList_append, indentation_toList, List.mem_append,
      List.mem_replicate]
    rintro (⟨_, blank⟩ | inText)
    · exact absurd blank (by decide)
    · exact unbroken.lineFeed_not_mem inOutline inText
  have lines := String.toList_split_intercalate whole
  rw [if_neg (by simp [outline, outlineBelow_ne_nil])] at lines
  rw [Text.cutLines, ← Nat.add_zero depth, indentedAt_eq_intercalate]
  exact lines

/-- Without its indentation, a line says what the outline says. -/
theorem unindented_written (member : line ∈ tree.outlineBelow above) (depth : Nat) :
    Text.unindented (line.written depth) = line.text := by
  obtain ⟨bracket, later, characters, isBracket, sameText⟩ := written_toList member depth
  have notBlank : ¬ (bracket == ' ') = true := by
    rcases isBracket with rfl | rfl <;> decide
  rw [Text.unindented, characters, ← String.toList_inj, String.toList_ofList, sameText,
    List.dropWhile_append_of_pos (by simp), List.dropWhile_cons, if_neg notBlank]

/-- A line that opens a bracket goes on behind a blank. -/
theorem continued_opening (text : String) :
    Text.continued ("[" ++ text) = " " ++ ("[" ++ text) := by
  refine if_neg fun closes => ?_
  have characters := congrArg String.toList closes
  simp at characters

/-- Put on one line behind others, the lines of a tree are its flat rendering behind a blank. -/
theorem join_continued (above : Nat) (tree : Tree) :
    String.join ((tree.outlineBelow above).map fun line => Text.continued line.text) =
      " " ++ tree.flat := by
  induction tree generalizing above with
  | leaf symbol token =>
      simp only [outlineBelow, flat, List.map_cons, List.map_nil, String.join_cons,
        String.join_nil, String.append_assoc, continued_opening, String.append_empty]
  | node symbol left right leftHypothesis rightHypothesis =>
      have closing : Text.continued "]" = "]" := rfl
      simp only [outlineBelow, List.map_cons, List.map_append, List.map_nil, String.join_cons,
        String.join_append, String.join_nil, leftHypothesis, rightHypothesis, continued_opening,
        closing, flat, String.append_assoc, String.append_empty]

/-- The lines of a tree, put on one line, are its flat rendering. -/
theorem onOneLine_outline (tree : Tree) :
    Text.onOneLine (tree.outline.map OutlineLine.text) = tree.flat := by
  have joined := join_continued 0 tree
  obtain ⟨text, later, lines⟩ := tree.exists_outlineBelow_eq_cons 0
  rw [lines, List.map_cons, String.join_cons, continued_opening, String.append_assoc,
    String.append_right_inj] at joined
  rw [outline, lines, List.map_cons, Text.onOneLine, List.map_map]
  exact joined

/-- The indented rendering of an unbroken tree has three lines for every leaf but two, those of the
outline behind four blanks for every level, and a bracket follows the blanks. Without them, and with
single blanks in front of all lines but the first and those that just close a bracket, the lines are
the flat rendering. Where the root stands deeper, every line begins with that many more blanks. -/
theorem indentedAt_outlines_flat (unbroken : tree.Unbroken) (depth shift : Nat) :
    (Text.cutLines (tree.indentedAt depth)).length = 3 * tree.leaves.length - 2 ∧
    Text.cutLines (tree.indentedAt depth) = tree.outline.map (OutlineLine.written depth) ∧
    (∀ line ∈ tree.outline, ∃ bracket later, (line.written depth).toList =
        List.replicate (4 * (depth + line.above)) ' ' ++ bracket :: later ∧
      (bracket = '[' ∨ bracket = ']')) ∧
    Text.onOneLine ((Text.cutLines (tree.indentedAt depth)).map Text.unindented) = tree.flat ∧
    tree.indentedAt (depth + shift) = "\n".intercalate
      ((Text.cutLines (tree.indentedAt depth)).map fun line => indentation shift ++ line) := by
  rw [unbroken.cutLines_indentedAt depth]
  refine ⟨?_, rfl, ?_, ?_, ?_⟩
  · have lines := length_outlineBelow 0 tree
    rw [List.length_map, outline]
    omega
  · intro line member
    obtain ⟨bracket, later, characters, isBracket, _⟩ := written_toList member depth
    exact ⟨bracket, later, characters, isBracket⟩
  · rw [List.map_map, ← onOneLine_outline]
    congr 1
    exact List.map_congr_left fun line member => unindented_written member depth
  · have shifted : OutlineLine.written (depth + shift) =
        fun line => indentation shift ++ line.written depth := by
      funext line
      rw [OutlineLine.written, OutlineLine.written, ← String.append_assoc, ← indentation_add]
      congr 2
      omega
    rw [← Nat.add_zero (depth + shift), indentedAt_eq_intercalate, shifted, List.map_map]
    rfl

/-- A tree with blanks and brackets in its symbols and tokens. -/
def bracketed : Tree :=
  .node " S" (.leaf "" "]") (.node "[" (.leaf "A" "") (.leaf "B" "b c"))

/-- The bracketed tree is written in seven lines. They make up its flat rendering, and stay the same
behind more blanks when the root stands two levels deeper. -/
theorem bracketed_outline :
    bracketed.Unbroken ∧
      Text.cutLines (bracketed.indentedAt 1) =
        ["    [ S", "        [ ]]", "        [[", "            [A ]", "            [B b c]",
          "        ]", "    ]"] ∧
      Text.onOneLine ((Text.cutLines (bracketed.indentedAt 1)).map Text.unindented) =
        "[ S [ ]] [[ [A ] [B b c]]]" ∧
      bracketed.indentedAt 3 = "\n".intercalate
        ((Text.cutLines (bracketed.indentedAt 1)).map fun line => "        " ++ line) := by
  have unbroken : bracketed.Unbroken := by decide
  obtain ⟨_, lines, _, flat, shifted⟩ := indentedAt_outlines_flat unbroken 1 2
  exact ⟨unbroken, lines.trans (by decide +kernel), flat.trans (by decide +kernel), shifted⟩

end Tree

end ChartParser
