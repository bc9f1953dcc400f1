import ChartParser.Tree.Readable

/-!
# Renderings read from the left

Whatever follows the rendering of a readable tree, the tree can be told from the
text: a flat rendering ends where its first bracket is closed, an indented one
where its lines do. So two texts that begin with renderings are equal only if
the trees are equal and the texts go on alike.
-/

namespace ChartParser

/-- What stands before the first separator can be told, and so can the separator. -/
theorem eq_of_cut {Item : Type} (Separates : Item → Prop) {first second : List Item}
    {firstCut secondCut : Item} {firstRest secondRest : List Item}
    (firstFree : ∀ item ∈ first, ¬ Separates item) (firstSeparates : Separates firstCut)
    (secondFree : ∀ item ∈ second, ¬ Separates item) (secondSeparates : Separates secondCut)
    (same : first ++ firstCut :: firstRest = second ++ secondCut :: secondRest) :
    first = second ∧ firstCut = secondCut ∧ firstRest = secondRest := by
  induction first generalizing second with
  | nil =>
      cases second with
      | nil => exact ⟨rfl, List.cons.inj same⟩
      | cons item later =>
          obtain ⟨rfl, _⟩ := List.cons.inj same
          exact absurd firstSeparates (secondFree _ List.mem_cons_self)
  | cons item later inductionHypothesis =>
      rw [List.forall_mem_cons] at firstFree
      cases second with
      | nil =>
          obtain ⟨rfl, _⟩ := List.cons.inj same
          exact absurd secondSeparates firstFree.1
      | cons other others =>
          rw [List.forall_mem_cons] at secondFree
          obtain ⟨rfl, tails⟩ := List.cons.inj same
          obtain ⟨rfl, rests⟩ := inductionHypothesis firstFree.2 secondFree.2 tails
          exact ⟨rfl, rests⟩

/-- What stands before the first occurrence of an item can be told. -/
theorem eq_of_cut_at {Item : Type} {cut : Item} {first second firstRest secondRest : List Item}
    (firstFree : cut ∉ first) (secondFree : cut ∉ second)
    (same : first ++ cut :: firstRest = second ++ cut :: secondRest) :
    first = second ∧ firstRest = secondRest := by
  have free : ∀ {items : List Item}, cut ∉ items → ∀ item ∈ items, ¬ item = cut := by
    rintro items absent item member rfl
    exact absent member
  obtain ⟨parts, _, rests⟩ := eq_of_cut (· = cut) (free firstFree) rfl (free secondFree) rfl same
  exact ⟨parts, rests⟩

namespace Tree

variable {symbol otherSymbol : Symbol} {token otherToken : Token} {left right first second : Tree}
  {firstRest secondRest : List Char} {layout : Layout}

/-- The characters of a leaf on one line. -/
theorem flat_leaf_toList (symbol : Symbol) (token : Token) :
    (leaf symbol token).flat.toList =
      '[' :: (symbol.toList ++ ' ' :: (token.toList ++ [']'])) := by
  simp [flat]

/-- The characters of a node on one line. -/
theorem flat_node_toList (symbol : Symbol) (left right : Tree) :
    (node symbol left right).flat.toList =
      '[' :: (symbol.toList ++
        ' ' :: (left.flat.toList ++ ' ' :: (right.flat.toList ++ [']']))) := by
  simp [flat]

/-- A flat rendering begins with a bracket. -/
theorem exists_flat_toList (tree : Tree) : ∃ later, tree.flat.toList = '[' :: later := by
  cases tree with
  | leaf symbol token => exact ⟨_, flat_leaf_toList symbol token⟩
  | node symbol left right => exact ⟨_, flat_node_toList symbol left right⟩

/-- A token is not taken for a derivation. -/
theorem token_ne_flat (admitted : Layout.flat.AdmitsToken token) (tree : Tree) :
    token.toList ++ ']' :: firstRest ≠ tree.flat.toList ++ secondRest := by
  obtain ⟨later, bracket⟩ := tree.exists_flat_toList
  intro same
  rw [bracket] at same
  cases characters : token.toList with
  | nil => simp [characters] at same
  | cons character others =>
      rw [characters, List.cons_append, List.cons_append] at same
      have opens : character = '[' := (List.cons.inj same).1
      exact admitted.2 (by rw [characters, opens]; rfl)

/-- A text that begins with the flat rendering of a readable tree begins with no other, and what
follows can be told. -/
theorem eq_of_flat_append (firstReadable : first.Readable .flat)
    (secondReadable : second.Readable .flat)
    (same : first.flat.toList ++ firstRest = second.flat.toList ++ secondRest) :
    first = second ∧ firstRest = secondRest := by
  induction first generalizing second firstRest secondRest with
  | leaf symbol token =>
      cases second with
      | leaf otherSymbol otherToken =>
          simp only [flat_leaf_toList, List.cons_append, List.append_assoc, List.nil_append,
            List.cons.injEq, true_and] at same
          obtain ⟨symbols, parts⟩ := eq_of_cut_at firstReadable.1 secondReadable.1 same
          obtain ⟨tokens, rests⟩ := eq_of_cut_at firstReadable.2.1 secondReadable.2.1 parts
          rw [String.toList_inj] at symbols tokens
          exact ⟨by rw [symbols, tokens], rests⟩
      | node otherSymbol left right =>
          simp only [flat_leaf_toList, flat_node_toList, List.cons_append, List.append_assoc,
            List.nil_append, List.cons.injEq, true_and] at same
          obtain ⟨_, parts⟩ := eq_of_cut_at firstReadable.1 secondReadable.1 same
          exact absurd parts (token_ne_flat firstReadable.2 left)
  | node symbol left right leftHypothesis rightHypothesis =>
      cases second with
      | leaf otherSymbol otherToken =>
          simp only [flat_leaf_toList, flat_node_toList, List.cons_append, List.append_assoc,
            List.nil_append, List.cons.injEq, true_and] at same
          obtain ⟨_, parts⟩ := eq_of_cut_at firstReadable.1 secondReadable.1 same
          exact absurd parts.symm (token_ne_flat secondReadable.2 left)
      | node otherSymbol otherLeft otherRight =>
          simp only [flat_node_toList, List.cons_append, List.append_assoc, List.nil_append,
            List.cons.injEq, true_and] at same
          obtain ⟨symbols, parts⟩ := eq_of_cut_at firstReadable.1 secondReadable.1 same
          obtain ⟨rfl, afterLeft⟩ := leftHypothesis firstReadable.2.1 secondReadable.2.1 parts
          obtain ⟨rfl, afterRight⟩ := rightHypothesis firstReadable.2.2 secondReadable.2.2
            (List.cons.inj afterLeft).2
          rw [String.toList_inj] at symbols
          exact ⟨by rw [symbols], (List.cons.inj afterRight).2⟩

/-- The characters of a leaf on a line of its own. -/
theorem indentedAt_leaf_toList (depth : Nat) (symbol : Symbol) (token : Token) :
    ((leaf symbol token).indentedAt depth).toList = (indentation depth).toList ++
      '[' :: (symbol.toList ++ ' ' :: (token.toList ++ [']'])) := by
  simp [indentedAt]

/-- The characters of a node over several lines. -/
theorem indentedAt_node_toList (depth : Nat) (symbol : Symbol) (left right : Tree) :
    ((node symbol left right).indentedAt depth).toList = (indentation depth).toList ++
      '[' :: (symbol.toList ++ '\n' :: ((left.indentedAt (depth + 1)).toList ++
        '\n' :: ((right.indentedAt (depth + 1)).toList ++
          '\n' :: ((indentation depth).toList ++ [']'])))) := by
  simp [indentedAt]

/-- The first line of a derivation begins with its symbol, and the character behind the symbol says
whether it is a leaf or a node. -/
theorem eq_of_opening {firstCut secondCut : Char}
    (firstAdmitted : Layout.indented.AdmitsSymbol symbol)
    (secondAdmitted : Layout.indented.AdmitsSymbol otherSymbol)
    (firstSeparates : firstCut = ' ' ∨ firstCut = '\n')
    (secondSeparates : secondCut = ' ' ∨ secondCut = '\n')
    (same : symbol.toList ++ firstCut :: firstRest =
      otherSymbol.toList ++ secondCut :: secondRest) :
    symbol = otherSymbol ∧ firstCut = secondCut ∧ firstRest = secondRest := by
  have free : ∀ {name : Symbol}, Layout.indented.AdmitsSymbol name →
      ∀ character ∈ name.toList, ¬ (character = ' ' ∨ character = '\n') := by
    rintro name ⟨noBlank, noFeed⟩ character member (rfl | rfl)
    · exact noBlank member
    · exact noFeed member
  have parts := eq_of_cut (fun character => character = ' ' ∨ character = '\n')
    (free firstAdmitted) firstSeparates (free secondAdmitted) secondSeparates same
  rwa [String.toList_inj] at parts

/-- A text that begins with the lines of a readable tree begins with the lines of no other one at
the same depth, and what follows can be told. -/
theorem eq_of_indentedAt_append {depth : Nat} (firstReadable : first.Readable .indented)
    (secondReadable : second.Readable .indented)
    (same : (first.indentedAt depth).toList ++ '\n' :: firstRest =
      (second.indentedAt depth).toList ++ '\n' :: secondRest) :
    first = second ∧ firstRest = secondRest := by
  induction first generalizing second depth firstRest secondRest with
  | leaf symbol token =>
      cases second with
      | leaf otherSymbol otherToken =>
          simp only [indentedAt_leaf_toList, List.cons_append, List.append_assoc,
            List.append_cancel_left_eq, List.cons.injEq, true_and] at same
          obtain ⟨rfl, _, parts⟩ := eq_of_opening firstReadable.1 secondReadable.1 (.inl rfl)
            (.inl rfl) same
          -- The bracket behind the token is the last character of its line.
          have lines : token.toList ++ [']'] ++ '\n' :: firstRest =
              otherToken.toList ++ [']'] ++ '\n' :: secondRest := by
            simpa using parts
          obtain ⟨tokens, rests⟩ := eq_of_cut_at
            (List.not_mem_append firstReadable.2 (by decide))
            (List.not_mem_append secondReadable.2 (by decide)) lines
          rw [List.append_cancel_right_eq, String.toList_inj] at tokens
          exact ⟨by rw [tokens], rests⟩
      | node otherSymbol left right =>
          simp only [indentedAt_leaf_toList, indentedAt_node_toList, List.cons_append,
            List.append_assoc, List.append_cancel_left_eq, List.cons.injEq, true_and] at same
          obtain ⟨_, isNode, _⟩ := eq_of_opening firstReadable.1 secondReadable.1 (.inl rfl)
            (.inr rfl) same
          exact absurd isNode (by decide)
  | node symbol left right leftHypothesis rightHypothesis =>
      cases second with
      | leaf otherSymbol otherToken =>
          simp only [indentedAt_leaf_toList, indentedAt_node_toList, List.cons_append,
            List.append_assoc, List.append_cancel_left_eq, List.cons.injEq, true_and] at same
          obtain ⟨_, isLeaf, _⟩ := eq_of_opening firstReadable.1 secondReadable.1 (.inr rfl)
            (.inl rfl) same
          exact absurd isLeaf (by decide)
      | node otherSymbol otherLeft otherRight =>
          simp only [indentedAt_node_toList, List.cons_append, List.append_assoc,
            List.append_cancel_left_eq, List.cons.injEq, true_and] at same
          obtain ⟨rfl, _, parts⟩ := eq_of_opening firstReadable.1 secondReadable.1 (.inr rfl)
            (.inr rfl) same
          obtain ⟨rfl, afterLeft⟩ := leftHypothesis firstReadable.2.1 secondReadable.2.1 parts
          obtain ⟨rfl, afterRight⟩ := rightHypothesis firstReadable.2.2 secondReadable.2.2 afterLeft
          simp only [List.append_cancel_left_eq, List.cons.injEq, true_and,
            List.nil_append] at afterRight
          exact ⟨rfl, afterRight⟩

/-- In either layout a line feed behind a rendering leaves no doubt about the tree. -/
theorem eq_of_render_append (firstReadable : first.Readable layout)
    (secondReadable : second.Readable layout)
    (same : (first.render layout).toList ++ '\n' :: firstRest =
      (second.render layout).toList ++ '\n' :: secondRest) :
    first = second ∧ firstRest = secondRest := by
  cases layout with
  | flat =>
      obtain ⟨trees, rests⟩ := eq_of_flat_append firstReadable secondReadable same
      exact ⟨trees, (List.cons.inj rests).2⟩
  | indented => exact eq_of_indentedAt_append firstReadable secondReadable same

/-- A rendering begins with a bracket. -/
theorem exists_render_toList (tree : Tree) (layout : Layout) :
    ∃ later, (tree.render layout).toList = '[' :: later := by
  cases layout with
  | flat => exact tree.exists_flat_toList
  | indented =>
      cases tree with
      | leaf symbol token => exact ⟨_, indentedAt_leaf_toList 0 symbol token⟩
      | node symbol left right => exact ⟨_, indentedAt_node_toList 0 symbol left right⟩

/-- A text that begins with flat renderings of two readable trees begins with one rendering of one
tree, whatever follows it. So a flat rendering that is read from the left determines the tree, with
its shape and its tokens in order. -/
theorem flat_append_eq_iff (firstReadable : first.Readable .flat)
    (secondReadable : second.Readable .flat) (firstRest secondRest : String) :
    first.flat ++ firstRest = second.flat ++ secondRest ↔
      first = second ∧ firstRest = secondRest := by
  constructor
  · intro same
    have characters := congrArg String.toList same
    rw [String.toList_append, String.toList_append] at characters
    obtain ⟨trees, rests⟩ := eq_of_flat_append firstReadable secondReadable characters
    exact ⟨trees, String.toList_inj.mp rests⟩
  · rintro ⟨rfl, rfl⟩
    rfl

/-- Brackets in symbols and blanks in tokens leave no doubt whether a leaf or a node comes behind a
first child. A token of two bracketed parts is not admitted: it would be taken for two children. -/
theorem bracketed_symbols_told_apart :
    Readable .flat (.node "[S" (.leaf "" "a b") (.leaf "]" "")) ∧
      Readable .flat (.node "[S" (.leaf "" "a b") (.node "]" (.leaf "" "") (.leaf "" ""))) ∧
      (∀ firstRest secondRest,
        flat (.node "[S" (.leaf "" "a b") (.leaf "]" "")) ++ firstRest ≠
          flat (.node "[S" (.leaf "" "a b") (.node "]" (.leaf "" "") (.leaf "" ""))) ++
            secondRest) ∧
      ¬ Readable .flat (.leaf "S" "[A a] [B b]") ∧
      flat (.leaf "S" "[A a] [B b]") = flat (.node "S" (.leaf "A" "a") (.leaf "B" "b")) := by
  have leafReadable : Readable .flat (.node "[S" (.leaf "" "a b") (.leaf "]" "")) := by decide
  have nodeReadable : Readable .flat
      (.node "[S" (.leaf "" "a b") (.node "]" (.leaf "" "") (.leaf "" ""))) := by
    decide
  refine ⟨leafReadable, nodeReadable, ?_, by decide, by decide +kernel⟩
  intro firstRest secondRest same
  obtain ⟨trees, _⟩ := (flat_append_eq_iff leafReadable nodeReadable _ _).mp same
  cases trees

end Tree

end ChartParser
