import ChartParser.Text.Lines
import Mathlib.Data.List.Basic

/-!
# Pieces of a sequence

Taking a sequence apart at a terminator finds every terminator and loses
nothing: the ended pieces, each with the terminator behind it, and the rest make
up the sequence again, and none of them holds the terminator. A final item is
left out of a piece where it is the given one.
-/

namespace ChartParser.Text

variable {Item : Type}

/-- Pieces with the terminator behind each. -/
def joined (terminator : Item) (pieces : List (List Item)) : List Item :=
  pieces.flatMap fun piece => piece ++ [terminator]

/-- One more piece in front, with its terminator. -/
@[simp] theorem joined_cons (terminator : Item) (piece : List Item) (pieces : List (List Item)) :
    joined terminator (piece :: pieces) = piece ++ terminator :: joined terminator pieces := by
  simp [joined]

/-- Pieces after pieces. -/
@[simp] theorem joined_append (terminator : Item) (first second : List (List Item)) :
    joined terminator (first ++ second) = joined terminator first ++ joined terminator second := by
  simp [joined]

/-- A sequence holds no terminator, or it is a first piece, the terminator and a sequence after
it. -/
theorem pieces_induction (terminator : Item) {motive : List Item → Prop}
    (unended : ∀ items, terminator ∉ items → motive items)
    (ended : ∀ piece later, terminator ∉ piece → motive later →
      motive (piece ++ terminator :: later))
    (items : List Item) : motive items := by
  by_cases member : terminator ∈ items
  · obtain ⟨piece, later, parts, absent⟩ := List.eq_append_cons_of_mem member
    have shorter : later.length < items.length := by
      rw [parts, List.length_append, List.length_cons]
      omega
    exact parts ▸ ended piece later absent (pieces_induction terminator unended ended later)
  · exact unended items member
termination_by items.length

variable [BEq Item] {terminator : Item} {piece items : List Item}

/-- Cutting at every terminator gives the ended pieces and the rest. -/
theorem splitOn_eq_pieces (terminator : Item) (items : List Item) :
    items.splitOn terminator =
      (pieces terminator items).ended ++ [(pieces terminator items).rest] := by
  have nonempty := List.splitOn_ne_nil terminator items
  simp only [pieces, List.getLastD_eq_getLast?, List.getLast?_eq_some_getLast nonempty,
    Option.getD_some, List.dropLast_concat_getLast]

variable [LawfulBEq Item]

/-- A sequence without the terminator ends no piece. -/
theorem pieces_of_not_mem (absent : terminator ∉ items) :
    pieces terminator items = ⟨[], items⟩ := by
  simp [pieces, List.splitOn_eq_singleton absent]

/-- The first terminator ends the first piece. -/
theorem pieces_append_cons (absent : terminator ∉ piece) (later : List Item) :
    pieces terminator (piece ++ terminator :: later) =
      ⟨piece :: (pieces terminator later).ended, (pieces terminator later).rest⟩ := by
  have nonempty := List.splitOn_ne_nil terminator later
  rw [pieces, List.splitOn_append_cons_self_of_not_mem absent,
    List.dropLast_cons_of_ne_nil nonempty, List.getLastD_cons]
  simp [pieces, List.getLastD_eq_getLast?, List.getLast?_eq_some_getLast nonempty]

/-- A terminator anywhere ends what has not been ended before it, and nothing before it counts for
what follows. -/
theorem pieces_append_terminator (before later : List Item) :
    pieces terminator (before ++ terminator :: later) =
      ⟨(pieces terminator before).ended ++
          (pieces terminator before).rest :: (pieces terminator later).ended,
        (pieces terminator later).rest⟩ := by
  induction before using pieces_induction terminator with
  | unended before absent =>
      rw [pieces_append_cons absent, pieces_of_not_mem absent, List.nil_append]
  | ended piece before absent inductionHypothesis =>
      rw [List.append_assoc, List.cons_append, pieces_append_cons absent, inductionHypothesis,
        pieces_append_cons absent, List.cons_append]

/-- Cutting at every terminator cuts what stands before one of them and what follows it. -/
theorem splitOn_append_terminator (before later : List Item) :
    (before ++ terminator :: later).splitOn terminator =
      before.splitOn terminator ++ later.splitOn terminator := by
  simp [splitOn_eq_pieces, pieces_append_terminator]

/-- The pieces of a sequence make it up. -/
theorem joined_pieces (terminator : Item) (items : List Item) :
    joined terminator (pieces terminator items).ended ++ (pieces terminator items).rest =
      items := by
  induction items using pieces_induction terminator with
  | unended items absent => simp [pieces_of_not_mem absent, joined]
  | ended piece later absent inductionHypothesis =>
      rw [pieces_append_cons absent, joined_cons, List.append_assoc, List.cons_append,
        inductionHypothesis]

/-- No piece holds the terminator. -/
theorem not_mem_of_mem_ended (terminator : Item) (items : List Item) :
    ∀ piece ∈ (pieces terminator items).ended, terminator ∉ piece := by
  induction items using pieces_induction terminator with
  | unended items absent => simp [pieces_of_not_mem absent]
  | ended piece later absent inductionHypothesis =>
      rw [pieces_append_cons absent, List.forall_mem_cons]
      exact ⟨absent, inductionHypothesis⟩

/-- What follows the last terminator holds none. -/
theorem not_mem_rest (terminator : Item) (items : List Item) :
    terminator ∉ (pieces terminator items).rest := by
  induction items using pieces_induction terminator with
  | unended items absent => rwa [pieces_of_not_mem absent]
  | ended piece later absent inductionHypothesis => rwa [pieces_append_cons absent]

/-- Cutting at every terminator leaves none in the parts. -/
theorem not_mem_of_mem_splitOn (terminator : Item) (items : List Item) :
    ∀ part ∈ items.splitOn terminator, terminator ∉ part := by
  rw [splitOn_eq_pieces, List.forall_mem_append, List.forall_mem_singleton]
  exact ⟨not_mem_of_mem_ended terminator items, not_mem_rest terminator items⟩

section FinalItem

variable {Item : Type} [DecidableEq Item]

/-- The item is left out where it comes last. -/
theorem dropFinal_concat (items : List Item) (item : Item) :
    dropFinal item (items ++ [item]) = items := by
  simp [dropFinal]

/-- Nothing is left out where another item comes last. -/
theorem dropFinal_of_getLast?_ne {items : List Item} {item : Item}
    (other : items.getLast? ≠ some item) : dropFinal item items = items :=
  if_neg other

/-- An item is left out from the end or not at all. -/
theorem dropFinal_cases (item : Item) (items : List Item) :
    dropFinal item items = items ∨ items = dropFinal item items ++ [item] := by
  by_cases last : items.getLast? = some item
  · obtain ⟨before, rfl⟩ := List.getLast?_eq_some_iff.mp last
    exact Or.inr (by rw [dropFinal_concat])
  · exact Or.inl (dropFinal_of_getLast?_ne last)

end FinalItem

end ChartParser.Text
