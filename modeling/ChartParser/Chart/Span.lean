/-!
# Spans of a sentence

A span is a stretch of neighbouring tokens. Spans are visited shortest first
and, among spans of one width, from left to right, so every part of a span is
visited before the span itself. The cells of a chart stand in one row, ordered
by where their span starts and then by where it stops.
-/

namespace ChartParser

/-- The tokens from the position `start` up to, and without, the position `stop`. -/
structure Span where
  start : Nat
  stop : Nat
deriving DecidableEq, Repr

namespace Span

/-- A span is not empty and lies within a sentence of the given length. -/
def Within (length : Nat) (span : Span) : Prop :=
  span.start < span.stop ∧ span.stop ≤ length

instance (length : Nat) (span : Span) : Decidable (span.Within length) :=
  inferInstanceAs (Decidable (_ ∧ _))

/-- The number of tokens in a span. -/
def width (span : Span) : Nat :=
  span.stop - span.start

/-- The span of one token. -/
def single (position : Nat) : Span :=
  ⟨position, position + 1⟩

/-- The whole sentence. -/
def whole (length : Nat) : Span :=
  ⟨0, length⟩

/-- Every span of one width within a sentence, left to right. -/
def ofWidth (length width : Nat) : List Span :=
  (List.range (length + 1 - width)).map fun start => ⟨start, start + width⟩

/-- Every span of two tokens or more, shorter spans first. -/
def longer (length : Nat) : List Span :=
  (List.range' 2 (length - 1)).flatMap (ofWidth length)

/-- The positions strictly inside a span, where it can be split in two. -/
def splits (span : Span) : List Nat :=
  List.range' (span.start + 1) (span.width - 1)

/-- The number of spans within a sentence. -/
def count (length : Nat) : Nat :=
  length * (length + 1) / 2

/-- The place of a span's cell in the row: the cells of every earlier start come first. -/
def index (length : Nat) (span : Span) : Nat :=
  span.start * length - span.start * (span.start - 1) / 2 + (span.stop - span.start - 1)

/-- The stretch of a sequence that a span covers. -/
def slice {Item : Type} (span : Span) (items : List Item) : List Item :=
  (items.take span.stop).drop span.start

/-- A split position leaves two shorter spans. -/
theorem mem_splits {span : Span} {middle : Nat} :
    middle ∈ span.splits ↔ span.start < middle ∧ middle < span.stop := by
  simp only [splits, width, List.mem_range'_1]
  omega

variable {Item : Type} {items : List Item} {span : Span}

/-- A span within a sequence covers as many items as it is wide. -/
theorem length_slice (within : span.Within items.length) :
    (span.slice items).length = span.width := by
  obtain ⟨-, inBounds⟩ := within
  simp only [slice, width, List.length_drop, List.length_take]
  omega

/-- The side left of a position in a span covers the first items of what the span covers. -/
theorem slice_left {middle : Nat} (inside : span.start < middle ∧ middle < span.stop) :
    slice ⟨span.start, middle⟩ items = (span.slice items).take (middle - span.start) := by
  simp only [slice]
  rw [← List.drop_take, List.take_take, Nat.min_eq_left (Nat.le_of_lt inside.2)]

/-- The side right of a position in a span covers what is left of it. -/
theorem slice_right {middle : Nat} (inside : span.start < middle ∧ middle < span.stop) :
    slice ⟨middle, span.stop⟩ items = (span.slice items).drop (middle - span.start) := by
  simp only [slice]
  rw [List.drop_drop, Nat.add_sub_cancel' (Nat.le_of_lt inside.1)]

/-- The two sides of a position in a span cover together what the span covers. -/
theorem slice_append {middle : Nat} (inside : span.start < middle ∧ middle < span.stop) :
    slice ⟨span.start, middle⟩ items ++ slice ⟨middle, span.stop⟩ items = span.slice items := by
  rw [slice_left inside, slice_right inside, List.take_append_drop]

/-- A stretch that consists of two parts, none of them empty, is cut at one position. -/
theorem exists_cut {first second : List Item} (within : span.Within items.length)
    (parts : first ++ second = span.slice items) (firstNonempty : first ≠ [])
    (secondNonempty : second ≠ []) :
    ∃ middle, (span.start < middle ∧ middle < span.stop) ∧
      first = slice ⟨span.start, middle⟩ items ∧ second = slice ⟨middle, span.stop⟩ items := by
  have lengths := congrArg List.length parts
  rw [length_slice within, width, List.length_append] at lengths
  have firstPositive := List.length_pos_iff.mpr firstNonempty
  have secondPositive := List.length_pos_iff.mpr secondNonempty
  have inside : span.start < span.start + first.length ∧
      span.start + first.length < span.stop := by omega
  refine ⟨span.start + first.length, inside, ?_⟩
  have leftWithin : Within items.length ⟨span.start, span.start + first.length⟩ :=
    ⟨inside.1, Nat.le_trans (Nat.le_of_lt inside.2) within.2⟩
  apply List.append_inj (parts.trans (slice_append inside).symm)
  rw [length_slice leftWithin, width, Nat.add_sub_cancel_left]

/-- The span of one position covers the item there. -/
theorem slice_single {position : Nat} (inBounds : position < items.length) :
    (single position).slice items = [items[position]] := by
  rw [slice, single, List.take_succ_eq_append_getElem inBounds, List.drop_append]
  simp [Nat.le_of_lt inBounds]

/-- The span of one position has one token. -/
theorem width_single (position : Nat) : (single position).width = 1 :=
  Nat.add_sub_cancel_left position 1

/-- A span of one token is the span of a position. -/
theorem eq_single_of_width (one : span.width = 1) : span = single span.start := by
  obtain ⟨start, stop⟩ := span
  have next : stop = start + 1 := by
    simp only [width] at one
    omega
  rw [next, single]

/-- Both sides of a position in a span lie within the sequence. -/
theorem Within.parts {length middle : Nat} (within : span.Within length)
    (inside : span.start < middle ∧ middle < span.stop) :
    Within length ⟨span.start, middle⟩ ∧ Within length ⟨middle, span.stop⟩ :=
  ⟨⟨inside.1, Nat.le_trans (Nat.le_of_lt inside.2) within.2⟩, ⟨inside.2, within.2⟩⟩

/-- The whole of a sequence is a span of it, unless the sequence is empty. -/
theorem within_whole (nonempty : items ≠ []) : (whole items.length).Within items.length :=
  ⟨List.length_pos_iff.mpr nonempty, Nat.le_refl _⟩

/-- The whole of a sequence is covered by its widest span. -/
@[simp] theorem slice_whole (items : List Item) : (whole items.length).slice items = items := by
  simp [slice, whole]

end Span

end ChartParser
