import ChartParser.Chart.Basic
import Mathlib.Algebra.Group.Nat.Even
import Mathlib.Data.Nat.Choose.Basic
import Mathlib.Data.Prod.Lex
import Mathlib.Data.Set.Function
import Mathlib.Order.Interval.Set.Defs

/-!
# Places of cells

The cells of the spans with one start stand next to each other, and these rows
follow one another without a gap: `rowStart_succ` says that each is one place
shorter than the row before it. Hence the places of a chart are taken by its spans
one by one, ordered by where a span starts and then by where it stops.
-/

namespace ChartParser

namespace Span

variable {length : Nat} {first second : Span}

/-- The place of the first cell whose span has a given start. -/
def rowStart (length start : Nat) : Nat :=
  start * length - start * (start - 1) / 2

/-- A span's cell stands in the row of its start, shorter spans first. -/
theorem index_eq (length : Nat) (span : Span) :
    span.index length = rowStart length span.start + (span.stop - span.start - 1) :=
  rfl

/-- The rows before a start lack no more places than they would have if all were as long as the
first. -/
theorem missing_le {start : Nat} (inBounds : start ≤ length) :
    start * (start - 1) / 2 ≤ start * length :=
  calc start * (start - 1) / 2 ≤ start * (start - 1) := Nat.div_le_self _ _
    _ ≤ start * length := Nat.mul_le_mul_left start (by omega)

/-- The row of a start has one place for every span with that start. -/
theorem rowStart_succ {start : Nat} (length : Nat) (inside : start < length) :
    rowStart length (start + 1) = rowStart length start + (length - start) := by
  have triangle := Nat.triangle_succ start
  have missing := missing_le (Nat.le_of_lt inside)
  simp only [rowStart]
  rw [triangle, Nat.add_one_mul]
  omega

/-- The rows of later starts stand later. -/
theorem rowStart_mono {start later : Nat} (length : Nat) (ordered : start ≤ later)
    (within : later ≤ length) : rowStart length start ≤ rowStart length later := by
  induction later, ordered using Nat.le_induction with
  | base => exact Nat.le_refl _
  | succ later _ inductionHypothesis =>
      have next := rowStart_succ length (show later < length by omega)
      have before := inductionHypothesis (by omega)
      omega

/-- After the last row come as many places as there are spans. -/
theorem rowStart_length (length : Nat) : rowStart length length = count length := by
  have triangle := Nat.triangle_succ length
  rw [Nat.add_sub_cancel, Nat.mul_comm] at triangle
  obtain ⟨half, even⟩ := Nat.even_mul_pred_self length
  have square : length * (length - 1) + length = length * length := by
    cases length with
    | zero => rfl
    | succ shorter => rw [Nat.add_sub_cancel, ← Nat.mul_succ]
  simp only [rowStart, count]
  omega

/-- A span's cell stands before the row of the next start. -/
theorem index_lt_rowStart (within : first.Within length) :
    first.index length < rowStart length (first.start + 1) := by
  obtain ⟨nonempty, inBounds⟩ := within
  have next := rowStart_succ length (show first.start < length by omega)
  rw [index_eq, next]
  omega

/-- Every span of a sentence has a place in the chart. -/
theorem index_lt_count (within : first.Within length) : first.index length < count length := by
  have before := index_lt_rowStart within
  have starts : first.start + 1 ≤ length := Nat.lt_of_lt_of_le within.1 within.2
  have rows := rowStart_mono length starts (Nat.le_refl length)
  rw [rowStart_length] at rows
  exact Nat.lt_of_lt_of_le before rows

/-- A span that starts earlier has an earlier place. -/
theorem index_lt_of_start_lt (firstWithin : first.Within length)
    (secondWithin : second.Within length) (earlier : first.start < second.start) :
    first.index length < second.index length := by
  have before := index_lt_rowStart firstWithin
  have next : first.start + 1 ≤ second.start := earlier
  have rows := rowStart_mono length next
    (Nat.le_trans (Nat.le_of_lt secondWithin.1) secondWithin.2)
  rw [index_eq length second]
  omega

/-- Places follow where spans start and, among spans with one start, where they stop. -/
theorem index_lt_iff (firstWithin : first.Within length) (secondWithin : second.Within length) :
    first.index length < second.index length ↔
      toLex (first.start, first.stop) < toLex (second.start, second.stop) := by
  rw [Prod.Lex.toLex_lt_toLex]
  rcases Nat.lt_trichotomy first.start second.start with earlier | equal | later
  · exact iff_of_true (index_lt_of_start_lt firstWithin secondWithin earlier) (Or.inl earlier)
  · have firstNonempty := firstWithin.1
    have secondNonempty := secondWithin.1
    simp only [index_eq, equal, Nat.lt_irrefl, false_or, true_and]
    omega
  · have behind := index_lt_of_start_lt secondWithin firstWithin later
    dsimp only
    omega

/-- No two spans of a sentence share a place. -/
theorem index_injective (firstWithin : first.Within length) (secondWithin : second.Within length)
    (same : first.index length = second.index length) : first = second := by
  have ahead := index_lt_iff firstWithin secondWithin
  have behind := index_lt_iff secondWithin firstWithin
  rw [Prod.Lex.toLex_lt_toLex] at ahead behind
  obtain ⟨start, stop⟩ := first
  rw [mk.injEq]
  dsimp only at ahead behind
  omega

/-- Every place before a row stands in one of the rows before it. -/
theorem exists_index_eq_of_lt_rowStart {start place : Nat} (inBounds : start ≤ length)
    (before : place < rowStart length start) :
    ∃ span : Span, span.Within length ∧ span.index length = place := by
  induction start with
  | zero => simp [rowStart] at before
  | succ start inductionHypothesis =>
      by_cases earlier : place < rowStart length start
      · exact inductionHypothesis (Nat.le_of_succ_le inBounds) earlier
      · have row := rowStart_succ length inBounds
        refine ⟨⟨start, start + 1 + (place - rowStart length start)⟩, ⟨?_, ?_⟩, ?_⟩
        · dsimp only
          omega
        · dsimp only
          omega
        · rw [index_eq]
          dsimp only
          omega

/-- Every place in the chart is that of a span of the sentence. -/
theorem exists_index_eq {place : Nat} (inRow : place < count length) :
    ∃ span : Span, span.Within length ∧ span.index length = place := by
  rw [← rowStart_length] at inRow
  exact exists_index_eq_of_lt_rowStart (Nat.le_refl length) inRow

/-- The spans of a sentence and the places in its chart belong together one by one. -/
theorem index_bijOn (length : Nat) :
    Set.BijOn (index length) {span | span.Within length} (Set.Iio (count length)) :=
  ⟨fun _ within => index_lt_count within,
    fun _ firstWithin _ secondWithin => index_injective firstWithin secondWithin,
    fun _ inRow => exists_index_eq inRow⟩

/-- Where a row starts, computed in integers: no difference is cut off at zero. -/
theorem rowStart_cast {start : Nat} (inBounds : start ≤ length) :
    (rowStart length start : Int) = start * length - start * (start - 1) / 2 := by
  -- The predecessor of 0 differs between the two sides, but it is multiplied by 0.
  have factors : ((start * (start - 1) : Nat) : Int) = start * (start - 1) := by
    cases start with
    | zero => rfl
    | succ earlier => simp
  rw [rowStart, Int.natCast_sub (missing_le inBounds), Int.natCast_mul, Int.natCast_ediv, factors]
  rfl

/-- The place of a span, computed in integers: no difference is cut off at zero. -/
theorem index_cast (within : first.Within length) :
    (first.index length : Int) = (first.start * length - first.start * (first.start - 1) / 2) +
      (first.stop - first.start - 1) := by
  obtain ⟨nonempty, inBounds⟩ := within
  rw [index_eq, Int.natCast_add, rowStart_cast (by omega)]
  omega

end Span

namespace Chart

/-- The spans of a sentence fill the row of cells that a chart has, one place each and none left
over, in the order of where they start and then of where they stop. Neither difference in the place
of a span is cut off at zero, and where the predecessor of a start is, it does not count: the same
formula gives the place in integers. -/
theorem spans_fill_row (length : Nat) (budget : Budget) :
    (empty length budget).cells.size = length * (length + 1) / 2 ∧
    Set.BijOn (Span.index length) {span | span.Within length}
      (Set.Iio (empty length budget).cells.size) ∧
    (∀ first second : Span, first.Within length → second.Within length →
      (first.index length < second.index length ↔
        toLex (first.start, first.stop) < toLex (second.start, second.stop))) ∧
    ∀ span : Span, span.Within length →
      0 ≤ (span.start * length - span.start * (span.start - 1) / 2 : Int) ∧
      0 ≤ (span.stop - span.start - 1 : Int) ∧
      (span.index length : Int) =
        (span.start * length - span.start * (span.start - 1) / 2) +
          (span.stop - span.start - 1) := by
  have allocated : (empty length budget).cells.size = Span.count length := Array.size_replicate
  refine ⟨allocated, ?_, fun _ _ => Span.index_lt_iff, fun span within => ?_⟩
  · rw [allocated]
    exact Span.index_bijOn length
  · obtain ⟨nonempty, inBounds⟩ := within
    refine ⟨?_, by omega, Span.index_cast ⟨nonempty, inBounds⟩⟩
    rw [← Span.rowStart_cast (by omega)]
    exact Int.natCast_nonneg _

/-- Among four tokens the third one stands after the last three, which start further left, and a
span stands in the last of the ten places. -/
theorem third_token_after_last_three :
    Span.Within 4 ⟨1, 4⟩ ∧ Span.Within 4 ⟨2, 3⟩ ∧
      Span.index 4 ⟨1, 4⟩ < Span.index 4 ⟨2, 3⟩ ∧
      (Span.index 4 ⟨2, 3⟩ : Int) = (2 * 4 - 2 * (2 - 1) / 2) + (3 - 2 - 1) ∧
      ∃ span : Span, span.Within 4 ∧ span.index 4 = 9 := by
  obtain ⟨allocated, bijection, ordered, inIntegers⟩ := spans_fill_row 4 .unlimited
  have lastThree : Span.Within 4 ⟨1, 4⟩ := by decide
  have third : Span.Within 4 ⟨2, 3⟩ := by decide
  refine ⟨lastThree, third, (ordered _ _ lastThree third).mpr (by decide),
    (inIntegers _ third).2.2, ?_⟩
  exact bijection.surjOn (Set.mem_Iio.mpr (by rw [allocated]; decide))

end Chart

end ChartParser
