import ChartParser.Chart.Span
import Mathlib.Algebra.BigOperators.Intervals
import Mathlib.Data.List.Nodup

/-!
# The order of filling

Every span of a sentence is visited once, and by `mem_before_of_width_lt` every
shorter span comes before it, so both sides of each of its splits do.
-/

namespace ChartParser.Span

variable {length : Nat} {span part : Span}

/-- Every span of a sentence, shorter spans first, and left to right among spans of one width. -/
def all (length : Nat) : List Span :=
  (List.range' 1 length).flatMap (ofWidth length)

/-- The spans of single tokens. -/
def singles (length : Nat) : List Span :=
  (List.range length).map single

/-- The single tokens come first, then the longer spans. -/
theorem all_eq (length : Nat) : all length = singles length ++ longer length := by
  cases length with
  | zero => rfl
  | succ shorter => rfl

/-- The spans of fewer tokens are the first of the spans of more. -/
theorem isPrefix_singles {fewer count : Nat} (ordered : fewer ≤ count) :
    singles fewer <+: singles count := by
  have taken : (List.range count).take fewer = List.range fewer := by
    rw [List.take_range, Nat.min_eq_left ordered]
  rw [singles, singles, ← taken]
  exact (List.take_prefix fewer (List.range count)).map single

/-- The spans of the first tokens are visited first. -/
theorem singles_isPrefix_all {fewer : Nat} (ordered : fewer ≤ length) :
    singles fewer <+: all length := by
  rw [all_eq]
  exact (isPrefix_singles ordered).trans (List.prefix_append _ _)

/-- The spans of one width are those within the sentence that have this width. -/
theorem mem_ofWidth {width : Nat} (positive : 0 < width) :
    span ∈ ofWidth length width ↔ span.Within length ∧ span.width = width := by
  obtain ⟨start, stop⟩ := span
  simp only [ofWidth, List.mem_map, List.mem_range, mk.injEq, Within, Span.width]
  constructor
  · rintro ⟨_, inBounds, rfl, rfl⟩
    omega
  · rintro ⟨within, widths⟩
    exact ⟨start, by omega, rfl, by omega⟩

/-- Every span of a sentence is visited, and nothing else is. -/
theorem mem_all : span ∈ all length ↔ span.Within length := by
  simp only [all, List.mem_flatMap, List.mem_range'_1]
  constructor
  · rintro ⟨width, bounds, member⟩
    exact ((mem_ofWidth (by omega)).mp member).1
  · intro within
    have nonempty := within.1
    have inBounds := within.2
    refine ⟨span.width, ?_, (mem_ofWidth ?_).mpr ⟨within, rfl⟩⟩ <;>
      simp only [Span.width] <;> omega

/-- What is visited first lies within the sentence. -/
theorem within_of_isPrefix_all {spans : List Span} (begins : spans <+: all length) :
    ∀ span ∈ spans, span.Within length :=
  fun _ member => mem_all.mp (begins.subset member)

/-- A longer span has more than one token. -/
theorem width_ne_one_of_mem_longer (member : span ∈ longer length) : span.width ≠ 1 := by
  simp only [longer, List.mem_flatMap, List.mem_range'_1] at member
  obtain ⟨width, bounds, inWidth⟩ := member
  rw [((mem_ofWidth (by omega)).mp inWidth).2]
  omega

/-- A span is shorter than another one, or as long and further to the left. -/
def Precedes (first second : Span) : Prop :=
  first.width < second.width ∨ first.width = second.width ∧ first.start < second.start

/-- Spans are visited in the order of their widths and, among those of one width, from left to
right. -/
theorem pairwise_precedes_all (length : Nat) : (all length).Pairwise Precedes := by
  refine List.pairwise_flatMap.mpr ⟨?_, ?_⟩
  · intro width _
    refine List.pairwise_map.mpr (List.pairwise_lt_range.imp ?_)
    intro first second further
    refine Or.inr ⟨?_, further⟩
    simp only [Span.width]
    omega
  · refine List.Pairwise.imp_of_mem ?_ List.pairwise_lt_range'
    intro first second firstMember secondMember increasing span inFirst other inSecond
    rw [List.mem_range'_1] at firstMember secondMember
    have firstWidth := ((mem_ofWidth (by omega)).mp inFirst).2
    have secondWidth := ((mem_ofWidth (by omega)).mp inSecond).2
    exact Or.inl (by omega)

/-- No span is visited twice. -/
theorem nodup_all (length : Nat) : (all length).Nodup := by
  apply (pairwise_precedes_all length).imp
  rintro first second precedes rfl
  simp only [Precedes] at precedes
  omega

/-- Spans are visited in the order of their widths. -/
theorem pairwise_width_all (length : Nat) :
    (all length).Pairwise fun first second => first.width ≤ second.width := by
  apply (pairwise_precedes_all length).imp
  intro first second precedes
  simp only [Precedes] at precedes
  omega

/-- Whatever is shorter than a span is visited before it. -/
theorem mem_before_of_width_lt {before later : List Span}
    (visits : all length = before ++ span :: later) (within : part.Within length)
    (shorter : part.width < span.width) : part ∈ before := by
  have member := mem_all.mpr within
  have ordered := pairwise_width_all length
  rw [visits] at member ordered
  rcases List.mem_append.mp member with inBefore | here
  · exact inBefore
  · have notLater := (List.pairwise_cons.mp (List.pairwise_append.mp ordered).2.1).1
    rcases List.mem_cons.mp here with rfl | inLater
    · exact absurd shorter (Nat.lt_irrefl _)
    · exact absurd shorter (Nat.not_lt.mpr (notLater part inLater))

/-- Both sides of every split of a span are visited before it. -/
theorem sides_mem_before {before later : List Span}
    (visits : all length = before ++ span :: later) {middle : Nat}
    (inside : span.start < middle ∧ middle < span.stop) :
    ⟨span.start, middle⟩ ∈ before ∧ ⟨middle, span.stop⟩ ∈ before := by
  have within : span.Within length := mem_all.mp (by simp [visits])
  have parts := within.parts inside
  constructor
  · apply mem_before_of_width_lt visits parts.1
    simp only [Span.width]
    omega
  · apply mem_before_of_width_lt visits parts.2
    simp only [Span.width]
    omega

/-- Whatever is visited first has both sides of every split of its spans. -/
theorem sides_mem_of_isPrefix_all {spans : List Span} (begins : spans <+: all length)
    (member : span ∈ spans) {middle : Nat} (inside : span.start < middle ∧ middle < span.stop) :
    ⟨span.start, middle⟩ ∈ spans ∧ ⟨middle, span.stop⟩ ∈ spans := by
  obtain ⟨later, visits⟩ := begins
  obtain ⟨before, after, parts⟩ := List.append_of_mem member
  rw [parts, List.append_assoc, List.cons_append] at visits
  have sides := sides_mem_before visits.symm inside
  rw [parts]
  exact ⟨List.mem_append_left _ sides.1, List.mem_append_left _ sides.2⟩

/-- A sum over all visits is a sum over all starts and all stops. -/
theorem sum_all (length : Nat) (value : Span → Nat) :
    ((all length).map value).sum =
      ∑ start ∈ Finset.range length, ∑ stop ∈ Finset.Ioc start length, value ⟨start, stop⟩ := by
  rw [← List.sum_toFinset value (nodup_all length), Finset.sum_sigma']
  refine Finset.sum_bij' (fun span _ => ⟨span.start, span.stop⟩) (fun ends _ => ⟨ends.1, ends.2⟩)
    ?_ ?_ ?_ ?_ ?_
  · intro span member
    obtain ⟨nonempty, inBounds⟩ := mem_all.mp (List.mem_toFinset.mp member)
    simp only [Finset.mem_sigma, Finset.mem_range, Finset.mem_Ioc]
    omega
  · intro ends member
    simp only [Finset.mem_sigma, Finset.mem_range, Finset.mem_Ioc] at member
    exact List.mem_toFinset.mpr (mem_all.mpr member.2)
  · intro span _
    rfl
  · intro ends _
    rfl
  · intro span _
    rfl

/-- A sum over the visits of single tokens is a sum over their positions. -/
theorem sum_singles (count : Nat) (value : Span → Nat) :
    ((singles count).map value).sum = ∑ position ∈ Finset.range count, value (single position) := by
  rw [singles, List.map_map, ← List.sum_toFinset _ List.nodup_range, List.toFinset_range]
  rfl

/-- A sum over all visits of what depends on the width only: a sentence has one span of a width for
every place where the span can start. -/
theorem sum_width_all (length : Nat) (value : Nat → Nat) :
    ((all length).map fun span => value span.width).sum =
      ∑ width ∈ Finset.Icc 1 length, (length - width + 1) * value width := by
  have perWidth : ∀ width, ((ofWidth length width).map fun span => value span.width).sum =
      (length + 1 - width) * value width := by
    intro width
    simp only [ofWidth, Span.width, List.map_map, Function.comp_def, Nat.add_sub_cancel_left,
      List.map_const', List.length_range, List.sum_replicate, Nat.nsmul_eq_mul]
  have widths : (List.range' 1 length).toFinset = Finset.Icc 1 length := by
    ext width
    simp only [List.mem_toFinset, List.mem_range'_1, Finset.mem_Icc]
    omega
  rw [all, List.map_flatMap, List.flatMap, List.sum_flatten, List.map_map]
  simp only [Function.comp_def, perWidth]
  rw [← List.sum_toFinset _ List.nodup_range', widths]
  refine Finset.sum_congr rfl fun width member => ?_
  rw [Nat.sub_add_comm (Finset.mem_Icc.mp member).2]

/-- There are as many visits as spans. -/
theorem length_all (length : Nat) : (all length).length = count length := by
  have positions : (all length).length = ∑ start ∈ Finset.range length, (length - start) := by
    have visits := sum_all length fun _ => 1
    simpa only [List.map_const', List.sum_replicate, Finset.sum_const, Nat.card_Ioc,
      Nat.nsmul_eq_mul, Nat.mul_one] using visits
  have reflected : ∑ start ∈ Finset.range length, (length - start) =
      ∑ start ∈ Finset.range (length + 1), start := by
    rw [← Finset.sum_range_reflect, Finset.sum_range_succ', Nat.add_zero]
    refine Finset.sum_congr rfl fun start member => ?_
    have inBounds := Finset.mem_range.mp member
    omega
  have doubled := Finset.sum_range_id_mul_two (length + 1)
  rw [positions, reflected, count]
  rw [Nat.add_sub_cancel, Nat.mul_comm (length + 1)] at doubled
  omega

end ChartParser.Span
