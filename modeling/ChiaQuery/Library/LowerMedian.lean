import Mathlib.Data.List.Basic

/-! The lower median of a list: the smaller of the two middles of its sorted copy. More than
half of the values lie at or above it, so no half of them can raise it.
-/

namespace ChiaQuery.Library

variable {α : Type*}

/-- A test that more values pass than are taken out is passed by one that is left. -/
theorem exists_of_length_lt_countP {values rest few : List α} {test : α → Bool}
    (split : values.Perm (rest ++ few)) (more : few.length < values.countP test)
    : ∃ value ∈ rest, test value = true := by
  rw [split.countP_eq, List.countP_append] at more
  have most : few.countP test ≤ few.length := List.countP_le_length
  have left : 0 < rest.countP test := by omega
  exact List.countP_pos_iff.mp left

variable [LE α]

/-- In an ordered list every value from a position on is at least the one at the position. -/
theorem le_of_mem_drop [Std.IsLinearOrder α] {sorted : List α}
    (ordered : sorted.Pairwise (· ≤ ·)) {index : Nat} {value : α}
    (atIndex : sorted[index]? = some value)
    : ∀ later ∈ sorted.drop index, value ≤ later := by
  obtain ⟨bound, found⟩ := List.getElem?_eq_some_iff.mp atIndex
  have split : sorted.drop index = value :: sorted.drop (index + 1) := by
    rw [List.drop_eq_getElem_cons bound, found]
  have tail : (sorted.drop index).Pairwise (· ≤ ·) := ordered.sublist (List.drop_sublist _ _)
  rw [split, List.pairwise_cons] at tail
  intro later member
  rw [split] at member
  rcases List.mem_cons.mp member with same | after
  · exact same ▸ Std.le_refl _
  · exact tail.1 later after

/-- In an ordered list every value up to a position is at most the one at the position. -/
theorem le_of_mem_take [Std.IsLinearOrder α] {sorted : List α}
    (ordered : sorted.Pairwise (· ≤ ·)) {index : Nat} {value : α}
    (atIndex : sorted[index]? = some value)
    : ∀ earlier ∈ sorted.take (index + 1), earlier ≤ value := by
  obtain ⟨bound, found⟩ := List.getElem?_eq_some_iff.mp atIndex
  have split : sorted.take (index + 1) = sorted.take index ++ [value] := by
    rw [List.take_succ_eq_append_getElem bound, found]
  have front : (sorted.take (index + 1)).Pairwise (· ≤ ·) :=
    ordered.sublist (List.take_sublist _ _)
  rw [split, List.pairwise_append] at front
  intro earlier member
  rw [split] at member
  rcases List.mem_append.mp member with before | same
  · exact front.2.2 earlier before value (List.mem_singleton_self value)
  · exact List.mem_singleton.mp same ▸ Std.le_refl _

variable [DecidableLE α]

/-- The values in ascending order. -/
def ascending (values : List α) : List α :=
  values.mergeSort (fun left right => decide (left ≤ right))

/-- The value at the lower middle of the ascending list, none of an empty list. -/
def lowerMedian (values : List α) : Option α :=
  (ascending values)[(values.length - 1) / 2]?

theorem ascending_perm (values : List α) : (ascending values).Perm values :=
  List.mergeSort_perm values _

theorem lowerMedian_mem {values : List α} {median : α} (h : lowerMedian values = some median)
    : median ∈ values :=
  (ascending_perm values).mem_iff.mp (List.mem_of_getElem? h)

/-- Any values at all have a lower median. -/
theorem exists_lowerMedian {values : List α} (nonempty : values ≠ [])
    : ∃ median, lowerMedian values = some median := by
  have positive := List.length_pos_iff.mpr nonempty
  have inside : (values.length - 1) / 2 < (ascending values).length := by
    rw [(ascending_perm values).length_eq]
    omega
  exact ⟨_, List.getElem?_eq_getElem inside⟩

/-- A part of the ascending list has no more values than pass a test that all of it passes. -/
theorem length_le_countP_of_sublist {values part : List α} {test : α → Bool}
    (inside : part.Sublist (ascending values)) (all : ∀ value ∈ part, test value = true)
    : part.length ≤ values.countP test := by
  calc part.length
      = part.countP test := (List.countP_eq_length.mpr all).symm
    _ ≤ (ascending values).countP test := inside.countP_le
    _ = values.countP test := (ascending_perm values).countP_eq _

variable [Std.IsLinearOrder α]

theorem ascending_pairwise (values : List α) : (ascending values).Pairwise (· ≤ ·) := by
  have ordered : (ascending values).Pairwise (fun left right => decide (left ≤ right) = true) :=
    List.pairwise_mergeSort
    (fun a b c hab hbc => by
      simp only [decide_eq_true_eq] at hab hbc ⊢
      exact Std.le_trans hab hbc)
    (fun a b => by
      simp only [Bool.or_eq_true, decide_eq_true_eq]
      exact Std.le_total)
    values
  exact ordered.imp (fun h => by simpa using h)

/-- More than half of the values are at least the lower median: those from the middle of the
ascending list on.
-/
theorem length_lt_two_mul_countP_of_lowerMedian {values : List α} {median : α}
    (h : lowerMedian values = some median)
    : values.length < 2 * values.countP (fun value => decide (median ≤ value)) := by
  have sameLength := (ascending_perm values).length_eq
  have inside : (values.length - 1) / 2 < values.length :=
    sameLength ▸ (List.getElem?_eq_some_iff.mp h).1
  have upperHalf : ((ascending values).drop ((values.length - 1) / 2)).length
      ≤ values.countP (fun value => decide (median ≤ value)) := by
    refine length_le_countP_of_sublist (List.drop_sublist _ _) ?_
    intro later member
    exact decide_eq_true (le_of_mem_drop (ascending_pairwise values) h later member)
  rw [List.length_drop, sameLength] at upperHalf
  omega

/-- At least half of the values are at most the lower median: those up to the middle of the
ascending list.
-/
theorem length_le_two_mul_countP_of_lowerMedian {values : List α} {median : α}
    (h : lowerMedian values = some median)
    : values.length ≤ 2 * values.countP (fun value => decide (value ≤ median)) := by
  have sameLength := (ascending_perm values).length_eq
  have lowerHalf : ((ascending values).take ((values.length - 1) / 2 + 1)).length
      ≤ values.countP (fun value => decide (value ≤ median)) := by
    refine length_le_countP_of_sublist (List.take_sublist _ _) ?_
    intro earlier member
    exact decide_eq_true (le_of_mem_take (ascending_pairwise values) h earlier member)
  rw [List.length_take, sameLength] at lowerHalf
  omega

/-- The lower median does not depend on the order of the values. -/
theorem lowerMedian_perm {values others : List α} (perm : values.Perm others)
    : lowerMedian values = lowerMedian others := by
  have sorted : ascending values = ascending others :=
    (((ascending_perm values).trans perm).trans (ascending_perm others).symm).eq_of_pairwise
      (fun _ _ _ _ below above => Std.le_antisymm below above)
      (ascending_pairwise values) (ascending_pairwise others)
  rw [lowerMedian, lowerMedian, sorted, perm.length_eq]

/-- When at most half of the values are taken out, one at or above the lower median is left. -/
theorem exists_ge_lowerMedian {values rest few : List α} {median : α}
    (h : lowerMedian values = some median) (split : values.Perm (rest ++ few))
    (half : 2 * few.length ≤ values.length)
    : ∃ value ∈ rest, median ≤ value := by
  have above := length_lt_two_mul_countP_of_lowerMedian h
  obtain ⟨value, member, reaches⟩ := exists_of_length_lt_countP split
    (show few.length < values.countP (fun value => decide (median ≤ value)) by omega)
  exact ⟨value, member, of_decide_eq_true reaches⟩

/-- When fewer than half of the values are taken out, one at or below the lower median is left.
-/
theorem exists_le_lowerMedian {values rest few : List α} {median : α}
    (h : lowerMedian values = some median) (split : values.Perm (rest ++ few))
    (fewer : 2 * few.length < values.length)
    : ∃ value ∈ rest, value ≤ median := by
  have below := length_le_two_mul_countP_of_lowerMedian h
  obtain ⟨value, member, within⟩ := exists_of_length_lt_countP split
    (show few.length < values.countP (fun value => decide (value ≤ median)) by omega)
  exact ⟨value, member, of_decide_eq_true within⟩

/-- A value reaches the lower median exactly when at least half of the values are at or below
it. A value under the median leaves above it more than half.
-/
theorem lowerMedian_le_iff {values : List α} {median value : α}
    (h : lowerMedian values = some median)
    : median ≤ value
      ↔ values.length ≤ 2 * values.countP (fun other => decide (other ≤ value)) := by
  constructor
  · intro reaches
    have half := length_le_two_mul_countP_of_lowerMedian h
    have more : values.countP (fun other => decide (other ≤ median))
        ≤ values.countP (fun other => decide (other ≤ value)) := by
      apply List.countP_mono_left
      intro other _ below
      exact decide_eq_true (Std.le_trans (of_decide_eq_true below) reaches)
    omega
  · intro half
    by_contra under
    have above := length_lt_two_mul_countP_of_lowerMedian h
    have apart : values.countP (fun other => decide (median ≤ other))
        ≤ values.countP (fun other => !decide (other ≤ value)) := by
      apply List.countP_mono_left
      intro other _ atLeast
      have higher : ¬ other ≤ value :=
        fun below => under (Std.le_trans (of_decide_eq_true atLeast) below)
      simpa using higher
    have both := List.length_eq_countP_add_countP (fun other => decide (other ≤ value))
      (l := values)
    simp only [decide_eq_true_eq, decide_not] at both
    omega

end ChiaQuery.Library
