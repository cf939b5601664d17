import Mathlib.Data.List.Sort

/-! Sorting a list by a key, elements of one key in the order they came in. The sorted list is
determined by what the list has for each key, and its first element with a property is the
first of the least key that has it.
-/

namespace ChiaQuery.Library

variable {α κ : Type*} [LinearOrder κ] {key : α → κ} {items : List α}

/-- The elements in ascending order of their keys. -/
def sortByKey (key : α → κ) (items : List α) : List α :=
  items.insertionSort (fun left right => key left ≤ key right)

theorem sortByKey_perm (key : α → κ) (items : List α) : (sortByKey key items).Perm items :=
  List.perm_insertionSort _ items

theorem mem_sortByKey {item : α} : item ∈ sortByKey key items ↔ item ∈ items :=
  List.mem_insertionSort _

theorem sortByKey_ordered (key : α → κ) (items : List α)
    : (sortByKey key items).Pairwise (fun left right => key left ≤ key right) :=
  have : Std.Total (fun left right : α => key left ≤ key right) :=
    ⟨fun left right => le_total (key left) (key right)⟩
  have : IsTrans α (fun left right : α => key left ≤ key right) :=
    ⟨fun _ _ _ => le_trans⟩
  List.pairwise_insertionSort _ items

/-- Sorting keeps the elements of one key and their order: they are an ordered sublist, and
the sorted list has no more of them.
-/
theorem filter_sortByKey (items : List α) (value : κ)
    : (sortByKey key items).filter (fun item => key item = value)
      = items.filter (fun item => key item = value) := by
  have : Std.Total (fun left right : α => key left ≤ key right) :=
    ⟨fun left right => le_total (key left) (key right)⟩
  have : IsTrans α (fun left right : α => key left ≤ key right) :=
    ⟨fun _ _ _ => le_trans⟩
  have mine : (items.filter (fun item => key item = value)).Pairwise
      (fun left right => key left ≤ key right) := by
    rw [List.pairwise_filter]
    refine List.pairwise_of_forall (fun left right leftKey rightKey => ?_)
    rw [of_decide_eq_true leftKey, of_decide_eq_true rightKey]
  have sub := (List.sublist_insertionSort mine List.filter_sublist).filter
    (fun item => key item = value)
  rw [List.filter_filter] at sub
  simp only [Bool.and_self] at sub
  exact (sub.eq_of_length ((sortByKey_perm key items).filter _).length_eq.symm).symm

/-- The head of an ordered list has a least key. -/
theorem key_head_le {item other : α} {rest : List α}
    (ordered : (item :: rest).Pairwise (fun first second => key first ≤ key second))
    (member : other ∈ item :: rest)
    : key item ≤ key other := by
  rcases List.mem_cons.mp member with rfl | later
  · exact le_refl _
  · exact (List.pairwise_cons.mp ordered).1 other later

/-- Lists that agree on each key have the same elements. -/
theorem mem_of_filter_eq {left right : List α} {item : α}
    (same
      : ∀ value,
          left.filter (fun item => key item = value)
          = right.filter (fun item => key item = value))
    (member : item ∈ left)
    : item ∈ right := by
  have found : item ∈ left.filter (fun one => key one = key item) :=
    List.mem_filter.mpr ⟨member, decide_eq_true rfl⟩
  rw [same (key item)] at found
  exact (List.mem_filter.mp found).1

/-- Two ordered lists that agree on each key are equal, by induction on the first: its head
has a least key, and heads the elements of that key in the other.
-/
theorem eq_of_ordered_of_filter_eq {left right : List α}
    (leftOrdered : left.Pairwise (fun first second => key first ≤ key second))
    (rightOrdered : right.Pairwise (fun first second => key first ≤ key second))
    (same
      : ∀ value,
          left.filter (fun item => key item = value)
          = right.filter (fun item => key item = value))
    : left = right := by
  induction left generalizing right with
  | nil =>
      cases right with
      | nil => rfl
      | cons other others =>
          cases mem_of_filter_eq (fun value => (same value).symm) List.mem_cons_self
  | cons item rest ih =>
      cases right with
      | nil => cases mem_of_filter_eq same List.mem_cons_self
      | cons other others =>
          have back (value : κ) := (same value).symm
          have sameKey : key item = key other :=
            le_antisymm (key_head_le leftOrdered (mem_of_filter_eq back List.mem_cons_self))
              (key_head_le rightOrdered (mem_of_filter_eq same List.mem_cons_self))
          have heads := same (key item)
          rw [List.filter_cons_of_pos (by simp), List.filter_cons_of_pos (by simp [sameKey])]
            at heads
          obtain ⟨sameHead, -⟩ := List.cons.inj heads
          subst sameHead
          have sameRest
              : ∀ value,
                  rest.filter (fun item => key item = value)
                  = others.filter (fun item => key item = value) := by
            intro value
            have both := same value
            by_cases mine : key item = value
            · rw [List.filter_cons_of_pos (by simpa using mine),
                List.filter_cons_of_pos (by simpa using mine)] at both
              exact (List.cons.inj both).2
            · rwa [List.filter_cons_of_neg (by simpa using mine),
                List.filter_cons_of_neg (by simpa using mine)] at both
          rw [ih (List.pairwise_cons.mp leftOrdered).2 (List.pairwise_cons.mp rightOrdered).2
            sameRest]

/-- Two lists sort to the same list exactly when they have the same elements of each key, in
the same order.
-/
theorem sortByKey_eq_iff {left right : List α}
    : sortByKey key left = sortByKey key right
      ↔ ∀ value,
          left.filter (fun item => key item = value)
          = right.filter (fun item => key item = value) := by
  constructor
  · intro same value
    rw [← filter_sortByKey left value, same, filter_sortByKey]
  · intro same
    refine eq_of_ordered_of_filter_eq (sortByKey_ordered key left)
      (sortByKey_ordered key right) (fun value => ?_)
    rw [filter_sortByKey, filter_sortByKey, same value]

/-- What an inserted element changes about the first element with a property. -/
theorem find?_orderedInsert {sorted : List α} {satisfies : α → Bool}
    (ordered : sorted.Pairwise (fun left right => key left ≤ key right)) (item : α)
    : (sorted.orderedInsert (fun left right => key left ≤ key right) item).find? satisfies
      = match sorted.find? satisfies with
        | none => if satisfies item then some item else none
        | some first =>
            if satisfies item && decide (key item ≤ key first) then some item
            else some first := by
  induction sorted with
  | nil => by_cases holds : satisfies item <;> simp [holds]
  | cons head rest ih =>
      have ih := ih (List.pairwise_cons.mp ordered).2
      rw [List.orderedInsert_cons]
      by_cases before : key item ≤ key head
      · rw [if_pos before]
        by_cases holds : satisfies item
        · have first : ∀ found, (head :: rest).find? satisfies = some found
              → key item ≤ key found := by
            intro found lookup
            rcases List.mem_cons.mp (List.mem_of_find?_eq_some lookup) with rfl | later
            · exact before
            · exact le_trans before ((List.pairwise_cons.mp ordered).1 found later)
          rw [List.find?_cons_of_pos holds]
          cases lookup : (head :: rest).find? satisfies with
          | none => simp [holds]
          | some found => simp [holds, first found lookup]
        · rw [List.find?_cons_of_neg holds]
          cases (head :: rest).find? satisfies with
          | none => simp [holds]
          | some found => simp [holds]
      · rw [if_neg before]
        by_cases holds : satisfies head
        · rw [List.find?_cons_of_pos holds, List.find?_cons_of_pos holds]
          simp [before]
        · rw [List.find?_cons_of_neg holds, List.find?_cons_of_neg holds, ih]

/-- The first element with a property in the sorted list: no element of a smaller key has the
property, and none of its own key that comes before it in the list.
-/
theorem find?_sortByKey {satisfies : α → Bool} {item : α}
    (found : (sortByKey key items).find? satisfies = some item)
    : ∃ before after, items = before ++ item :: after
        ∧ (∀ other ∈ before, satisfies other = true → key item < key other)
        ∧ ∀ other ∈ after, satisfies other = true → key item ≤ key other := by
  induction items generalizing item with
  | nil => simp [sortByKey] at found
  | cons head rest ih =>
      have insert : sortByKey key (head :: rest)
          = (sortByKey key rest).orderedInsert (fun left right => key left ≤ key right) head :=
        rfl
      rw [insert, find?_orderedInsert (sortByKey_ordered key rest)] at found
      cases lookup : (sortByKey key rest).find? satisfies with
      | none =>
          rw [lookup] at found
          dsimp only at found
          split at found
          · cases found
            refine ⟨[], rest, rfl, by simp, fun other member holds => ?_⟩
            exact absurd holds
              (List.find?_eq_none.mp lookup other (mem_sortByKey.mpr member))
          · cases found
      | some first =>
          rw [lookup] at found
          dsimp only at found
          obtain ⟨before, after, rfl, earlier, later⟩ := ih lookup
          split at found
          · rename_i head_first
            cases found
            simp only [Bool.and_eq_true, decide_eq_true_eq] at head_first
            refine ⟨[], _, rfl, by simp, fun other member holds => ?_⟩
            refine le_trans head_first.2 ?_
            rcases List.mem_append.mp member with old | new
            · exact (earlier other old holds).le
            · rcases List.mem_cons.mp new with rfl | new
              · exact le_refl _
              · exact later other new holds
          · rename_i head_later
            cases found
            refine ⟨head :: before, after, rfl, fun other member holds => ?_, later⟩
            rcases List.mem_cons.mp member with rfl | old
            · simp only [holds, Bool.true_and, decide_eq_true_eq, not_le] at head_later
              exact head_later
            · exact earlier other old holds

/-- An element with a property is the first such one in the sorted list when those before it in the
list have greater keys and those after it no smaller ones.
-/
theorem find?_sortByKey_of_first {satisfies : α → Bool} {before after : List α} {item : α}
    (holds : satisfies item = true)
    (earlier : ∀ other ∈ before, satisfies other = true → key item < key other)
    (later : ∀ other ∈ after, satisfies other = true → key item ≤ key other)
    : (sortByKey key (before ++ item :: after)).find? satisfies = some item := by
  cases lookup : (sortByKey key (before ++ item :: after)).find? satisfies with
  | none =>
      have absent := List.find?_eq_none.mp lookup item (mem_sortByKey.mpr (by simp))
      exact absurd holds absent
  | some first =>
      have firstHolds := List.find?_some lookup
      obtain ⟨front, back, split, ahead, behind⟩ := find?_sortByKey lookup
      rcases List.append_eq_append_iff.mp split with ⟨gap, rfl, tail⟩ | ⟨gap, rfl, tail⟩
      · cases gap with
        | nil =>
            simp only [List.nil_append, List.cons.injEq] at tail
            rw [tail.1]
        | cons second rest =>
            obtain ⟨rfl, rfl⟩ := List.cons.inj tail
            have small := ahead item (by simp) holds
            have large := later first (by simp) firstHolds
            exact absurd small (not_lt.mpr large)
      · cases gap with
        | nil =>
            simp only [List.nil_append, List.cons.injEq] at tail
            rw [tail.1]
        | cons second rest =>
            obtain ⟨rfl, rfl⟩ := List.cons.inj tail
            have small := earlier first (by simp) firstHolds
            have large := behind item (by simp) holds
            exact absurd small (not_lt.mpr large)

end ChiaQuery.Library
