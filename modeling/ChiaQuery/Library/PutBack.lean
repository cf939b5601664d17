import Mathlib.Data.Finset.Basic
import Mathlib.Data.Finset.Disjoint
import Mathlib.Data.Finset.SDiff

/-! A set that others add to and remove from while copies of it are held, each to be put back
later in parts. An element that was removed since a copy was taken, and not added since, has
lapsed for that copy. Putting back what has not lapsed brings back nothing that was removed.
-/

namespace ChiaQuery.Library

variable {α : Type*} [DecidableEq α]

/-- A copy of a set: the elements still to be put back, and those removed since it was taken
and not added since.
-/
structure HeldCopy (α : Type*) where
  pending : Finset α
  lapsed : Finset α

namespace HeldCopy

/-- Elements were added to the set by others. -/
def readded (copy : HeldCopy α) (elements : Finset α) : HeldCopy α :=
  { copy with lapsed := copy.lapsed \ elements }

/-- Elements were removed from the set. -/
def missing (copy : HeldCopy α) (elements : Finset α) : HeldCopy α :=
  { copy with lapsed := copy.lapsed ∪ elements }

end HeldCopy

/-- The set holds nothing that has lapsed for a copy; and what one copy will put back and has
lapsed for another has lapsed for the one too.
-/
structure NothingReturned (current : Finset α) (copies : List (HeldCopy α)) : Prop where
  apart : ∀ copy ∈ copies, ∀ element ∈ copy.lapsed, element ∉ current
  shared
    : ∀ holder ∈ copies, ∀ other ∈ copies, ∀ element ∈ holder.pending,
        element ∈ other.lapsed → element ∈ holder.lapsed

namespace NothingReturned

variable {current elements rest : Finset α} {copies fewer : List (HeldCopy α)}

omit [DecidableEq α] in
theorem none (current : Finset α) : NothingReturned current [] where
  apart copy member := by cases member
  shared holder member := by cases member

omit [DecidableEq α] in
theorem subset (h : NothingReturned current copies)
    (fewer_mem : ∀ copy ∈ fewer, copy ∈ copies)
    : NothingReturned current fewer where
  apart copy member := h.apart copy (fewer_mem copy member)
  shared holder member other otherMember :=
    h.shared holder (fewer_mem holder member) other (fewer_mem other otherMember)

/-- Others add elements, which then lapse for no copy. -/
theorem add (h : NothingReturned current copies)
    : NothingReturned (current ∪ elements)
        (copies.map (fun copy => copy.readded elements)) where
  apart copy member element lapsed := by
    obtain ⟨before, older, rfl⟩ := List.mem_map.mp member
    obtain ⟨lapsed, fresh⟩ := Finset.mem_sdiff.mp lapsed
    rw [Finset.mem_union, not_or]
    exact ⟨h.apart before older element lapsed, fresh⟩
  shared holder member other otherMember element pending lapsed := by
    obtain ⟨holder, older, rfl⟩ := List.mem_map.mp member
    obtain ⟨other, otherOlder, rfl⟩ := List.mem_map.mp otherMember
    obtain ⟨lapsed, fresh⟩ := Finset.mem_sdiff.mp lapsed
    exact Finset.mem_sdiff.mpr
      ⟨h.shared holder older other otherOlder element pending lapsed, fresh⟩

/-- Elements are removed, and lapse for every copy. -/
theorem remove (h : NothingReturned current copies)
    : NothingReturned (current \ elements)
        (copies.map (fun copy => copy.missing elements)) where
  apart copy member element lapsed := by
    obtain ⟨before, older, rfl⟩ := List.mem_map.mp member
    rw [Finset.mem_sdiff, not_and_or, not_not]
    exact (Finset.mem_union.mp lapsed).imp_left (h.apart before older element)
  shared holder member other otherMember element pending lapsed := by
    obtain ⟨holder, older, rfl⟩ := List.mem_map.mp member
    obtain ⟨other, otherOlder, rfl⟩ := List.mem_map.mp otherMember
    exact Finset.mem_union.mpr
      ((Finset.mem_union.mp lapsed).imp_left
        (h.shared holder older other otherOlder element pending))

omit [DecidableEq α] in
/-- A new copy is of what the set holds, so nothing in it has lapsed for an older one. -/
theorem take (h : NothingReturned current copies) (held : elements ⊆ current)
    : NothingReturned current (copies ++ [{ pending := elements, lapsed := ∅ }]) where
  apart copy member element lapsed := by
    rcases List.mem_append.mp member with older | new
    · exact h.apart copy older element lapsed
    · rw [List.mem_singleton.mp new] at lapsed
      exact absurd lapsed (Finset.notMem_empty element)
  shared holder member other otherMember element pending lapsed := by
    rcases List.mem_append.mp otherMember with older | new
    · rcases List.mem_append.mp member with holderOlder | holderNew
      · exact h.shared holder holderOlder other older element pending lapsed
      · rw [List.mem_singleton.mp holderNew] at pending
        exact absurd (held pending) (h.apart other older element lapsed)
    · rw [List.mem_singleton.mp new] at lapsed
      exact absurd lapsed (Finset.notMem_empty element)

/-- A copy puts elements back of which none has lapsed for it, and so for no other copy. -/
theorem putBack (h : NothingReturned current copies) {index : Nat} {copy : HeldCopy α}
    (found : copies[index]? = some copy) (mine : elements ⊆ copy.pending)
    (left : rest ⊆ copy.pending) (kept : ∀ element ∈ elements, element ∉ copy.lapsed)
    : NothingReturned (current ∪ elements)
        (copies.set index { copy with pending := rest }) := by
  have member : copy ∈ copies := List.mem_of_getElem? found
  -- Every copy of the new list has the lapsed elements of one of the old list.
  have old : ∀ next ∈ copies.set index { copy with pending := rest },
      ∃ before ∈ copies, next.lapsed = before.lapsed ∧ next.pending ⊆ before.pending := by
    intro next nextMember
    rcases List.mem_or_eq_of_mem_set nextMember with same | rfl
    · exact ⟨next, same, rfl, Finset.Subset.refl _⟩
    · exact ⟨copy, member, rfl, left⟩
  constructor
  · intro next nextMember element lapsed
    obtain ⟨before, beforeMember, same, -⟩ := old next nextMember
    rw [same] at lapsed
    rw [Finset.mem_union, not_or]
    refine ⟨h.apart before beforeMember element lapsed, fun put => ?_⟩
    exact kept element put
      (h.shared copy member before beforeMember element (mine put) lapsed)
  · intro holder holderMember other otherMember element pending lapsed
    obtain ⟨before, beforeMember, same, fewer⟩ := old holder holderMember
    obtain ⟨otherBefore, otherBeforeMember, otherSame, -⟩ := old other otherMember
    rw [otherSame] at lapsed
    rw [same]
    exact h.shared before beforeMember otherBefore otherBeforeMember element
      (fewer pending) lapsed

end NothingReturned

end ChiaQuery.Library
