import Mathlib.Data.List.Basic

/-! Turns that a wrapping counter hands out: the turn is that of the item at the counter modulo
the number of items. While the items stay, twice as many turns as items reach every item,
wherever the counter wraps. Items that leave shift the others, but they can do so only as often as
there are items.
-/

namespace ChiaQuery.Library

variable {α : Type*}

/-- The item whose turn it is. -/
def turnOf (items : List α) (served : Nat) : Option α :=
  items[served % items.length]?

/-- Twice as many turns as there are items reach every place. Either the counter wraps late
enough to reach them before, or it starts over from zero and reaches them in order.
-/
theorem exists_turn {count wrap served index : Nat} (fits : count ≤ wrap)
    (below : served < wrap) (within : index < count)
    : ∃ turn < 2 * count, (served + turn) % wrap % count = index := by
  by_cases late : served + count ≤ wrap
  · have place := Nat.mod_lt served (Nat.zero_lt_of_lt within)
    have parts := Nat.div_add_mod served count
    have reaches (turn round : Nat) (early : turn < count)
        (moved : served + turn = count * round + index)
        : (served + turn) % wrap % count = index := by
      have unwrapped : served + turn < wrap := by omega
      rw [Nat.mod_eq_of_lt unwrapped, moved, Nat.mul_add_mod, Nat.mod_eq_of_lt within]
    by_cases ahead : served % count ≤ index
    · refine ⟨index - served % count, by omega, ?_⟩
      exact reaches _ (served / count) (by omega) (by omega)
    · refine ⟨count + index - served % count, by omega, ?_⟩
      apply reaches _ (served / count + 1) (by omega)
      rw [Nat.mul_add_one]
      omega
  · refine ⟨wrap - served + index, by omega, ?_⟩
    have moved : served + (wrap - served + index) = wrap + index := by omega
    have unwrapped : index < wrap := by omega
    rw [moved, Nat.add_mod_left, Nat.mod_eq_of_lt unwrapped, Nat.mod_eq_of_lt within]

/-- The last `taken` turns were all taken from these items, and each of them was seen. -/
def Swept (wrap : Nat) (seen : α → Prop) (items : List α) (served taken : Nat) : Prop :=
  ∃ first < wrap,
    served = (first + taken) % wrap
    ∧ ∀ turn < taken, ∀ item, turnOf items ((first + turn) % wrap) = some item → seen item

/-- Every item was seen, or `left` more turns are enough, however the items leave meanwhile. -/
def Sweeping (wrap : Nat) (seen : α → Prop) (items : List α) (served left : Nat) : Prop :=
  (∀ item ∈ items, seen item)
  ∨ ∃ taken, Swept wrap seen items served taken
      ∧ items.length * (items.length + 1) ≤ taken + left

variable {wrap served taken left : Nat} {seen more : α → Prop} {items fewer : List α}

namespace Swept

theorem start (below : served < wrap) : Swept wrap seen items served 0 :=
  ⟨served, below, (Nat.mod_eq_of_lt below).symm, fun _ absurd => nomatch absurd⟩

theorem below (swept : Swept wrap seen items served taken) : served < wrap := by
  obtain ⟨first, begun, rfl, -⟩ := swept
  exact Nat.mod_lt _ (Nat.zero_lt_of_lt begun)

theorem mono (swept : Swept wrap seen items served taken) (grows : ∀ item, seen item → more item)
    : Swept wrap more items served taken := by
  obtain ⟨first, begun, counted, each⟩ := swept
  exact ⟨first, begun, counted, fun turn early item taken =>
    grows item (each turn early item taken)⟩

/-- One more turn, whose item is seen. -/
theorem turn (swept : Swept wrap seen items served taken)
    (taker : ∀ item, turnOf items served = some item → seen item)
    : Swept wrap seen items ((served + 1) % wrap) (taken + 1) := by
  obtain ⟨first, begun, rfl, each⟩ := swept
  refine ⟨first, begun, by rw [Nat.mod_add_mod, Nat.add_assoc], ?_⟩
  intro turn early item found
  rcases Nat.lt_succ_iff_lt_or_eq.mp early with before | rfl
  · exact each turn before item found
  · exact taker item found

/-- Twice as many turns as there are items have seen every item. -/
theorem covers (swept : Swept wrap seen items served taken) (fits : items.length ≤ wrap)
    (enough : 2 * items.length ≤ taken)
    : ∀ item ∈ items, seen item := by
  intro item member
  obtain ⟨first, begun, -, each⟩ := swept
  obtain ⟨index, within, rfl⟩ := List.mem_iff_getElem.mp member
  obtain ⟨turn, early, reached⟩ := exists_turn fits begun within
  apply each turn (Nat.lt_of_lt_of_le early enough)
  rw [turnOf, reached]
  exact List.getElem?_eq_getElem within

end Swept

namespace Sweeping

theorem start (below : served < wrap) (enough : items.length * (items.length + 1) ≤ left)
    : Sweeping wrap seen items served left :=
  Or.inr ⟨0, .start below, by omega⟩

theorem mono (sweeping : Sweeping wrap seen items served left)
    (grows : ∀ item, seen item → more item)
    : Sweeping wrap more items served left := by
  rcases sweeping with all | ⟨taken, swept, enough⟩
  · exact Or.inl (fun item member => grows item (all item member))
  · exact Or.inr ⟨taken, swept.mono grows, enough⟩

/-- A turn is taken, and its item is seen. -/
theorem turn (sweeping : Sweeping wrap seen items served (left + 1))
    (taker : ∀ item, turnOf items served = some item → seen item)
    : Sweeping wrap seen items ((served + 1) % wrap) left := by
  rcases sweeping with all | ⟨taken, swept, enough⟩
  · exact Or.inl all
  · exact Or.inr ⟨taken + 1, swept.turn taker, by omega⟩

/-- Items leave. Either the turns taken so far have seen them all, or too few were taken to
be missed from what the shorter list needs.
-/
theorem leave (sweeping : Sweeping wrap seen items served left) (fits : items.length ≤ wrap)
    (shrunk : fewer.Sublist items)
    : Sweeping wrap seen fewer served left := by
  rcases sweeping with all | ⟨taken, swept, enough⟩
  · exact Or.inl (fun item member => all item (shrunk.subset member))
  · rcases Nat.lt_or_eq_of_le shrunk.length_le with shorter | same
    · by_cases done : 2 * items.length ≤ taken
      · exact Or.inl (fun item member => swept.covers fits done item (shrunk.subset member))
      · apply start swept.below
        calc
          fewer.length * (fewer.length + 1)
            ≤ (items.length - 1) * items.length :=
              Nat.mul_le_mul (by omega) (by omega)
          _ = items.length * (items.length + 1) - 2 * items.length := by
              rw [Nat.sub_mul, Nat.mul_add]
              omega
          _ ≤ left := by omega
    · rw [shrunk.eq_of_length same]
      exact Or.inr ⟨taken, swept, enough⟩

/-- Once no more turns are needed, every item that is left was seen. -/
theorem all_seen (sweeping : Sweeping wrap seen items served 0) (fits : items.length ≤ wrap)
    : ∀ item ∈ items, seen item := by
  rcases sweeping with all | ⟨taken, swept, enough⟩
  · exact all
  · cases items with
    | nil => exact fun item member => nomatch member
    | cons first rest =>
        apply swept.covers fits
        have many : 2 ≤ (first :: rest).length + 1 := by simp
        calc
          2 * (first :: rest).length = (first :: rest).length * 2 := Nat.mul_comm _ _
          _ ≤ (first :: rest).length * ((first :: rest).length + 1) :=
              Nat.mul_le_mul_left _ many
          _ ≤ taken := enough

end Sweeping

end ChiaQuery.Library
