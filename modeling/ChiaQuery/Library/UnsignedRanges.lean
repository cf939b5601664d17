import Mathlib.Data.List.Forall2

/-! Half-open ranges of 32-bit numbers, the subtraction that sizes one, and reading one in its
order up to the first failure.
-/

namespace ChiaQuery.Library

/-- What a subtraction comes to: its value, `none` where it panics, and whether it underflowed. -/
structure Subtraction where
  value : Option UInt32
  underflowed : Bool
  deriving DecidableEq, Repr

/-- `left - right`: an underflow panics where overflows are checked, and wraps elsewhere. -/
def subtract (overflowChecks : Bool) (left right : UInt32) : Subtraction :=
  if right ≤ left then { value := some (left - right), underflowed := false }
  else { value := if overflowChecks then none else some (left - right), underflowed := true }

/-- The numbers that `start..stop` iterates over. -/
def rangeOf (start stop : UInt32) : List UInt32 :=
  (List.range' start.toNat (stop.toNat - start.toNat)).map UInt32.ofNat

/-- The numbers from `start` to before `stop`, each once and in their order. -/
structure IsRange (start stop : UInt32) (numbers : List UInt32) : Prop where
  increasing : numbers.Pairwise (fun earlier later => earlier < later)
  mem_iff : ∀ number, number ∈ numbers ↔ start ≤ number ∧ number < stop

section Ranges

variable {overflowChecks : Bool} {start stop number : UInt32}

theorem subtract_of_le (ordered : start ≤ stop)
    : subtract overflowChecks stop start
      = { value := some (stop - start), underflowed := false } := by
  rw [subtract, if_pos ordered]

theorem subtract_underflowed_iff
    : (subtract overflowChecks stop start).underflowed = false ↔ start ≤ stop := by
  unfold subtract
  split <;> simp [*]

theorem mem_rangeOf : number ∈ rangeOf start stop ↔ start ≤ number ∧ number < stop := by
  rw [UInt32.le_iff_toNat_le, UInt32.lt_iff_toNat_lt, rangeOf, List.mem_map]
  constructor
  · rintro ⟨value, member, rfl⟩
    rw [List.mem_range'_1] at member
    have bound := stop.toNat_lt
    rw [UInt32.toNat_ofNat_of_lt' (by simp only [UInt32.size]; omega)]
    omega
  · intro between
    refine ⟨number.toNat, ?_, UInt32.ofNat_toNat⟩
    rw [List.mem_range'_1]
    omega

/-- Iteration visits a range in its order. -/
theorem isRange_rangeOf (start stop : UInt32) : IsRange start stop (rangeOf start stop) := by
  refine ⟨?_, fun number => mem_rangeOf⟩
  rw [rangeOf, List.pairwise_map]
  refine (List.pairwise_lt_range' 1).imp_of_mem ?_
  intro earlier later earlierMember laterMember less
  rw [List.mem_range'_1] at earlierMember laterMember
  have bound := stop.toNat_lt
  have small : later < UInt32.size := by simp only [UInt32.size]; omega
  rw [UInt32.lt_iff_toNat_lt, UInt32.toNat_ofNat_of_lt' small,
    UInt32.toNat_ofNat_of_lt' (Nat.lt_trans less small)]
  exact less

namespace IsRange

variable {numbers others : List UInt32}

/-- A range has one listing: both have the same members, each once, in the same order. -/
theorem unique (left : IsRange start stop numbers) (right : IsRange start stop others)
    : numbers = others := by
  have apart {listed : List UInt32} (range : IsRange start stop listed) : listed.Nodup :=
    range.increasing.imp (fun less => UInt32.ne_of_lt less)
  have same : numbers.Perm others :=
    (List.perm_ext_iff_of_nodup (apart left) (apart right)).mpr (fun number =>
      (left.mem_iff number).trans (right.mem_iff number).symm)
  refine same.eq_of_pairwise ?_ left.increasing right.increasing
  intro earlier later _ _ less greater
  exact absurd greater (UInt32.lt_asymm less)

/-- Nothing lies between numbers in the reverse order. -/
theorem eq_nil (range : IsRange start stop numbers) (reversed : stop ≤ start)
    : numbers = [] := by
  rw [List.eq_nil_iff_forall_not_mem]
  intro number member
  obtain ⟨above, below⟩ := (range.mem_iff number).mp member
  rw [UInt32.le_iff_toNat_le] at reversed above
  rw [UInt32.lt_iff_toNat_lt] at below
  omega

end IsRange

end Ranges

section Reading

variable {κ ε α : Type*} {read : κ → Except ε α} {key : κ} {rest : List κ}

/-- What reading keys one after another comes to: every key's item in their order, or the
failure of the first key that has one.
-/
def InOrder (read : κ → Except ε α) (keys : List κ) : Except ε (List α) → Prop
  | .ok items => List.Forall₂ (fun key item => read key = .ok item) keys items
  | .error failure =>
      ∃ earlier key later,
        keys = earlier ++ key :: later
        ∧ (∀ before ∈ earlier, ∃ item, read before = .ok item)
        ∧ read key = .error failure

theorem InOrder.nil (read : κ → Except ε α) : InOrder read [] (.ok []) := List.Forall₂.nil

/-- The first failure ends the reading. -/
theorem InOrder.fail {failure : ε} (failed : read key = .error failure) (rest : List κ)
    : InOrder read (key :: rest) (.error failure) :=
  ⟨[], key, rest, rfl, by simp, failed⟩

/-- An item goes before what the rest comes to. -/
theorem InOrder.cons {item : α} {result : Except ε (List α)} (found : read key = .ok item)
    (ordered : InOrder read rest result)
    : InOrder read (key :: rest) (result.map (fun items => item :: items)) := by
  cases result with
  | ok items => exact List.Forall₂.cons found ordered
  | error failure =>
      obtain ⟨earlier, first, later, split, succeeded, failed⟩ := ordered
      refine ⟨key :: earlier, first, later, by rw [split, List.cons_append], ?_, failed⟩
      intro before member
      rcases List.mem_cons.mp member with rfl | member
      · exact ⟨item, found⟩
      · exact succeeded before member

/-- No keys are read without failing. -/
theorem InOrder.of_nil {result : Except ε (List α)} (ordered : InOrder read [] result)
    : result = .ok [] := by
  cases result with
  | ok items =>
      cases ordered
      rfl
  | error failure =>
      obtain ⟨earlier, key, later, split, -⟩ := ordered
      simp at split

end Reading

end ChiaQuery.Library
