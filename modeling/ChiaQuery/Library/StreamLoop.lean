import Mathlib.Order.Basic

/-! Loops that draw one value of a stream in every turn. A turn either goes on from a new state
or returns, and a loop need not ever return.
-/

namespace ChiaQuery.Library

/-- Where a loop stands: in its next turn, or behind it with a result. -/
inductive Loop (σ ρ : Type*) where
  | running (state : σ)
  | returned (result : ρ)
  deriving DecidableEq, Repr

namespace Loop

variable {σ ρ τ α : Type*}

/-- Compute with the result, once there is one. -/
def andThen (compute : ρ → τ) : Loop σ ρ → Loop σ τ
  | running state => running state
  | returned result => returned (compute result)

/-- Take the next turn with a value, unless the loop has returned. -/
def resume (turn : σ → α → Loop σ ρ) (value : α) : Loop σ ρ → Loop σ ρ
  | running state => turn state value
  | returned result => returned result

/-- Where a loop stands after a number of turns. -/
def after (turn : σ → α → Loop σ ρ) (stream : Nat → α) (start : σ) : Nat → Loop σ ρ
  | 0 => running start
  | turns + 1 => (after turn stream start turns).resume turn (stream turns)

/-- Where a loop stands after a number of turns when it gives up at `cap` of them. -/
def within (cap : Nat) (giveUp : σ → ρ) (turn : σ → α → Loop σ ρ) (stream : Nat → α) (start : σ)
    (turns : Nat)
    : Loop σ ρ :=
  if turns < cap then after turn stream start turns
  else
    match after turn stream start cap with
    | running state => returned (giveUp state)
    | returned result => returned result

/-- A loop, given by where it stands after every number of turns, comes to a result. -/
def Returns (loopAfter : Nat → Loop σ ρ) (result : ρ) : Prop :=
  ∃ turns, loopAfter turns = returned result

variable {turn : σ → α → Loop σ ρ} {stream : Nat → α} {start : σ}

/-- A computed result comes from one that was returned. -/
theorem andThen_returned {loop : Loop σ ρ} {compute : ρ → τ} {result : τ}
    (h : loop.andThen compute = returned result)
    : ∃ earlier, loop = returned earlier ∧ compute earlier = result := by
  cases loop with
  | running state => cases h
  | returned earlier =>
      cases h
      exact ⟨earlier, rfl, rfl⟩

theorem andThen_running {loop : Loop σ ρ} {compute : ρ → τ} {state : σ}
    : loop.andThen compute = running state ↔ loop = running state := by
  cases loop <;> simp [andThen]

/-- What a loop has returned, it returned in one of its turns, by induction on them. -/
theorem exists_turn_of_returned {turns : Nat} {result : ρ}
    (h : after turn stream start turns = returned result)
    : ∃ last < turns, ∃ state,
        after turn stream start last = running state
        ∧ turn state (stream last) = returned result := by
  induction turns with
  | zero => cases h
  | succ turns ih =>
      cases before : after turn stream start turns with
      | running state =>
          simp only [after, before, resume] at h
          exact ⟨turns, Nat.lt_succ_self turns, state, before, h⟩
      | returned earlier =>
          simp only [after, before, resume] at h
          cases h
          obtain ⟨last, bound, state, found⟩ := ih before
          exact ⟨last, Nat.lt_succ_of_lt bound, state, found⟩

/-- A loop that runs behind a turn went on from it. -/
theorem exists_turn_of_running {turns : Nat} {next : σ}
    (h : after turn stream start (turns + 1) = running next)
    : ∃ state,
        after turn stream start turns = running state
        ∧ turn state (stream turns) = running next := by
  cases before : after turn stream start turns with
  | returned result => simp [after, before, resume] at h
  | running state =>
      simp only [after, before, resume] at h
      exact ⟨state, rfl, h⟩

/-- What the start satisfies and every turn that goes on preserves holds while the loop runs. -/
theorem running_invariant {Inv : Nat → σ → Prop} (initial : Inv 0 start)
    (step
      : ∀ turns state next,
          Inv turns state → turn state (stream turns) = running next → Inv (turns + 1) next)
    : ∀ turns state, after turn stream start turns = running state → Inv turns state := by
  intro turns
  induction turns with
  | zero =>
      intro state h
      cases h
      exact initial
  | succ turns ih =>
      intro state h
      obtain ⟨previous, before, went⟩ := exists_turn_of_running h
      exact step turns previous state (ih previous before) went

section Decided

variable {Continues : α → Prop}

/-- Where the values alone decide whether a turn goes on, a loop is still running exactly when
all the values so far let it.
-/
theorem exists_running_iff
    (decided : ∀ state value, (∃ next, turn state value = running next) ↔ Continues value)
    (turns : Nat)
    : (∃ state, after turn stream start turns = running state)
      ↔ ∀ index < turns, Continues (stream index) := by
  induction turns with
  | zero => simp [after]
  | succ turns ih =>
      constructor
      · intro h index bound
        obtain ⟨next, running⟩ := h
        obtain ⟨state, before, went⟩ := exists_turn_of_running running
        rcases Nat.lt_succ_iff_lt_or_eq.mp bound with earlier | rfl
        · exact ih.mp ⟨state, before⟩ index earlier
        · exact (decided state _).mp ⟨next, went⟩
      · intro continues
        obtain ⟨state, before⟩ :=
          ih.mpr (fun index bound => continues index (Nat.lt_succ_of_lt bound))
        simp only [after, before, resume]
        exact (decided state _).mpr (continues turns (Nat.lt_succ_self turns))

end Decided

/-- A loop returns in the turn whose value stops it. -/
theorem after_succ_of_running {turns : Nat} {state : σ}
    (h : after turn stream start turns = running state)
    : after turn stream start (turns + 1) = turn state (stream turns) := by
  simp only [after, h, resume]

/-- What a loop has returned stays, by induction on the turns since. -/
theorem after_returned_mono {turns later : Nat} {result : ρ} (le : turns ≤ later)
    (h : after turn stream start turns = returned result)
    : after turn stream start later = returned result := by
  induction le with
  | refl => exact h
  | step _ ih => simp only [after, ih, resume]

/-- A loop with a cap has returned when it reaches the cap. -/
theorem exists_within_returned (cap : Nat) (giveUp : σ → ρ)
    : ∃ result, within cap giveUp turn stream start cap = returned result := by
  simp only [within, Nat.lt_irrefl, if_false]
  cases after turn stream start cap with
  | running state => exact ⟨giveUp state, rfl⟩
  | returned result => exact ⟨result, rfl⟩

/-- A loop with a cap runs below it, as it would without. -/
theorem within_running_iff {cap turns : Nat} {giveUp : σ → ρ} {state : σ}
    : within cap giveUp turn stream start turns = running state
      ↔ turns < cap ∧ after turn stream start turns = running state := by
  unfold within
  split
  · rename_i inTime
    simp [inTime]
  · rename_i late
    constructor
    · intro h
      split at h <;> cases h
    · intro h
      exact absurd h.1 late

/-- A result that giving up does not lead to is returned within the cap. -/
theorem within_returned {cap turns : Nat} {giveUp : σ → ρ} {result : ρ}
    (h : within cap giveUp turn stream start turns = returned result)
    (gained : ∀ state, giveUp state ≠ result)
    : ∃ earlier ≤ cap, after turn stream start earlier = returned result := by
  unfold within at h
  split at h
  · rename_i inTime
    exact ⟨turns, Nat.le_of_lt inTime, h⟩
  · split at h
    · rename_i state _
      cases h
      exact absurd rfl (gained state)
    · rename_i earlier returned
      cases h
      exact ⟨cap, Nat.le_refl cap, returned⟩

/-- A loop with a cap comes to a result that giving up does not lead to exactly when the loop
returns it within the cap.
-/
theorem returns_within_iff {cap : Nat} {giveUp : σ → ρ} {result : ρ}
    (gained : ∀ state, giveUp state ≠ result)
    : Returns (within cap giveUp turn stream start) result
      ↔ after turn stream start cap = returned result := by
  constructor
  · intro h
    obtain ⟨turns, returned⟩ := h
    obtain ⟨earlier, inTime, returned⟩ := within_returned returned gained
    exact after_returned_mono inTime returned
  · intro h
    exact ⟨cap, by simp [within, h]⟩

end Loop

end ChiaQuery.Library
