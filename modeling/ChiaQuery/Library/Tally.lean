import Mathlib.Data.List.Perm.Basic

/-! Tallying a round of answers to one question. An answer agrees, differs with a detail, or
never came; the first detail is kept and no number of agreements removes it.
-/

namespace ChiaQuery.Library

variable {ι δ : Type*}

/-- What one voter's answer says about the question put to it. -/
inductive Vote (δ : Type*) where
  | agrees
  | differs (detail : δ)
  | failed

namespace Vote

def isAgreement : Vote δ → Bool
  | agrees => true
  | _ => false

def isDifference : Vote δ → Bool
  | differs _ => true
  | _ => false

def isFailure : Vote δ → Bool
  | failed => true
  | _ => false

end Vote

/-- What a round has established: agreements, the first difference and the silent voters. -/
structure Tally (ι δ : Type*) where
  agreed : Nat := 0
  disagreement : Option δ := none
  failed : List ι := []

/-- Take one voter's vote into account. -/
def Tally.record (tally : Tally ι δ) (ballot : ι × Vote δ) : Tally ι δ :=
  match ballot.2 with
  | .agrees => { tally with agreed := tally.agreed + 1 }
  | .differs detail =>
      { tally with disagreement := tally.disagreement.or (some detail) }
  | .failed => { tally with failed := tally.failed ++ [ballot.1] }

/-- Tally the votes of a round in the order they are listed. -/
def count (ballots : List (ι × Vote δ)) : Tally ι δ :=
  ballots.foldl Tally.record {}

/-- What a tally that already holds something becomes, by induction on the ballots. -/
theorem foldl_record (tally : Tally ι δ) (ballots : List (ι × Vote δ))
    : (ballots.foldl Tally.record tally).agreed
        = tally.agreed + ballots.countP (fun ballot => ballot.2.isAgreement)
      ∧ (ballots.foldl Tally.record tally).disagreement.isSome
        = (tally.disagreement.isSome
          || ballots.any (fun ballot => ballot.2.isDifference))
      ∧ (ballots.foldl Tally.record tally).failed
        = tally.failed
          ++ (ballots.filter (fun ballot => ballot.2.isFailure)).map Prod.fst := by
  induction ballots generalizing tally with
  | nil => simp
  | cons ballot rest ih =>
      obtain ⟨voter, vote⟩ := ballot
      obtain ⟨hagreed, hdiffers, hfailed⟩ := ih (tally.record (voter, vote))
      rw [List.foldl_cons, hagreed, hdiffers, hfailed]
      cases vote with
      | agrees =>
          simp [Tally.record, Vote.isAgreement, Vote.isDifference, Vote.isFailure]
          omega
      | differs detail =>
          simp [Tally.record, Vote.isAgreement, Vote.isDifference, Vote.isFailure]
      | failed =>
          simp [Tally.record, Vote.isAgreement, Vote.isDifference, Vote.isFailure]

theorem count_agreed (ballots : List (ι × Vote δ))
    : (count ballots).agreed = ballots.countP (fun ballot => ballot.2.isAgreement) := by
  simpa [count] using (foldl_record ({} : Tally ι δ) ballots).1

theorem count_disagreement_isSome (ballots : List (ι × Vote δ))
    : (count ballots).disagreement.isSome
      = ballots.any (fun ballot => ballot.2.isDifference) := by
  simpa [count] using (foldl_record ({} : Tally ι δ) ballots).2.1

theorem count_failed (ballots : List (ι × Vote δ))
    : (count ballots).failed
      = (ballots.filter (fun ballot => ballot.2.isFailure)).map Prod.fst := by
  simpa [count] using (foldl_record ({} : Tally ι δ) ballots).2.2

end ChiaQuery.Library
