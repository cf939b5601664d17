import ChiaQuery.Peer.HonestHistory

/-! Coin states without a created height, of coins that are not on the chain. Their records read
as created at height 0, so every height they are held to keeps them as existing coins.
-/

namespace ChiaQuery

open ChiaQuery.Library

/-- The states of coins that are on the chain. -/
def onChain (states : List CoinState) : List CoinState :=
  states.filter (fun state => state.createdHeight.isSome)

/-- What a peer's coin states come to at a height. -/
def normalisedStates (states : List CoinState) (height : UInt32) : List CoinRecord :=
  normaliseAt (coinStatesToRecords states) height

/-- Coins that are not on the chain are neither returned, whatever is asked for, nor counted
towards agreement.
-/
structure LeavesOutUncreated (states : List CoinState) (height : UInt32) : Prop where
  returned
    : ∀ projection,
        project (normalisedStates states height) projection
        = project (normalisedStates (onChain states) height) projection
  counted
    : fingerprint (normalisedStates states height)
      = fingerprint (normalisedStates (onChain states) height)

/-- A coin without a created height is held to every height as one created at 0. -/
theorem createdHeight_of_uncreated {state : CoinState} (uncreated : state.createdHeight = none)
    : createdHeight (coinStateToRecord state) = 0 := by
  simp [createdHeight, coinStateToRecord, uncreated]

theorem normalisedStates_cons (state : CoinState) (states : List CoinState) (height : UInt32)
    : normalisedStates (state :: states) height
      = if createdHeight (coinStateToRecord state) ≤ height then
          heldAt height (coinStateToRecord state) :: normalisedStates states height
        else normalisedStates states height := by
  simp only [normalisedStates, coinStatesToRecords, normaliseAt, List.map_cons,
    List.filter_cons, decide_eq_true_eq]
  split <;> rfl

/-- At every height the answer holds, beside the coins on the chain, one record for each state
without a created height. Induction on the states.
-/
theorem length_normalisedStates (states : List CoinState) (height : UInt32)
    : (normalisedStates states height).length
      = (normalisedStates (onChain states) height).length
        + states.countP (fun state => state.createdHeight.isNone) := by
  induction states with
  | nil => rfl
  | cons state states ih =>
      rw [normalisedStates_cons, List.countP_cons]
      cases created : state.createdHeight with
      | none =>
          have kept : createdHeight (coinStateToRecord state) ≤ height := by
            rw [createdHeight_of_uncreated created]
            exact UInt32.le_iff_toNat_le.mpr (Nat.zero_le _)
          have dropped : onChain (state :: states) = onChain states := by
            simp [onChain, created]
          rw [if_pos kept, dropped, List.length_cons, ih]
          simp [Nat.add_assoc]
      | some first =>
          have listed : onChain (state :: states) = state :: onChain states := by
            simp [onChain, created]
          rw [listed, normalisedStates_cons]
          split
          · rw [List.length_cons, List.length_cons, ih]
            simp [Nat.add_right_comm]
          · rw [ih]
            simp

theorem project_whole (items : List CoinRecord)
    : project items { includeSpent := true } = items := by
  refine List.filter_eq_self.mpr (fun item _ => ?_)
  simp [wanted]

/-- The normalised answer leaves out the coins that are not on the chain exactly when the peer
states none.
-/
theorem leavesOutUncreated_iff (states : List CoinState) (height : UInt32)
    : LeavesOutUncreated states height
      ↔ ∀ state ∈ states, state.createdHeight.isSome = true := by
  constructor
  · intro leavesOut
    have same := leavesOut.returned { includeSpent := true }
    rw [project_whole, project_whole] at same
    have lengths := length_normalisedStates states height
    rw [same] at lengths
    have noneUncreated : states.countP (fun state => state.createdHeight.isNone) = 0 := by
      omega
    intro state member
    simpa [Option.isSome_iff_ne_none] using List.countP_eq_zero.mp noneUncreated state member
  · intro created
    have all : onChain states = states := List.filter_eq_self.mpr created
    exact ⟨fun projection => by rw [all], by rw [all]⟩

/-- A peer's state of a coin that was never created is returned as a coin created at height 0. -/
theorem uncreated_coin_is_returned
    : ¬ ∀ (states : List CoinState) (height : UInt32), LeavesOutUncreated states height := by
  intro claim
  let uncreated : CoinState :=
    {
      coin := { parentCoinInfo := 1, puzzleHash := 2, amount := 3 },
      createdHeight := none,
      spentHeight := none
    }
  have returned := (claim [uncreated] 98).returned { includeSpent := true }
  exact absurd returned (by decide)

end ChiaQuery
