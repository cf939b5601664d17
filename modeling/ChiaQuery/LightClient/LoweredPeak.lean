import ChiaQuery.LightClient.UpdateEffects

/-! When an update lowers the peak. It does so for the rollback of any cached coin that it does
not mention again, whether that coin is subscribed to or merely retained, and not for the change
of a coin that it does mention.
-/

namespace ChiaQuery.LightClient

open Std ChiaQuery.Library

namespace CoinStateCache

variable (coinId : ProtocolCoin → Bytes32)

/-- The cached coin `id` has a state that the update drops or takes a spend from, since it was
created or spent above the fork and the update does not mention it again.
-/
def RollsBack (cache : CoinStateCache) (items : List CoinState) (forkHeight : UInt32)
    (id : Bytes32) (state : CoinState)
    : Prop :=
  cache.get id = some state
  ∧ rollBack (cache.reasserted coinId items) forkHeight id state ≠ some state

/-- An update takes the peak to its own height: that is no lower, or the update rolls a coin back
to a fork below the peak and not above its height.
-/
def MovesPeak (cache : CoinStateCache) (items : List CoinState) (height forkHeight : UInt32)
    (peak : UInt32 × Bytes32)
    : Prop :=
  peak.1 ≤ height
  ∨ (∃ id state, cache.RollsBack coinId items forkHeight id state)
    ∧ forkHeight ≤ height ∧ forkHeight < peak.1

/-- The later cache has no peak as high as the earlier one. -/
def LowersPeak (before after : CoinStateCache) : Prop :=
  ∃ high, before.peak = some high ∧ ∀ low ∈ after.peak, low.1 < high.1

/-- An update warrants a lower peak: it rolls back a coin that is subscribed to, to a fork below
the peak and not above its own height.
-/
def Warrants (cache : CoinStateCache) : CacheOperation → Prop
  | .applyUpdate items height forkHeight _ =>
      (∃ id state,
        cache.RollsBack coinId items forkHeight id state
        ∧ cache.isSubscribed coinId state = true)
      ∧ forkHeight ≤ height
      ∧ ∃ peak, cache.peak = some peak ∧ forkHeight < peak.1
  | _ => False

/-- An operation lowers the peak only when it warrants that. -/
def LowersForSubscribed (cache : CoinStateCache) (operation : CacheOperation) : Prop :=
  cache.LowersPeak (cache.perform coinId operation) → cache.Warrants coinId operation

/-- An update from a fork to a height between that and the peak, if it rolls back any coin, rolls
back one that is subscribed to.
-/
def RollsBackSubscribed (cache : CoinStateCache) : CacheOperation → Prop
  | .applyUpdate items height forkHeight _ =>
      ∀ peak,
        cache.peak = some peak → forkHeight ≤ height → height < peak.1
        → (∃ id state, cache.RollsBack coinId items forkHeight id state)
        → ∃ id state,
            cache.RollsBack coinId items forkHeight id state
            ∧ cache.isSubscribed coinId state = true
  | _ => True

/-- A reorg from a fork below the peak to a height that is not below the fork, which changes what
is cached of a coin that is subscribed to.
-/
structure ReorgsSubscribed (cache : CoinStateCache) (items : List CoinState)
    (height forkHeight : UInt32) (peakHash : Bytes32) (peak : UInt32 × Bytes32)
    : Prop where
  known : cache.peak = some peak
  below : forkHeight < peak.1
  wellFormed : forkHeight ≤ height
  changes :
    ∃ id state,
      cache.get id = some state ∧ cache.isSubscribed coinId state = true
      ∧ (cache.applyUpdate coinId items height forkHeight peakHash).get id ≠ some state

/-- After a reorg of subscribed coins the peak is the reorg's. -/
def FollowsReorg (cache : CoinStateCache) : CacheOperation → Prop
  | .applyUpdate items height forkHeight peakHash =>
      ∀ peak,
        cache.ReorgsSubscribed coinId items height forkHeight peakHash peak
        → (cache.applyUpdate coinId items height forkHeight peakHash).peak
          = some (height, peakHash)
  | _ => True

/-- A reorg of subscribed coins reaches the peak's height, or rolls back some cached coin that it
does not mention.
-/
def RollsBackUnmentioned (cache : CoinStateCache) : CacheOperation → Prop
  | .applyUpdate items height forkHeight peakHash =>
      ∀ peak,
        cache.ReorgsSubscribed coinId items height forkHeight peakHash peak
        → peak.1 ≤ height ∨ ∃ id state, cache.RollsBack coinId items forkHeight id state
  | _ => True

variable {coinId} {cache : CoinStateCache} {items : List CoinState}
variable {height forkHeight : UInt32} {peakHash headerHash : Bytes32} {allowLower : Bool}
variable {peak : UInt32 × Bytes32} {operation : CacheOperation}

------------------------------------------------------------------------------------------
-- Where the peak is after an operation
------------------------------------------------------------------------------------------

theorem rolledBack_iff
    : cache.coins.any (fun id state =>
        rollBack (cache.reasserted coinId items) forkHeight id state ≠ some state) = true
      ↔ ∃ id state, cache.RollsBack coinId items forkHeight id state := by
  simp only [any_iff_exists_getElem?, decide_eq_true_eq]
  rfl

theorem applyUpdate_peak_of_moves (known : cache.peak = some peak)
    (moves : cache.MovesPeak coinId items height forkHeight peak)
    : (cache.applyUpdate coinId items height forkHeight peakHash).peak
      = some (height, peakHash) := by
  rw [applyUpdate_peak, afterFork, updatePeak_peak, if_pos]
  unfold MovesPeak at moves
  rw [← rolledBack_iff] at moves
  simpa [known, and_assoc] using moves

theorem applyUpdate_peak_of_stays (known : cache.peak = some peak)
    (stays : ¬ cache.MovesPeak coinId items height forkHeight peak)
    : (cache.applyUpdate coinId items height forkHeight peakHash).peak = some peak := by
  rw [applyUpdate_peak, afterFork, updatePeak_peak, if_neg]
  · exact known
  · unfold MovesPeak at stays
    rw [← rolledBack_iff] at stays
    simpa [known, and_assoc] using stays

theorem not_lowersPeak_of_same {after : CoinStateCache} (same : after.peak = cache.peak)
    : ¬ cache.LowersPeak after := by
  intro lowers
  obtain ⟨high, known, below⟩ := lowers
  exact UInt32.lt_irrefl _ (below high (same.trans known))

theorem not_lowersPeak_setPeak : ¬ cache.LowersPeak (cache.setPeak height headerHash) := by
  intro lowers
  have same : (cache.setPeak height headerHash).peak ≠ cache.peak :=
    fun same => not_lowersPeak_of_same same lowers
  obtain ⟨high, known, below⟩ := lowers
  rw [setPeak, updatePeak_peak] at same below
  split at same
  · rename_i changed
    rw [if_pos changed] at below
    simp only [known, Option.all_some, Bool.or_false, decide_eq_true_eq] at changed
    exact UInt32.not_lt.mpr changed (below _ rfl)
  · exact same rfl

------------------------------------------------------------------------------------------
-- Lowering for a retained coin
------------------------------------------------------------------------------------------

/-- What an operation lowers the peak for is subscribed to exactly when its rollback, where it
would lower the peak, is not of retained coins alone.
-/
theorem lowersForSubscribed_iff
    : cache.LowersForSubscribed coinId operation
      ↔ cache.RollsBackSubscribed coinId operation := by
  unfold LowersForSubscribed
  cases operation with
  | trackCoins ids => exact iff_of_true (absurd · (not_lowersPeak_of_same rfl)) trivial
  | trackPuzzleHashes hashes => exact iff_of_true (absurd · (not_lowersPeak_of_same rfl)) trivial
  | untrackCoins ids => exact iff_of_true (absurd · (not_lowersPeak_of_same rfl)) trivial
  | seed states => exact iff_of_true (absurd · (not_lowersPeak_of_same (seed_peak states))) trivial
  | setPeak height headerHash => exact iff_of_true (absurd · not_lowersPeak_setPeak) trivial
  | applyUpdate items height forkHeight peakHash =>
      constructor
      · intro warranted peak known wellFormed lower rolled
        have below := UInt32.lt_of_le_of_lt wellFormed lower
        have moved
            : (cache.applyUpdate coinId items height forkHeight peakHash).peak
              = some (height, peakHash) :=
          applyUpdate_peak_of_moves known (Or.inr ⟨rolled, wellFormed, below⟩)
        refine (warranted ⟨peak, known, ?_⟩).1
        intro low after
        cases moved.symm.trans after
        exact lower
      · intro subscribed lowers
        obtain ⟨peak, known, below⟩ := id lowers
        by_cases moves : cache.MovesPeak coinId items height forkHeight peak
        · have lower : height < peak.1 := below _ (applyUpdate_peak_of_moves known moves)
          obtain ⟨rolled, wellFormed, belowPeak⟩ :=
            moves.resolve_left (UInt32.not_le.mpr lower)
          exact ⟨subscribed peak known wellFormed lower rolled, wellFormed, peak, known, belowPeak⟩
        · have stays : (cache.perform coinId (.applyUpdate items height forkHeight peakHash)).peak
              = cache.peak := (applyUpdate_peak_of_stays known moves).trans known.symm
          exact absurd lowers (not_lowersPeak_of_same stays)

------------------------------------------------------------------------------------------
-- Reorgs that mention every coin they change
------------------------------------------------------------------------------------------

/-- A reorg is followed exactly when it reaches the peak's height or rolls back a coin it does
not mention.
-/
theorem followsReorg_iff
    : cache.FollowsReorg coinId operation ↔ cache.RollsBackUnmentioned coinId operation := by
  cases operation with
  | trackCoins | trackPuzzleHashes | untrackCoins | seed | setPeak => exact Iff.rfl
  | applyUpdate items height forkHeight peakHash =>
      refine forall_congr' (fun peak => imp_congr_right (fun reorg => ?_))
      have moves_iff
          : (peak.1 ≤ height ∨ ∃ id state, cache.RollsBack coinId items forkHeight id state)
            ↔ cache.MovesPeak coinId items height forkHeight peak :=
        or_congr_right (iff_self_and.mpr (fun _ => ⟨reorg.wellFormed, reorg.below⟩))
      rw [moves_iff]
      constructor
      · intro followed
        by_contra stays
        have same := (applyUpdate_peak_of_stays reorg.known stays).symm.trans followed
        cases same
        exact stays (Or.inl (UInt32.le_refl height))
      · exact applyUpdate_peak_of_moves reorg.known

end CoinStateCache

/-- In every run, every lowering of the peak is for a coin that is subscribed to exactly when no
update that would lower it rolls back retained coins alone.
-/
theorem lowering_is_warranted_iff (coinId : ProtocolCoin → Bytes32)
    (operations : List CacheOperation)
    : (cacheHistory coinId).Meets (CoinStateCache.LowersForSubscribed coinId) operations
      ↔ (cacheHistory coinId).Meets (CoinStateCache.RollsBackSubscribed coinId) operations :=
  Machine.meets_congr CoinStateCache.lowersForSubscribed_iff operations

/-- A coin is cached, and retained when it is unsubscribed. -/
def retainedOperations : List CacheOperation :=
  [.trackCoins [sampleId],
    .seed [{ coin := sampleCoin, createdHeight := some 95, spentHeight := none }],
    .setPeak 100 1,
    .untrackCoins [sampleId]]

/-- An empty update lowers the peak for a coin that nobody is subscribed to. -/
theorem retained_coin_lowers_peak
    : ¬ ∀ operations : List CacheOperation,
        (cacheHistory sampleCoinId).Meets (CoinStateCache.LowersForSubscribed sampleCoinId)
          operations := by
  intro claim
  have reached
      : ((cacheHistory sampleCoinId).run retainedOperations).any (fun cache =>
          decide (cache.peak = some (100, 1)
            ∧ (cache.perform sampleCoinId (.applyUpdate [] 92 90 2)).peak = some (92, 2)
            ∧ cache.subscribedCoins = ∅ ∧ cache.subscribedPuzzleHashes = ∅))
        = true := by
    decide +kernel
  obtain ⟨cache, reached, facts⟩ := (Option.any_eq_true _ _).mp reached
  obtain ⟨high, low, coins, puzzleHashes⟩ := of_decide_eq_true facts
  have warranted := (claim (retainedOperations ++ [.applyUpdate [] 92 90 2])).last reached
  have lowers : cache.LowersPeak (cache.perform sampleCoinId (.applyUpdate [] 92 90 2)) := by
    refine ⟨_, high, fun after found => ?_⟩
    cases low.symm.trans found
    decide
  obtain ⟨⟨id, state, -, subscribed⟩, -⟩ := warranted lowers
  simp [CoinStateCache.isSubscribed, coins, puzzleHashes] at subscribed

/-- In every run, every reorg of subscribed coins is followed exactly when each reaches the peak's
height or rolls back a coin it does not mention.
-/
theorem reorgs_are_followed_iff (coinId : ProtocolCoin → Bytes32)
    (operations : List CacheOperation)
    : (cacheHistory coinId).Meets (CoinStateCache.FollowsReorg coinId) operations
      ↔ (cacheHistory coinId).Meets (CoinStateCache.RollsBackUnmentioned coinId) operations :=
  Machine.meets_congr CoinStateCache.followsReorg_iff operations

/-- A subscribed coin is cached below the peak. -/
def subscribedOperations : List CacheOperation :=
  [.trackCoins [sampleId],
    .seed [{ coin := sampleCoin, createdHeight := some 95, spentHeight := none }],
    .setPeak 100 1]

/-- A reorg that reports its only coin anew leaves the peak above its height. -/
theorem reasserting_reorg_is_not_followed
    : ¬ ∀ operations : List CacheOperation,
        (cacheHistory sampleCoinId).Meets (CoinStateCache.FollowsReorg sampleCoinId)
          operations := by
  intro claim
  let moved : CoinState := { coin := sampleCoin, createdHeight := some 92, spentHeight := none }
  have reached
      : ((cacheHistory sampleCoinId).run subscribedOperations).any (fun cache =>
          decide (cache.peak = some (100, 1)
            ∧ (cache.applyUpdate sampleCoinId [moved] 93 90 2).peak = some (100, 1)
            ∧ cache.get sampleId
              = some { coin := sampleCoin, createdHeight := some 95, spentHeight := none }
            ∧ cache.isSubscribed sampleCoinId moved = true
            ∧ (cache.applyUpdate sampleCoinId [moved] 93 90 2).get sampleId = some moved))
        = true := by
    decide +kernel
  obtain ⟨cache, reached, facts⟩ := (Option.any_eq_true _ _).mp reached
  obtain ⟨known, stayed, before, subscribed, after⟩ := of_decide_eq_true facts
  have followed
      := (claim (subscribedOperations ++ [.applyUpdate [moved] 93 90 2])).last reached
  have reorg
      : cache.ReorgsSubscribed sampleCoinId [moved] 93 90 2 (100, 1) := by
    refine ⟨known, by decide, by decide, sampleId, _, before, subscribed, ?_⟩
    rw [after]
    decide
  have wrong := stayed.symm.trans (followed _ reorg)
  cases wrong

end ChiaQuery.LightClient
