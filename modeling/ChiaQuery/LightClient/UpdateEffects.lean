import ChiaQuery.LightClient.CacheHistory

/-! What one update leaves of the cache. Coins it does not mention are held to its fork, and
dropped where the peak it leads to is below them; a mentioned coin takes the last of its states
that was let in.
-/

namespace ChiaQuery

open Std ChiaQuery.Library

/-- The state without a spend above a height. -/
def CoinState.undoSpendAbove (state : CoinState) (height : UInt32) : CoinState :=
  if state.spentBy height then state else { state with spentHeight := none }

namespace LightClient.CoinStateCache

variable (coinId : ProtocolCoin → Bytes32)

/-- The items of an update that `cache_coin` lets in, in order. -/
def admittedItems (cache : CoinStateCache) (items : List CoinState)
    (height forkHeight : UInt32) (peakHash : Bytes32)
    : List CoinState :=
  (cache.frameInsertions coinId (.coinStates height forkHeight peakHash items)).map
    Insertion.state

/-- What an update leaves of a cache: what it does not mention sits at or below the fork, and is
still there unless it was created above the fork or the resulting peak; what it mentions and
lets in is there as it was let in last.
-/
structure UpdateOutcome (cache : CoinStateCache) (items : List CoinState)
    (height forkHeight : UInt32) (peakHash : Bytes32) (after : CoinStateCache)
    : Prop where
  held :
    ∀ id state,
      after.get id = some state → id ∉ cache.reasserted coinId items
      → state.createdBy forkHeight = true ∧ state.spentBy forkHeight = true
  survives :
    ∀ id state,
      cache.get id = some state → id ∉ cache.reasserted coinId items
      → state.createdBy forkHeight = true
      → ∃ peak, after.peak = some peak
          ∧ (state.createdBy peak.1 = true
              → after.get id = some (state.undoSpendAbove forkHeight))
  mentioned :
    ∀ id state,
      newestState coinId (cache.admittedItems coinId items height forkHeight peakHash) id
        = some state
      → after.get id = some state

variable {coinId} {cache : CoinStateCache} {items states : List CoinState} {state : CoinState}
variable {height forkHeight : UInt32} {peakHash headerHash id : Bytes32} {allowLower : Bool}

------------------------------------------------------------------------------------------
-- Seeding leaves the last of the states it lets in
------------------------------------------------------------------------------------------

/-- What a coin's lookup is after a state was offered that is let in or not. -/
theorem get_cacheCoin_of_takes (takes : cache.Takes coinId state) (id : Bytes32)
    : (cache.cacheCoin coinId state).get id
      = if coinId state.coin = id then some state else cache.get id := by
  rw [cacheCoin_of_room takes.1 takes.2]
  simp [get, ExtTreeMap.getElem?_insert]

/-- After seeding, a coin has the last of its states that was let in, or else what it had.
Induction on the states.
-/
theorem get_seed_eq (cache : CoinStateCache) (states : List CoinState) (id : Bytes32)
    : (cache.seed coinId states).get id
      = (newestState coinId ((cache.seedInsertions coinId states).map Insertion.state) id).or
          (cache.get id) := by
  induction states generalizing cache with
  | nil => rfl
  | cons state states ih =>
      rw [seed, List.foldl_cons, ← seed, ih, seedInsertions]
      by_cases takes : cache.Takes coinId state
      · rw [if_pos takes, List.map_cons, newestState_cons, get_cacheCoin_of_takes takes,
          Option.or_assoc]
        split <;> rfl
      · rw [if_neg takes, cacheCoin_of_refused takes]

------------------------------------------------------------------------------------------
-- The rollback holds what it spares to the fork
------------------------------------------------------------------------------------------

/-- What the fork leaves of a coin that is not mentioned again. -/
theorem rollBack_of_unmentioned {reasserted : Finset Bytes32} (unmentioned : id ∉ reasserted)
    : rollBack reasserted forkHeight id state
      = if state.createdBy forkHeight then some (state.undoSpendAbove forkHeight)
        else none := by
  unfold rollBack CoinState.undoSpendAbove
  rw [if_neg unmentioned]
  cases state.createdBy forkHeight <;> cases state.spentBy forkHeight <;> rfl

theorem undoSpendAbove_createdBy (later : UInt32)
    : (state.undoSpendAbove forkHeight).createdBy later = state.createdBy later := by
  unfold CoinState.undoSpendAbove
  split <;> rfl

theorem undoSpendAbove_spentBy
    : (state.undoSpendAbove forkHeight).spentBy forkHeight = true := by
  unfold CoinState.undoSpendAbove
  split
  · assumption
  · rfl

/-- A cached state that the peak admits once it has moved is not swept out. -/
theorem get_updatePeak_of_admitted (found : cache.get id = some state)
    (admits : (cache.updatePeak height headerHash allowLower).Admits state)
    : (cache.updatePeak height headerHash allowLower).get id = some state := by
  rw [get_updatePeak, found]
  split
  · rename_i changed
    have moved
        : (cache.updatePeak height headerHash allowLower).peak = some (height, headerHash) := by
      simp [updatePeak, changed]
    simp only [Admits, moved, Option.all_some] at admits
    simp [admits]
  · rfl

/-- What the rollback leaves of a coin is still there when the resulting peak admits it. -/
theorem get_afterFork_of_admitted {held : CoinState} (found : cache.get id = some held)
    (left : rollBack (cache.reasserted coinId items) forkHeight id held = some state)
    (admits : (cache.afterFork coinId items height forkHeight peakHash).Admits state)
    : (cache.afterFork coinId items height forkHeight peakHash).get id = some state := by
  refine get_updatePeak_of_admitted ?_ admits
  rw [get, ExtTreeMap.getElem?_filterMap']
  exact Option.bind_eq_some_iff.mpr ⟨held, found, left⟩

------------------------------------------------------------------------------------------
-- The outcome of an update
------------------------------------------------------------------------------------------

/-- A coin that no subscribed item mentions is after the update what it was after the fork. -/
theorem get_applyUpdate_of_unmentioned (unmentioned : id ∉ cache.reasserted coinId items)
    : (cache.applyUpdate coinId items height forkHeight peakHash).get id
      = (cache.afterFork coinId items height forkHeight peakHash).get id := by
  rw [applyUpdate_eq_seed]
  refine get_seed_of_unmentioned ?_
  rw [← Option.not_isSome_iff_eq_none, newestState_isSome_iff]
  intro mentioned
  obtain ⟨item, member, same⟩ := mentioned
  exact unmentioned (List.mem_toFinset.mpr (List.mem_map.mpr ⟨item, member, same⟩))

theorem applyUpdate_peak
    : (cache.applyUpdate coinId items height forkHeight peakHash).peak
      = (cache.afterFork coinId items height forkHeight peakHash).peak := by
  rw [applyUpdate_eq_seed, seed_peak]

/-- Every update of every cache has this outcome, whatever it carries and wherever it forks. -/
theorem applyUpdate_outcome (coinId : ProtocolCoin → Bytes32) (cache : CoinStateCache)
    (items : List CoinState) (height forkHeight : UInt32) (peakHash : Bytes32)
    : cache.UpdateOutcome coinId items height forkHeight peakHash
        (cache.applyUpdate coinId items height forkHeight peakHash) where
  held id state found unmentioned := by
    rw [get_applyUpdate_of_unmentioned unmentioned] at found
    obtain ⟨before, -, left⟩ := Option.bind_eq_some_iff.mp (rolledBack_of_get_afterFork found)
    rw [rollBack_of_unmentioned unmentioned] at left
    split at left
    · rename_i created
      cases left
      exact ⟨(undoSpendAbove_createdBy forkHeight).trans created, undoSpendAbove_spentBy⟩
    · cases left
  survives id state found unmentioned created := by
    obtain ⟨peak, known⟩ := Option.isSome_iff_exists.mp
      (applyUpdate_peak_isSome
        : (cache.applyUpdate coinId items height forkHeight peakHash).peak.isSome = true)
    refine ⟨peak, known, fun below => ?_⟩
    rw [get_applyUpdate_of_unmentioned unmentioned]
    refine get_afterFork_of_admitted found ?_ ?_
    · rw [rollBack_of_unmentioned unmentioned, if_pos created]
    · rw [applyUpdate_peak] at known
      simpa only [Admits, known, Option.all_some, undoSpendAbove_createdBy] using below
  mentioned id state admitted := by
    have admitted
        : newestState coinId
            (((cache.afterFork coinId items height forkHeight peakHash).seedInsertions coinId
              (items.filter (cache.isSubscribed coinId))).map Insertion.state) id
          = some state := admitted
    rw [applyUpdate_eq_seed, get_seed_eq, admitted, Option.some_or]

end LightClient.CoinStateCache

end ChiaQuery
