import ChiaQuery.LightClient.Cache

/-! What one frame does to what the cache holds of a coin: a mentioned coin that is
subscribed takes the frame's state when there is room, an unmentioned one keeps its state
when the fork, the height and the peak spare it.
-/

namespace ChiaQuery

open Std ChiaQuery.Library

namespace LightClient.CoinStateCache

variable (coinId : ProtocolCoin → Bytes32)

------------------------------------------------------------------------------------------
-- An update rolls back to its fork and then seeds its subscribed items
------------------------------------------------------------------------------------------

/-- The cache of an update before its items are added: rolled back across the fork and moved
to the new peak.
-/
def afterFork (cache : CoinStateCache) (items : List CoinState)
    (height forkHeight : UInt32) (peakHash : Bytes32)
    : CoinStateCache :=
  let reasserted := cache.reasserted coinId items
  let rolledBack :=
    cache.coins.any (fun id state => rollBack reasserted forkHeight id state ≠ some state)
  let kept := { cache with coins := cache.coins.filterMap (rollBack reasserted forkHeight) }
  kept.updatePeak height peakHash
    (rolledBack && forkHeight ≤ height
      && cache.peak.any (fun current => forkHeight < current.1))

/-- Once it is rolled back, the cache has room for the subscribed items of an update. -/
def UpdateFits (cache : CoinStateCache) (items : List CoinState) (height forkHeight : UInt32)
    (peakHash : Bytes32)
    : Prop :=
  (cache.afterFork coinId items height forkHeight peakHash).HasRoom coinId
    (items.filter (cache.isSubscribed coinId))

instance (cache : CoinStateCache) (items : List CoinState) (height forkHeight : UInt32)
    (peakHash : Bytes32)
    : Decidable (cache.UpdateFits coinId items height forkHeight peakHash) :=
  inferInstanceAs (Decidable (HasRoom _ _ _))

variable {coinId} {cache : CoinStateCache} {items : List CoinState}
variable {height forkHeight : UInt32} {peakHash headerHash : Bytes32} {allowLower : Bool}

@[simp]
theorem updatePeak_subscribedCoins
    : (cache.updatePeak height headerHash allowLower).subscribedCoins
      = cache.subscribedCoins := by
  unfold updatePeak
  dsimp only
  split <;> rfl

@[simp]
theorem updatePeak_subscribedPuzzleHashes
    : (cache.updatePeak height headerHash allowLower).subscribedPuzzleHashes
      = cache.subscribedPuzzleHashes := by
  unfold updatePeak
  dsimp only
  split <;> rfl

@[simp]
theorem afterFork_subscribedCoins
    : (cache.afterFork coinId items height forkHeight peakHash).subscribedCoins
      = cache.subscribedCoins := by
  simp [afterFork]

@[simp]
theorem afterFork_subscribedPuzzleHashes
    : (cache.afterFork coinId items height forkHeight peakHash).subscribedPuzzleHashes
      = cache.subscribedPuzzleHashes := by
  simp [afterFork]

theorem afterFork_peak_isSome
    : (cache.afterFork coinId items height forkHeight peakHash).peak.isSome = true :=
  updatePeak_peak_isSome

/-- Adding the items one by one, past those nobody subscribed to, is seeding with the
subscribed ones. Induction on the items; adding a coin leaves the subscriptions alone.
-/
theorem foldl_subscribed_eq_seed (items : List CoinState)
    : items.foldl
        (fun cache state =>
          if !cache.isSubscribed coinId state then cache else cache.cacheCoin coinId state)
        cache
      = cache.seed coinId (items.filter (cache.isSubscribed coinId)) := by
  induction items generalizing cache with
  | nil => rfl
  | cons state items ih =>
      rw [List.foldl_cons, ih]
      by_cases subscribed : cache.isSubscribed coinId state = true
      · have same : (cache.cacheCoin coinId state).isSubscribed coinId
            = cache.isSubscribed coinId := by
          funext other
          simp [isSubscribed]
        rw [List.filter_cons_of_pos subscribed, subscribed]
        simp only [Bool.not_true, Bool.false_eq_true, if_false, same]
        rfl
      · rw [List.filter_cons_of_neg subscribed]
        simp only [subscribed, Bool.not_false, if_true]

theorem applyUpdate_eq_seed
    : cache.applyUpdate coinId items height forkHeight peakHash
      = (cache.afterFork coinId items height forkHeight peakHash).seed coinId
          (items.filter (cache.isSubscribed coinId)) := by
  have same
      : (cache.afterFork coinId items height forkHeight peakHash).isSubscribed coinId
        = cache.isSubscribed coinId := by
    funext state
    simp [isSubscribed]
  rw [← same, ← foldl_subscribed_eq_seed]
  rfl

------------------------------------------------------------------------------------------
-- The rollback spares what sits at or below the fork
------------------------------------------------------------------------------------------

/-- A fork leaves a coin's creation as it was. -/
theorem rollBack_inv {reasserted : Finset Bytes32} {id : Bytes32} {held found : CoinState}
    (h : rollBack reasserted forkHeight id held = some found)
    : found.createdHeight = held.createdHeight := by
  unfold rollBack at h
  split_ifs at h
  all_goals
    cases h
    rfl

/-- A fork leaves alone what sits at or below it. -/
theorem rollBack_of_spared {reasserted : Finset Bytes32} {id : Bytes32} {held : CoinState}
    (created : held.createdBy forkHeight = true) (spent : held.spentBy forkHeight = true)
    : rollBack reasserted forkHeight id held = some held := by
  simp [rollBack, created, spent]

/-- What is left of a coin after the fork is what the rollback left of it. -/
theorem rolledBack_of_get_afterFork {id : Bytes32} {found : CoinState}
    (h : (cache.afterFork coinId items height forkHeight peakHash).get id = some found)
    : (cache.get id).bind (rollBack (cache.reasserted coinId items) forkHeight id)
      = some found := by
  rw [afterFork, get_updatePeak, get, ExtTreeMap.getElem?_filterMap'] at h
  split at h
  · exact (Option.filter_eq_some_iff.mp h).1
  · exact h

/-- What is left of a coin after the fork is what the fork left of a state held before. -/
theorem get_afterFork_inv {id : Bytes32} {found : CoinState}
    (h : (cache.afterFork coinId items height forkHeight peakHash).get id = some found)
    : ∃ held, cache.get id = some held ∧ found.createdHeight = held.createdHeight := by
  obtain ⟨held, before, left⟩ := Option.bind_eq_some_iff.mp (rolledBack_of_get_afterFork h)
  exact ⟨held, before, rollBack_inv left⟩

/-- A state that the fork leaves alone and that was created by the new height survives. -/
theorem get_afterFork_of_rollBack {id : Bytes32} {held : CoinState}
    (found : cache.get id = some held)
    (left : rollBack (cache.reasserted coinId items) forkHeight id held = some held)
    (created : held.createdBy height = true)
    : (cache.afterFork coinId items height forkHeight peakHash).get id = some held := by
  have rolled
      : (cache.coins.filterMap (rollBack (cache.reasserted coinId items) forkHeight))[id]?
        = some held := by
    rw [ExtTreeMap.getElem?_filterMap']
    exact Option.bind_eq_some_iff.mpr ⟨held, found, left⟩
  rw [afterFork, get_updatePeak_of_createdBy]
  · exact rolled
  · rw [get, rolled]
    exact created

/-- A state that sits at or below the fork and was created by the new height survives. -/
theorem get_afterFork_of_spared {id : Bytes32}
    (spared
      : (cache.get id).all (fun held =>
          held.createdBy forkHeight && held.spentBy forkHeight && held.createdBy height)
        = true)
    : (cache.afterFork coinId items height forkHeight peakHash).get id = cache.get id := by
  cases found : cache.get id with
  | none =>
      cases left : (cache.afterFork coinId items height forkHeight peakHash).get id with
      | none => rfl
      | some state =>
          obtain ⟨held, before, -⟩ := get_afterFork_inv left
          rw [found] at before
          cases before
  | some held =>
      simp only [found, Option.all_some, Bool.and_eq_true] at spared
      exact get_afterFork_of_rollBack found (rollBack_of_spared spared.1.1 spared.1.2) spared.2

------------------------------------------------------------------------------------------
-- What one update does to the cached states
------------------------------------------------------------------------------------------

/-- The fork changes no coin's creation, and the move to the new peak sweeps. -/
theorem PeakBounded.afterFork (bounded : cache.PeakBounded)
    : (cache.afterFork coinId items height forkHeight peakHash).PeakBounded := by
  refine PeakBounded.updatePeak (fun id found lookup => ?_)
  rw [get, ExtTreeMap.getElem?_filterMap'] at lookup
  obtain ⟨held, before, left⟩ := Option.bind_eq_some_iff.mp lookup
  have admits := bounded id held before
  simpa only [Admits, CoinState.createdBy, rollBack_inv left] using admits

theorem PeakBounded.applyUpdate (bounded : cache.PeakBounded)
    : (cache.applyUpdate coinId items height forkHeight peakHash).PeakBounded := by
  rw [applyUpdate_eq_seed]
  exact bounded.afterFork.seed

/-- A subscribed coin takes the newest state an update that fits has for it. -/
theorem get_applyUpdate_of_newest
    (fits : cache.UpdateFits coinId items height forkHeight peakHash)
    (created : ∀ state ∈ items, state.createdBy height = true) {id : Bytes32}
    (subscribed : id ∈ cache.subscribedCoins) {state : CoinState}
    (newest : newestState coinId items id = some state)
    : (cache.applyUpdate coinId items height forkHeight peakHash).get id = some state := by
  have mine : ∀ other ∈ items, coinId other.coin = id
      → cache.isSubscribed coinId other = true := by
    rintro other - rfl
    simp [isSubscribed, subscribed]
  rw [applyUpdate_eq_seed, get_seed fits, newestState_filter mine, newest,
    Option.some_or]
  rw [newestState_filter mine, newest]
  intro last found
  cases found
  exact updatePeak_admits (created state (newestState_inv newest).1)

/-- A coin an update does not mention keeps a state the update spares. -/
theorem get_applyUpdate_of_spared {id : Bytes32}
    (unmentioned : newestState coinId items id = none)
    (spared
      : (cache.get id).all (fun held =>
          held.createdBy forkHeight && held.spentBy forkHeight && held.createdBy height)
        = true)
    : (cache.applyUpdate coinId items height forkHeight peakHash).get id = cache.get id := by
  have dropped
      : newestState coinId (items.filter (cache.isSubscribed coinId)) id = none := by
    rw [← Option.not_isSome_iff_eq_none, newestState_isSome_iff] at unmentioned ⊢
    intro mentioned
    obtain ⟨state, member, same⟩ := mentioned
    exact unmentioned ⟨state, (List.mem_filter.mp member).1, same⟩
  rw [applyUpdate_eq_seed, get_seed_of_unmentioned dropped, get_afterFork_of_spared spared]

/-- What is cached after an update was cached before it or is mentioned by it. -/
theorem get_applyUpdate_isSome {id : Bytes32}
    (h : ((cache.applyUpdate coinId items height forkHeight peakHash).get id).isSome = true)
    : (cache.get id).isSome = true ∨ ∃ state ∈ items, coinId state.coin = id := by
  obtain ⟨found, lookup⟩ := Option.isSome_iff_exists.mp h
  rw [applyUpdate_eq_seed] at lookup
  rcases get_seed_inv lookup with left | ⟨member, same⟩
  · obtain ⟨held, before, -⟩ := get_afterFork_inv left
    exact Or.inl (Option.isSome_iff_exists.mpr ⟨held, before⟩)
  · exact Or.inr ⟨found, (List.mem_filter.mp member).1, same⟩

theorem applyUpdate_subscribedCoins
    : (cache.applyUpdate coinId items height forkHeight peakHash).subscribedCoins
      = cache.subscribedCoins := by
  rw [applyUpdate_eq_seed, seed_subscribedCoins, afterFork_subscribedCoins]

theorem applyUpdate_peak_isSome
    : (cache.applyUpdate coinId items height forkHeight peakHash).peak.isSome = true := by
  rw [applyUpdate_eq_seed, seed_peak]
  exact afterFork_peak_isSome

end LightClient.CoinStateCache

namespace PoolFrame

open LightClient

------------------------------------------------------------------------------------------
-- What one frame says of one coin
------------------------------------------------------------------------------------------

/-- The newest state a frame has for a coin. -/
def newest (coinId : ProtocolCoin → Bytes32) (frame : PoolFrame) (id : Bytes32)
    : Option CoinState :=
  newestState coinId frame.items id

/-- What a cache holds of a coin a frame does not mention is left as it is: it sits at or
below the fork and below the height; a bare peak leaves everything to a cache that has one.
-/
def Spares (frame : PoolFrame) (peakKnown : Bool) (held : Option CoinState) : Prop :=
  match frame with
  | .reset => True
  | .peak height _ => peakKnown = true ∨ held.all (fun state => state.createdBy height) = true
  | .coinStates height forkHeight _ _ =>
      held.all (fun state =>
        state.createdBy forkHeight && state.spentBy forkHeight && state.createdBy height)
      = true
  | .sessionEnded _ => True

instance (frame : PoolFrame) (peakKnown : Bool) (held : Option CoinState)
    : Decidable (frame.Spares peakKnown held) :=
  match frame with
  | .reset => isTrue trivial
  | .peak _ _ => inferInstanceAs (Decidable (_ ∨ _))
  | .coinStates _ _ _ _ => inferInstanceAs (Decidable (_ = true))
  | .sessionEnded _ => isTrue trivial

/-- No state a frame carries is of a coin created above the frame's height. -/
def CreatedInTime (frame : PoolFrame) : Prop :=
  match frame with
  | .coinStates height _ _ items => ∀ state ∈ items, state.createdBy height = true
  | _ => True

/-- There is room in the cache for what a frame carries. -/
def Fits (coinId : ProtocolCoin → Bytes32) (cache : CoinStateCache) (frame : PoolFrame)
    : Prop :=
  match frame with
  | .coinStates height forkHeight peakHash items =>
      cache.UpdateFits coinId items height forkHeight peakHash
  | _ => True

instance (coinId : ProtocolCoin → Bytes32) (cache : CoinStateCache) (frame : PoolFrame)
    : Decidable (frame.Fits coinId cache) :=
  match frame with
  | .reset => isTrue trivial
  | .peak _ _ => isTrue trivial
  | .coinStates height forkHeight peakHash items =>
      inferInstanceAs (Decidable (cache.UpdateFits coinId items height forkHeight peakHash))
  | .sessionEnded _ => isTrue trivial

theorem Spares.mono {peakKnown known : Bool} {frame : PoolFrame} {held : Option CoinState}
    (h : frame.Spares peakKnown held) (le : peakKnown = true → known = true)
    : frame.Spares known held := by
  cases frame with
  | reset => trivial
  | peak height headerHash => exact h.imp_left le
  | coinStates height forkHeight peakHash items => exact h
  | sessionEnded reason => trivial

theorem spares_none (frame : PoolFrame) (peakKnown : Bool) : frame.Spares peakKnown none := by
  cases frame with
  | reset => trivial
  | peak height headerHash => exact Or.inr rfl
  | coinStates height forkHeight peakHash items => exact rfl
  | sessionEnded reason => trivial

end PoolFrame

namespace LightClient.CoinStateCache

variable {coinId : ProtocolCoin → Bytes32} {cache : CoinStateCache} {frame : PoolFrame}

------------------------------------------------------------------------------------------
-- What one frame does to the cached states
------------------------------------------------------------------------------------------

theorem PeakBounded.applyFrame (bounded : cache.PeakBounded)
    : (cache.applyFrame coinId frame).1.PeakBounded := by
  cases frame with
  | reset => exact bounded
  | peak height headerHash => exact bounded.updatePeak
  | coinStates height forkHeight peakHash items => exact bounded.applyUpdate
  | sessionEnded reason => exact bounded

theorem get_applyFrame_of_newest (fits : frame.Fits coinId cache)
    (created : frame.CreatedInTime) {id : Bytes32} (subscribed : id ∈ cache.subscribedCoins)
    {state : CoinState} (newest : frame.newest coinId id = some state)
    : (cache.applyFrame coinId frame).1.get id = some state := by
  cases frame with
  | reset => cases newest
  | peak height headerHash => cases newest
  | coinStates height forkHeight peakHash items =>
      exact get_applyUpdate_of_newest fits created subscribed newest
  | sessionEnded reason => cases newest

theorem get_applyFrame_of_spared (bounded : cache.PeakBounded) {id : Bytes32}
    (unmentioned : frame.newest coinId id = none)
    (spares : frame.Spares cache.peak.isSome (cache.get id))
    : (cache.applyFrame coinId frame).1.get id = cache.get id := by
  cases frame with
  | reset => rfl
  | peak height headerHash =>
      rcases spares with known | created
      · exact get_setPeak_of_known bounded known id
      · exact get_updatePeak_of_createdBy created
  | coinStates height forkHeight peakHash items =>
      exact get_applyUpdate_of_spared unmentioned spares
  | sessionEnded reason => rfl

theorem get_applyFrame_isSome {id : Bytes32}
    (h : ((cache.applyFrame coinId frame).1.get id).isSome = true)
    : (cache.get id).isSome = true ∨ ∃ state ∈ frame.items, coinId state.coin = id := by
  cases frame with
  | reset => exact Or.inl h
  | peak height headerHash =>
      obtain ⟨found, lookup⟩ := Option.isSome_iff_exists.mp h
      refine Or.inl (Option.isSome_iff_exists.mpr ⟨found, ?_⟩)
      change (cache.setPeak height headerHash).get id = some found at lookup
      rw [setPeak, get_updatePeak] at lookup
      split at lookup
      · exact (Option.filter_eq_some_iff.mp lookup).1
      · exact lookup
  | coinStates height forkHeight peakHash items => exact get_applyUpdate_isSome h
  | sessionEnded reason => exact Or.inl h

theorem applyFrame_subscribedCoins_subset
    : (cache.applyFrame coinId frame).1.subscribedCoins ⊆ cache.subscribedCoins := by
  cases frame with
  | reset => exact Finset.Subset.refl _
  | peak height headerHash => exact (updatePeak_subscribedCoins).subset
  | coinStates height forkHeight peakHash items =>
      exact Finset.sdiff_subset.trans applyUpdate_subscribedCoins.subset
  | sessionEnded reason => exact Finset.Subset.refl _

theorem applyFrame_subscribedPuzzleHashes
    : (cache.applyFrame coinId frame).1.subscribedPuzzleHashes
      = cache.subscribedPuzzleHashes := by
  cases frame with
  | reset => rfl
  | peak height headerHash => exact updatePeak_subscribedPuzzleHashes
  | coinStates height forkHeight peakHash items =>
      change (cache.applyUpdate coinId items height forkHeight peakHash).subscribedPuzzleHashes
        = cache.subscribedPuzzleHashes
      rw [applyUpdate_eq_seed, seed_subscribedPuzzleHashes, afterFork_subscribedPuzzleHashes]
  | sessionEnded reason => rfl

theorem applyFrame_peak_isSome (known : cache.peak.isSome = true)
    : (cache.applyFrame coinId frame).1.peak.isSome = true := by
  cases frame with
  | reset => exact known
  | peak height headerHash => exact updatePeak_peak_isSome
  | coinStates height forkHeight peakHash items => exact applyUpdate_peak_isSome
  | sessionEnded reason => exact known

end LightClient.CoinStateCache

end ChiaQuery
