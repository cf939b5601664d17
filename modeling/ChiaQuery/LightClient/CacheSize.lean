import ChiaQuery.LightClient.RetainedSlots

/-! How large the cache grows. Only the client's own subscriptions raise the cap, so whatever its
peers send it, the cache holds at most one state for each coin that was ever subscribed to, and
the cap of a puzzle hash for each puzzle hash.
-/

namespace ChiaQuery.LightClient

open Std ChiaQuery.Library

namespace CacheOperation

/-- The coins an operation subscribes to. -/
def tracksCoins : CacheOperation → List Bytes32
  | .trackCoins ids => ids
  | _ => []

/-- The puzzle hashes an operation subscribes to. -/
def tracksPuzzleHashes : CacheOperation → List Bytes32
  | .trackPuzzleHashes hashes => hashes
  | _ => []

end CacheOperation

/-- The coins that were ever subscribed to. -/
def coinsTracked (operations : List CacheOperation) : Finset Bytes32 :=
  (operations.flatMap CacheOperation.tracksCoins).toFinset

/-- The puzzle hashes that were ever subscribed to. -/
def puzzleHashesTracked (operations : List CacheOperation) : Finset Bytes32 :=
  (operations.flatMap CacheOperation.tracksPuzzleHashes).toFinset

/-- The most coins that subscriptions to these allow. -/
def capOf (coins puzzleHashes : Finset Bytes32) : Nat :=
  coins.card + puzzleHashes.card * maxCoinsPerPuzzleHash

namespace CoinStateCache

/-- A cache is subscribed to no others than these, and no larger than they allow. -/
structure WithinCap (cache : CoinStateCache) (coins puzzleHashes : Finset Bytes32) : Prop where
  ids : cache.subscribedCoins ⊆ coins
  hashes : cache.subscribedPuzzleHashes ⊆ puzzleHashes
  size : cache.coins.size ≤ capOf coins puzzleHashes

variable {coinId : ProtocolCoin → Bytes32} {cache : CoinStateCache} {states : List CoinState}
variable {coins puzzleHashes : Finset Bytes32}

theorem capOf_mono {moreCoins moreHashes : Finset Bytes32} (ids : coins ⊆ moreCoins)
    (hashes : puzzleHashes ⊆ moreHashes)
    : capOf coins puzzleHashes ≤ capOf moreCoins moreHashes :=
  Nat.add_le_add (Finset.card_le_card ids)
    (Nat.mul_le_mul_right _ (Finset.card_le_card hashes))

/-- Seeding takes a cache to its cap at most, or leaves it as large as it is. -/
theorem size_seed_le_of_cap {bound : Nat} (cap : cache.maxCachedCoins ≤ bound)
    (within : cache.coins.size ≤ bound)
    : (cache.seed coinId states).coins.size ≤ bound := by
  rcases Nat.le_total cache.coins.size cache.maxCachedCoins with room | full
  · exact Nat.le_trans (size_seed_le room) cap
  · exact Nat.le_trans (size_le_of_keys_subset (fun _ => mem_of_mem_seed_of_full full)) within

theorem size_updatePeak_le {height : UInt32} {headerHash : Bytes32} {allowLower : Bool}
    : (cache.updatePeak height headerHash allowLower).coins.size ≤ cache.coins.size := by
  unfold updatePeak
  dsimp only
  split
  · exact Nat.le_refl _
  · exact ExtTreeMap.size_filter_le_size

theorem size_afterFork_le {items : List CoinState} {height forkHeight : UInt32}
    {peakHash : Bytes32}
    : (cache.afterFork coinId items height forkHeight peakHash).coins.size
      ≤ cache.coins.size :=
  Nat.le_trans size_updatePeak_le ExtTreeMap.size_filterMap_le_size

namespace WithinCap

theorem cap (within : cache.WithinCap coins puzzleHashes)
    : cache.maxCachedCoins ≤ capOf coins puzzleHashes :=
  capOf_mono within.ids within.hashes

theorem mono (within : cache.WithinCap coins puzzleHashes)
    {moreCoins moreHashes : Finset Bytes32} (ids : coins ⊆ moreCoins)
    (hashes : puzzleHashes ⊆ moreHashes)
    : cache.WithinCap moreCoins moreHashes :=
  ⟨within.ids.trans ids, within.hashes.trans hashes,
    Nat.le_trans within.size (capOf_mono ids hashes)⟩

theorem seed (within : cache.WithinCap coins puzzleHashes)
    : (cache.seed coinId states).WithinCap coins puzzleHashes where
  ids := by
    rw [seed_subscribedCoins]
    exact within.ids
  hashes := by
    rw [seed_subscribedPuzzleHashes]
    exact within.hashes
  size := size_seed_le_of_cap within.cap within.size

theorem applyUpdate {items : List CoinState} {height forkHeight : UInt32} {peakHash : Bytes32}
    (within : cache.WithinCap coins puzzleHashes)
    : (cache.applyUpdate coinId items height forkHeight peakHash).WithinCap coins
        puzzleHashes := by
  rw [applyUpdate_eq_seed]
  apply seed
  refine ⟨?_, ?_, Nat.le_trans size_afterFork_le within.size⟩
  · rw [afterFork_subscribedCoins]
    exact within.ids
  · rw [afterFork_subscribedPuzzleHashes]
    exact within.hashes

/-- An operation grows what is allowed by what it subscribes to. -/
theorem perform (within : cache.WithinCap coins puzzleHashes) (operation : CacheOperation)
    : (cache.perform coinId operation).WithinCap (coins ∪ operation.tracksCoins.toFinset)
        (puzzleHashes ∪ operation.tracksPuzzleHashes.toFinset) := by
  have grown : cache.WithinCap (coins ∪ operation.tracksCoins.toFinset)
      (puzzleHashes ∪ operation.tracksPuzzleHashes.toFinset) :=
    within.mono Finset.subset_union_left Finset.subset_union_left
  cases operation with
  | trackCoins ids =>
      exact ⟨Finset.union_subset_union_left within.ids, grown.hashes, grown.size⟩
  | trackPuzzleHashes hashes =>
      exact ⟨grown.ids, Finset.union_subset_union_left within.hashes, grown.size⟩
  | untrackCoins ids => exact ⟨Finset.sdiff_subset.trans grown.ids, grown.hashes, grown.size⟩
  | seed states => exact grown.seed
  | setPeak height headerHash =>
      refine ⟨?_, ?_, Nat.le_trans size_updatePeak_le grown.size⟩
      · rw [CoinStateCache.perform, setPeak, updatePeak_subscribedCoins]
        exact grown.ids
      · rw [CoinStateCache.perform, setPeak, updatePeak_subscribedPuzzleHashes]
        exact grown.hashes
  | applyUpdate items height forkHeight peakHash => exact grown.applyUpdate

/-- Induction on the operations of a run. -/
theorem runFrom {operations : List CacheOperation} {final : CoinStateCache}
    (within : cache.WithinCap coins puzzleHashes)
    (reached : (cacheHistory coinId).runFrom cache operations = some final)
    : final.WithinCap (coins ∪ coinsTracked operations)
        (puzzleHashes ∪ puzzleHashesTracked operations) := by
  induction operations generalizing cache coins puzzleHashes with
  | nil =>
      cases reached
      exact within.mono Finset.subset_union_left Finset.subset_union_left
  | cons operation rest ih =>
      obtain ⟨next, stepped, reached⟩ := Option.bind_eq_some_iff.mp reached
      cases stepped
      have later := ih (within.perform operation) reached
      rw [Finset.union_assoc, Finset.union_assoc] at later
      simpa only [coinsTracked, puzzleHashesTracked, List.flatMap_cons, List.toFinset_append]
        using later

end WithinCap

/-- After any operations, whatever the states and updates among them carry, the cache holds no
more coins than the subscriptions of its client ever allowed.
-/
theorem cache_size_le_subscribed {operations : List CacheOperation}
    (reached : (cacheHistory coinId).run operations = some cache)
    : cache.coins.size ≤ capOf (coinsTracked operations) (puzzleHashesTracked operations) := by
  have begun : CoinStateCache.empty.WithinCap ∅ ∅ :=
    ⟨Finset.Subset.refl _, Finset.Subset.refl _, Nat.zero_le _⟩
  have within := begun.runFrom reached
  rw [Finset.empty_union, Finset.empty_union] at within
  exact within.size

/-- One coin is subscribed to, and two are sent, one of them in an update. -/
def crowdedOperations : List CacheOperation :=
  [.trackCoins [sampleId],
    .seed [{ coin := sampleCoin, createdHeight := some 5, spentHeight := none },
      { coin := doubleCoin, createdHeight := some 5, spentHeight := none }],
    .applyUpdate [{ coin := doubleCoin, createdHeight := some 6, spentHeight := none }] 7 5 1]

theorem cache_size_le_subscribed_sample
    : ∃ cache, (cacheHistory twoCoinIds).run crowdedOperations = some cache
        ∧ cache.coins.size ≤ capOf (coinsTracked crowdedOperations)
            (puzzleHashesTracked crowdedOperations)
        ∧ capOf (coinsTracked crowdedOperations) (puzzleHashesTracked crowdedOperations) = 1 := by
  have reached
      : ((cacheHistory twoCoinIds).run crowdedOperations).isSome = true := rfl
  obtain ⟨cache, reached⟩ := Option.isSome_iff_exists.mp reached
  exact ⟨cache, reached, cache_size_le_subscribed reached, by decide⟩

end CoinStateCache

end ChiaQuery.LightClient
