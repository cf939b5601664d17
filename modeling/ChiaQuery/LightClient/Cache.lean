import ChiaQuery.Library.Recorded
import ChiaQuery.Peer.Frames
import Mathlib.Data.Finset.Card
import Mathlib.Data.Finset.Lattice.Basic

/-! The light client's cache of coin states: what a frame, a peak and the states of a
subscription response do to it. A coin enters through one operation, which refuses a coin
above the peak and a new coin past the cap; every change of the peak sweeps out what is above
it. `coinId` stands for the protocol's coin id, the hash of a coin's fields.
-/

namespace ChiaQuery

open Std ChiaQuery.Library

/-- The coin was created at `height` or below, as far as the state says. -/
def CoinState.createdBy (state : CoinState) (height : UInt32) : Bool :=
  state.createdHeight.all (fun created => created ≤ height)

/-- The coin was spent at `height` or below, or not at all. -/
def CoinState.spentBy (state : CoinState) (height : UInt32) : Bool :=
  state.spentHeight.all (fun spent => spent ≤ height)

/-- Coins created by a height are created by any later one. -/
theorem CoinState.createdBy_mono {state : CoinState} {height later : UInt32}
    (created : state.createdBy height = true) (le : height ≤ later)
    : state.createdBy later = true := by
  unfold CoinState.createdBy at created ⊢
  cases hcreated : state.createdHeight with
  | none => rfl
  | some first =>
      simp only [hcreated, Option.all_some, decide_eq_true_eq] at created ⊢
      exact UInt32.le_trans created le

namespace LightClient

/-- `MAX_COINS_PER_PUZZLE_HASH`. -/
def maxCoinsPerPuzzleHash : Nat := 10000

/-- Coin states by coin id. -/
abbrev CoinStates := ExtTreeMap Bytes32 CoinState

/-- `CoinStateCache`. -/
structure CoinStateCache where
  coins : CoinStates
  subscribedCoins : Finset Bytes32
  subscribedPuzzleHashes : Finset Bytes32
  peak : Option (UInt32 × Bytes32)

/-- What the drive loop does about the session after a frame. -/
inductive AfterFrame where
  | continue
  | resubscribe
  deriving DecidableEq, Repr

/-- What a fork does to one cached state: nothing when the update mentions the coin again;
otherwise a coin created above the fork is dropped and a spend above it is undone.
-/
def rollBack (reasserted : Finset Bytes32) (forkHeight : UInt32) (id : Bytes32)
    (state : CoinState)
    : Option CoinState :=
  if id ∈ reasserted then some state
  else if !state.createdBy forkHeight then none
  else if !state.spentBy forkHeight then some { state with spentHeight := none }
  else some state

namespace CoinStateCache

/-- `CoinStateCache::new`. -/
def empty : CoinStateCache where
  coins := ∅
  subscribedCoins := ∅
  subscribedPuzzleHashes := ∅
  peak := none

/-- `get`. -/
def get (cache : CoinStateCache) (id : Bytes32) : Option CoinState :=
  cache.coins[id]?

/-- `track_coins`. -/
def trackCoins (cache : CoinStateCache) (ids : List Bytes32) : CoinStateCache :=
  { cache with subscribedCoins := cache.subscribedCoins ∪ ids.toFinset }

/-- `track_puzzle_hashes`. -/
def trackPuzzleHashes (cache : CoinStateCache) (puzzleHashes : List Bytes32)
    : CoinStateCache :=
  { cache with
    subscribedPuzzleHashes := cache.subscribedPuzzleHashes ∪ puzzleHashes.toFinset }

/-- `untrack_coins`: the cached states stay. -/
def untrackCoins (cache : CoinStateCache) (ids : List Bytes32) : CoinStateCache :=
  { cache with subscribedCoins := cache.subscribedCoins \ ids.toFinset }

/-- `max_cached_coins`. -/
def maxCachedCoins (cache : CoinStateCache) : Nat :=
  cache.subscribedCoins.card + cache.subscribedPuzzleHashes.card * maxCoinsPerPuzzleHash

/-- `update_peak`: an advance, or a lowering that is allowed, sweeps out what is above. -/
def updatePeak (cache : CoinStateCache) (height : UInt32) (headerHash : Bytes32)
    (allowLower : Bool)
    : CoinStateCache :=
  -- Without a peak, any height is an advance.
  let changed := cache.peak.all (fun current => current.1 ≤ height || allowLower)
  if !changed then cache
  else
    { cache with
      peak := some (height, headerHash),
      coins := cache.coins.filter (fun _ state => state.createdBy height) }

/-- `set_peak`: a bare peak never lowers the one held. -/
def setPeak (cache : CoinStateCache) (height : UInt32) (headerHash : Bytes32)
    : CoinStateCache :=
  cache.updatePeak height headerHash false

/-- A state the peak does not rule out. -/
def Admits (cache : CoinStateCache) (state : CoinState) : Prop :=
  cache.peak.all (fun peak => state.createdBy peak.1) = true

instance (cache : CoinStateCache) (state : CoinState) : Decidable (cache.Admits state) :=
  inferInstanceAs (Decidable (_ = true))

variable (coinId : ProtocolCoin → Bytes32)

/-- `is_subscribed`. -/
def isSubscribed (cache : CoinStateCache) (state : CoinState) : Bool :=
  coinId state.coin ∈ cache.subscribedCoins
    || state.coin.puzzleHash ∈ cache.subscribedPuzzleHashes

/-- `cache_coin`. -/
def cacheCoin (cache : CoinStateCache) (state : CoinState) : CoinStateCache :=
  let id := coinId state.coin
  if ¬ cache.Admits state then cache
  -- A full cache still updates the coins it holds.
  else if id ∉ cache.coins ∧ cache.maxCachedCoins ≤ cache.coins.size then cache
  else { cache with coins := cache.coins.insert id state }

/-- `seed`. -/
def seed (cache : CoinStateCache) (states : List CoinState) : CoinStateCache :=
  states.foldl (cacheCoin coinId) cache

/-- The subscribed coins an update mentions. -/
def reasserted (cache : CoinStateCache) (items : List CoinState) : Finset Bytes32 :=
  ((items.filter (cache.isSubscribed coinId)).map (fun state => coinId state.coin)).toFinset

/-- `apply_update`. -/
def applyUpdate (cache : CoinStateCache) (items : List CoinState)
    (height forkHeight : UInt32) (peakHash : Bytes32)
    : CoinStateCache :=
  let reasserted := cache.reasserted coinId items
  let rolledBack :=
    cache.coins.any (fun id state => rollBack reasserted forkHeight id state ≠ some state)
  let kept := { cache with coins := cache.coins.filterMap (rollBack reasserted forkHeight) }
  -- Only an update that rolls something back to a fork below the peak may lower it.
  let isGenuineReorg :=
    rolledBack && forkHeight ≤ height
      && cache.peak.any (fun current => forkHeight < current.1)
  let moved := kept.updatePeak height peakHash isGenuineReorg
  items.foldl
    (fun cache state =>
      if !cache.isSubscribed coinId state then cache else cache.cacheCoin coinId state)
    moved

/-- `apply_frame`: a coin whose spend is reported is no longer tracked. -/
def applyFrame (cache : CoinStateCache) (frame : PoolFrame) : CoinStateCache × AfterFrame :=
  match frame with
  | .reset => (cache, .continue)
  | .peak height headerHash => (cache.setPeak height headerHash, .continue)
  | .coinStates height forkHeight peakHash items =>
      let spent := (items.filter (fun state => state.spentHeight.isSome)).map
        (fun state => coinId state.coin)
      ((cache.applyUpdate coinId items height forkHeight peakHash).untrackCoins spent,
        .continue)
  | .sessionEnded _ => (cache, .resubscribe)

end CoinStateCache

------------------------------------------------------------------------------------------
-- Folding states into a map keeps the newest state of each coin
------------------------------------------------------------------------------------------

/-- Record states under their coins' ids, the last one of each coin. -/
def recordStates (coinId : ProtocolCoin → Bytes32) (recorded : CoinStates)
    (states : List CoinState)
    : CoinStates :=
  recordInto recorded (fun state => coinId state.coin) (fun state => state) states

/-- The last state a list has for a coin. -/
def newestState (coinId : ProtocolCoin → Bytes32) (states : List CoinState) (id : Bytes32)
    : Option CoinState :=
  (collectBy compare (fun state => coinId state.coin) (fun state => state) states)[id]?

variable {coinId : ProtocolCoin → Bytes32} {cache : CoinStateCache}

theorem getElem?_recordStates (recorded : CoinStates) (states : List CoinState) (id : Bytes32)
    : (recordStates coinId recorded states)[id]?
      = (newestState coinId states id).or recorded[id]? :=
  getElem?_recordInto recorded _ _ states id

/-- A recorded state is the newest one, or was recorded before and is not replaced. -/
theorem getElem?_recordStates_inv {recorded : CoinStates} {states : List CoinState}
    {id : Bytes32} {found : CoinState}
    (h : (recordStates coinId recorded states)[id]? = some found)
    : newestState coinId states id = some found
      ∨ newestState coinId states id = none ∧ recorded[id]? = some found := by
  rw [getElem?_recordStates] at h
  cases newest : newestState coinId states id with
  | some state =>
      rw [newest, Option.some_or] at h
      exact Or.inl h
  | none =>
      rw [newest, Option.none_or] at h
      exact Or.inr ⟨rfl, h⟩

theorem mem_recordStates {recorded : CoinStates} {states : List CoinState} {id : Bytes32}
    : id ∈ recordStates coinId recorded states
      ↔ (∃ state ∈ states, coinId state.coin = id) ∨ id ∈ recorded :=
  mem_recordInto

theorem newestState_cons (state : CoinState) (states : List CoinState) (id : Bytes32)
    : newestState coinId (state :: states) id
      = (newestState coinId states id).or
          (if coinId state.coin = id then some state else none) :=
  getElem?_collectBy_cons _ _ state states id

theorem newestState_isSome_iff {states : List CoinState} {id : Bytes32}
    : (newestState coinId states id).isSome ↔ ∃ state ∈ states, coinId state.coin = id :=
  collectBy_isSome_iff

theorem newestState_inv {states : List CoinState} {id : Bytes32} {state : CoinState}
    (h : newestState coinId states id = some state)
    : state ∈ states ∧ coinId state.coin = id := by
  obtain ⟨item, member, same, rfl⟩ := exists_of_collectBy_eq_some h
  exact ⟨member, same⟩

/-- Dropping states of other coins does not change a coin's newest one, by induction. -/
theorem newestState_filter {states : List CoinState} {id : Bytes32} {keep : CoinState → Bool}
    (kept : ∀ state ∈ states, coinId state.coin = id → keep state = true)
    : newestState coinId (states.filter keep) id = newestState coinId states id := by
  induction states with
  | nil => rfl
  | cons state states ih =>
      have ih := ih (fun other member => kept other (List.mem_cons_of_mem state member))
      rw [newestState_cons, ← ih]
      by_cases keeps : keep state = true
      · rw [List.filter_cons_of_pos keeps, newestState_cons]
      · have other : coinId state.coin ≠ id := by
          intro same
          exact keeps (kept state List.mem_cons_self same)
        rw [List.filter_cons_of_neg keeps, if_neg other, Option.or_none]

namespace CoinStateCache

------------------------------------------------------------------------------------------
-- What lies in the cache was created at or below its peak
------------------------------------------------------------------------------------------

/-- No cached coin was created above the peak. -/
def PeakBounded (cache : CoinStateCache) : Prop :=
  ∀ id state, cache.get id = some state → cache.Admits state

/-- The states fit under the cap: all their coins are cached already, or the cache stays
within the cap with all of them in it.
-/
def HasRoom (coinId : ProtocolCoin → Bytes32) (cache : CoinStateCache)
    (states : List CoinState)
    : Prop :=
  (∀ state ∈ states, coinId state.coin ∈ cache.coins)
  ∨ (recordStates coinId cache.coins states).size ≤ cache.maxCachedCoins

instance (states : List CoinState) : Decidable (cache.HasRoom coinId states) :=
  inferInstanceAs (Decidable (_ ∨ _))

------------------------------------------------------------------------------------------
-- Moving the peak drops entries and never changes one
------------------------------------------------------------------------------------------

section Peak

variable {height : UInt32} {headerHash : Bytes32} {allowLower : Bool}

theorem get_updatePeak (id : Bytes32)
    : (cache.updatePeak height headerHash allowLower).get id
      = if cache.peak.all (fun current => current.1 ≤ height || allowLower)
        then (cache.get id).filter (fun state => state.createdBy height)
        else cache.get id := by
  unfold updatePeak
  by_cases changed
      : cache.peak.all (fun current => current.1 ≤ height || allowLower) = true
  · simp only [changed, Bool.not_true, Bool.false_eq_true, if_false, if_true, get]
    exact ExtTreeMap.getElem?_filter'
  · simp only [changed, Bool.not_false, if_true, Bool.false_eq_true, if_false]

theorem updatePeak_peak
    : (cache.updatePeak height headerHash allowLower).peak
      = if cache.peak.all (fun current => current.1 ≤ height || allowLower)
        then some (height, headerHash)
        else cache.peak := by
  unfold updatePeak
  by_cases changed
      : cache.peak.all (fun current => current.1 ≤ height || allowLower) = true
  · simp only [changed, Bool.not_true, Bool.false_eq_true, if_false, if_true]
  · simp only [changed, Bool.not_false, if_true, Bool.false_eq_true, if_false]

theorem updatePeak_peak_isSome
    : (cache.updatePeak height headerHash allowLower).peak.isSome = true := by
  unfold updatePeak
  cases held : cache.peak with
  | none => rfl
  | some current =>
      dsimp only
      split
      · rw [held]
        rfl
      · rfl

/-- Where the peak ends up at or above `height`, or a lowering to it was allowed, coins
created by `height` are admitted.
-/
theorem updatePeak_admits {state : CoinState} (created : state.createdBy height = true)
    : (cache.updatePeak height headerHash allowLower).Admits state := by
  unfold updatePeak
  cases held : cache.peak with
  | none => exact created
  | some current =>
      dsimp only
      split
      · rename_i unchanged
        simp only [Option.all_some, Bool.not_eq_true', Bool.or_eq_false_iff,
          decide_eq_false_iff_not, UInt32.not_le] at unchanged
        simp only [Admits, held, Option.all_some]
        exact CoinState.createdBy_mono created (UInt32.le_of_lt unchanged.1)
      · exact created

/-- A coin created by the new height is never swept out. -/
theorem get_updatePeak_of_createdBy {id : Bytes32}
    (created : (cache.get id).all (fun state => state.createdBy height) = true)
    : (cache.updatePeak height headerHash allowLower).get id = cache.get id := by
  rw [get_updatePeak]
  split
  · cases found : cache.get id with
    | none => rfl
    | some state =>
        rw [found, Option.all_some] at created
        simp [created]
  · rfl

/-- A bare peak sweeps nothing out of a cache that has a peak: what it admits is below that
peak, and the peak only advances.
-/
theorem get_setPeak_of_known (bounded : cache.PeakBounded) (known : cache.peak.isSome = true)
    (id : Bytes32)
    : (cache.setPeak height headerHash).get id = cache.get id := by
  rw [setPeak, get_updatePeak]
  split
  · rename_i changed
    obtain ⟨current, held⟩ := Option.isSome_iff_exists.mp known
    cases found : cache.get id with
    | none => rfl
    | some state =>
        have below := bounded id state found
        simp only [Admits, held, Option.all_some] at below
        simp only [held, Option.all_some, Bool.or_false, decide_eq_true_eq] at changed
        simp [CoinState.createdBy_mono below changed]
  · rfl

theorem PeakBounded.updatePeak (bounded : cache.PeakBounded)
    : (cache.updatePeak height headerHash allowLower).PeakBounded := by
  intro id state found
  rw [get_updatePeak] at found
  split at found
  · exact updatePeak_admits (Option.filter_eq_some_iff.mp found).2
  · rename_i unchanged
    have same : cache.updatePeak height headerHash allowLower = cache := by
      simp [CoinStateCache.updatePeak, unchanged]
    rw [same]
    exact bounded id state found

end Peak

------------------------------------------------------------------------------------------
-- Seeding under room keeps the newest state of each coin
------------------------------------------------------------------------------------------

section Adding

variable {state : CoinState} {states : List CoinState}

/-- A state that is offered changes nothing, or it is admitted and recorded. -/
theorem cacheCoin_cases (coinId : ProtocolCoin → Bytes32) (cache : CoinStateCache)
    (state : CoinState)
    : cache.cacheCoin coinId state = cache
      ∨ cache.Admits state
        ∧ cache.cacheCoin coinId state
          = { cache with coins := cache.coins.insert (coinId state.coin) state } := by
  unfold cacheCoin
  dsimp only
  by_cases admits : cache.Admits state
  · rw [if_neg (not_not.mpr admits)]
    split
    · exact Or.inl rfl
    · exact Or.inr ⟨admits, rfl⟩
  · rw [if_pos admits]
    exact Or.inl rfl

@[simp]
theorem cacheCoin_peak (state : CoinState)
    : (cache.cacheCoin coinId state).peak = cache.peak := by
  rcases cacheCoin_cases coinId cache state with same | ⟨-, same⟩ <;> rw [same]

@[simp]
theorem cacheCoin_subscribedCoins (state : CoinState)
    : (cache.cacheCoin coinId state).subscribedCoins = cache.subscribedCoins := by
  rcases cacheCoin_cases coinId cache state with same | ⟨-, same⟩ <;> rw [same]

@[simp]
theorem cacheCoin_subscribedPuzzleHashes (state : CoinState)
    : (cache.cacheCoin coinId state).subscribedPuzzleHashes
      = cache.subscribedPuzzleHashes := by
  rcases cacheCoin_cases coinId cache state with same | ⟨-, same⟩ <;> rw [same]

/-- A coin that the peak admits and that is cached or below the cap is cached. -/
theorem cacheCoin_of_room (admits : cache.Admits state)
    (room : coinId state.coin ∈ cache.coins ∨ cache.coins.size < cache.maxCachedCoins)
    : cache.cacheCoin coinId state
      = { cache with coins := cache.coins.insert (coinId state.coin) state } := by
  unfold cacheCoin
  dsimp only
  rw [if_neg (not_not.mpr admits), if_neg]
  intro refused
  obtain ⟨new, full⟩ := refused
  rcases room with held | free
  · exact new held
  · omega

/-- What a coin's lookup is after one more state was offered to the cache. -/
theorem get_cacheCoin_inv {id : Bytes32} {found : CoinState}
    (h : (cache.cacheCoin coinId state).get id = some found)
    : cache.get id = some found
      ∨ cache.Admits state ∧ coinId state.coin = id ∧ state = found := by
  rcases cacheCoin_cases coinId cache state with same | ⟨admits, same⟩
  · rw [same] at h
    exact Or.inl h
  · simp only [same, get, ExtTreeMap.getElem?_insert] at h
    split at h
    · rename_i sameId
      exact Or.inr ⟨admits, LawfulEqCmp.eq_of_compare sameId, Option.some.inj h⟩
    · exact Or.inl h

theorem PeakBounded.cacheCoin (bounded : cache.PeakBounded)
    : (cache.cacheCoin coinId state).PeakBounded := by
  intro id found h
  simp only [Admits, cacheCoin_peak]
  rcases get_cacheCoin_inv h with held | ⟨admits, -, rfl⟩
  · exact bounded id found held
  · exact admits

/-- There is room for the rest of the states after the first was offered. -/
theorem HasRoom.cacheCoin (room : cache.HasRoom coinId (state :: states))
    : (cache.cacheCoin coinId state).HasRoom coinId states := by
  rcases room with held | fits
  · refine Or.inl (fun other member => ?_)
    have known := held other (List.mem_cons_of_mem state member)
    rcases cacheCoin_cases coinId cache state with same | ⟨-, same⟩
    · rwa [same]
    · rw [same]
      exact ExtTreeMap.mem_insert.mpr (Or.inr known)
  · refine Or.inr ?_
    have cap : (cache.cacheCoin coinId state).maxCachedCoins = cache.maxCachedCoins := by
      simp [maxCachedCoins]
    rw [cap]
    refine Nat.le_trans (size_le_of_keys_subset (fun id member => ?_)) fits
    rcases mem_recordStates.mp member with ⟨other, otherMember, same⟩ | held
    · exact mem_recordStates.mpr (Or.inl ⟨other, List.mem_cons_of_mem state otherMember, same⟩)
    · obtain ⟨found, h⟩ := Option.isSome_iff_exists.mp
        (ExtTreeMap.isSome_getElem?_iff_mem.mpr held)
      rcases get_cacheCoin_inv h with old | ⟨-, same, -⟩
      · refine mem_recordStates.mpr (Or.inr (ExtTreeMap.isSome_getElem?_iff_mem.mp ?_))
        exact Option.isSome_iff_exists.mpr ⟨found, old⟩
      · exact mem_recordStates.mpr (Or.inl ⟨state, List.mem_cons_self, same⟩)

/-- A first state that the peak admits is cached when there is room for it and the rest. -/
theorem HasRoom.first (room : cache.HasRoom coinId (state :: states))
    : coinId state.coin ∈ cache.coins ∨ cache.coins.size < cache.maxCachedCoins := by
  rcases room with held | fits
  · exact Or.inl (held state List.mem_cons_self)
  · by_cases known : coinId state.coin ∈ cache.coins
    · exact Or.inl known
    · refine Or.inr (Nat.lt_of_lt_of_le ?_ fits)
      -- The state is new, so the map with all states in it is larger by one at least.
      have grown : (cache.coins.insert (coinId state.coin) state).size
          = cache.coins.size + 1 := by
        rw [ExtTreeMap.size_insert, if_neg (by simpa using known)]
      have subset
          : (cache.coins.insert (coinId state.coin) state).size
            ≤ (recordStates coinId cache.coins (state :: states)).size := by
        refine size_le_of_keys_subset (fun id member => ?_)
        rcases ExtTreeMap.mem_insert.mp member with same | held
        · exact mem_recordStates.mpr
            (Or.inl ⟨state, List.mem_cons_self, LawfulEqCmp.eq_of_compare same⟩)
        · exact mem_recordStates.mpr (Or.inr held)
      omega

/-- With room for all states, the newest state of a coin is cached when the peak admits it.
Induction on the states, the room carried along.
-/
theorem get_seed (room : cache.HasRoom coinId states) {id : Bytes32}
    (admits : ∀ newest ∈ newestState coinId states id, cache.Admits newest)
    : (cache.seed coinId states).get id = (newestState coinId states id).or (cache.get id) := by
  induction states generalizing cache with
  | nil => rfl
  | cons state states ih =>
      rw [newestState_cons] at admits ⊢
      have next : ∀ newest ∈ newestState coinId states id,
          (cache.cacheCoin coinId state).Admits newest := by
        intro newest found
        simpa [Admits] using admits newest (by simp [Option.mem_def.mp found])
      rw [seed, List.foldl_cons, ← seed, ih room.cacheCoin next]
      cases later : newestState coinId states id with
      | some newest => rfl
      | none =>
          rw [later] at admits
          by_cases same : coinId state.coin = id
          · have admitted : cache.Admits state := admits state (by simp [same])
            rw [cacheCoin_of_room admitted room.first]
            simp [get, same]
          · rcases cacheCoin_cases coinId cache state with unchanged | ⟨-, recorded⟩
            · simp [unchanged, same]
            · simp [recorded, get, ExtTreeMap.getElem?_insert, same]

/-- Seeding only adds states it was given. -/
theorem get_seed_inv {id : Bytes32} {found : CoinState}
    (h : (cache.seed coinId states).get id = some found)
    : cache.get id = some found ∨ found ∈ states ∧ coinId found.coin = id := by
  induction states generalizing cache with
  | nil => exact Or.inl h
  | cons state states ih =>
      rcases ih h with held | ⟨member, same⟩
      · rcases get_cacheCoin_inv held with old | ⟨-, same, rfl⟩
        · exact Or.inl old
        · exact Or.inr ⟨List.mem_cons_self, same⟩
      · exact Or.inr ⟨List.mem_cons_of_mem state member, same⟩

/-- Seeding states of other coins does not change what is held of a coin. -/
theorem get_seed_of_unmentioned {id : Bytes32}
    (unmentioned : newestState coinId states id = none)
    : (cache.seed coinId states).get id = cache.get id := by
  induction states generalizing cache with
  | nil => rfl
  | cons state states ih =>
      rw [newestState_cons, Option.or_eq_none_iff] at unmentioned
      have other : coinId state.coin ≠ id := by
        intro same
        simp [same] at unmentioned
      refine (ih unmentioned.1).trans ?_
      rcases cacheCoin_cases coinId cache state with same | ⟨-, same⟩
      · rw [same]
      · simp [same, get, ExtTreeMap.getElem?_insert, other]

theorem PeakBounded.seed (bounded : cache.PeakBounded)
    : (cache.seed coinId states).PeakBounded := by
  induction states generalizing cache with
  | nil => exact bounded
  | cons state states ih => exact ih bounded.cacheCoin

theorem seed_subscribedCoins (states : List CoinState)
    : (cache.seed coinId states).subscribedCoins = cache.subscribedCoins := by
  induction states generalizing cache with
  | nil => rfl
  | cons state states ih =>
      rw [seed, List.foldl_cons, ← seed, ih, cacheCoin_subscribedCoins]

theorem seed_subscribedPuzzleHashes (states : List CoinState)
    : (cache.seed coinId states).subscribedPuzzleHashes = cache.subscribedPuzzleHashes := by
  induction states generalizing cache with
  | nil => rfl
  | cons state states ih =>
      rw [seed, List.foldl_cons, ← seed, ih, cacheCoin_subscribedPuzzleHashes]

theorem seed_peak (states : List CoinState) : (cache.seed coinId states).peak = cache.peak := by
  induction states generalizing cache with
  | nil => rfl
  | cons state states ih => rw [seed, List.foldl_cons, ← seed, ih, cacheCoin_peak]

end Adding

end CoinStateCache

/-- A coin of one mojo. -/
def sampleCoin : ProtocolCoin where
  parentCoinInfo := 1
  puzzleHash := 2
  amount := 1

/-- The SHA-256 hash of the parent, the puzzle hash and the amount of `sampleCoin`. -/
def sampleId : Bytes32 :=
  0x5692d85d0fcc874738df6b85e4752b1c25fc1f1e5bbd2c53f51c1e92810c1408

/-- Coin ids, where only `sampleCoin` is asked for. -/
def sampleCoinId (_ : ProtocolCoin) : Bytes32 := sampleId

/-- A coin of another amount with the parent and the puzzle hash of `sampleCoin`. -/
def sampleCoinOf (amount : UInt64) : ProtocolCoin :=
  { sampleCoin with amount }

/-- Coin ids, where only `sampleCoin` and its like of the amounts 2 and 3 are asked for. -/
def sampleCoinIdOf (coin : ProtocolCoin) : Bytes32 :=
  if coin.amount = 1 then sampleId
  else if coin.amount = 2 then
    0xf9209bc700aba3618dcdc8e33e8e738ef35f841a45e5ee03c5c0e887fce1a3ee
  else 0x81347f56cd724ad7062048321fa52100a2d996c476d0222d6525e11f7d40e74f

end LightClient

end ChiaQuery
