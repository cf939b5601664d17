import ChiaQuery.LightClient.UpdateEffects

/-! Whether a subscribed coin that a frame reports finds a place in the cache. The cap counts the
subscriptions of the moment, the cache also holds the retained states of coins that are no longer
subscribed to.
-/

namespace ChiaQuery.LightClient

open Std ChiaQuery.Library

/-- What happens to a client that subscribes by coin id only: `subscribe_coins` is answered, a
frame is applied, `unsubscribe_coins` completes.
-/
inductive CoinsEvent where
  | subscribeCoins (ids : List Bytes32) (states : List CoinState)
  | unsubscribeCoins (ids : List Bytes32)
  | frame (frame : PoolFrame)
  deriving DecidableEq, Repr

variable (coinId : ProtocolCoin → Bytes32)

/-- A client that subscribes by coin id only, from when its cache is new. -/
def subscribingCoins : Machine CoinStateCache CoinsEvent where
  initial := .empty
  step cache
    | .subscribeCoins ids states => some ((cache.trackCoins ids).seed coinId states)
    | .unsubscribeCoins ids => some (cache.untrackCoins ids)
    | .frame frame => some (cache.applyFrame coinId frame).1

namespace CoinStateCache

/-- Nothing is subscribed to by its puzzle hash. -/
def CoinsOnly (cache : CoinStateCache) : Prop := cache.subscribedPuzzleHashes = ∅

/-- Every subscribed coin that a frame mentions in a state the resulting peak admits is cached in
the last such state, although the frame may stop its subscription.
-/
def KeepsMentioned (cache : CoinStateCache) : CoinsEvent → Prop
  | .frame frame =>
      let after := (cache.applyFrame coinId frame).1
      ∀ id ∈ cache.subscribedCoins, ∀ state,
        newestState coinId (frame.items.filter (fun item => after.Admits item)) id = some state
        → after.get id = some state
  | _ => True

/-- The subscribed items of an update that the resulting peak admits. -/
def acceptedItems (cache : CoinStateCache) (items : List CoinState)
    (height forkHeight : UInt32) (peakHash : Bytes32)
    : List CoinState :=
  (items.filter (cache.isSubscribed coinId)).filter (fun item =>
    (cache.afterFork coinId items height forkHeight peakHash).Admits item)

/-- What is cached after the rollback of a frame, retained states included, leaves room under the
cap for the subscribed coins that the frame mentions and the resulting peak admits.
-/
def HasSlots (cache : CoinStateCache) : CoinsEvent → Prop
  | .frame (.coinStates height forkHeight peakHash items) =>
      (cache.afterFork coinId items height forkHeight peakHash).HasRoom coinId
        (cache.acceptedItems coinId items height forkHeight peakHash)
  | _ => True

variable {coinId} {cache : CoinStateCache} {states : List CoinState} {id : Bytes32}

------------------------------------------------------------------------------------------
-- Seeding has room for all it is given exactly when it keeps all of it
------------------------------------------------------------------------------------------

/-- States above the peak make no difference to seeding, by induction on the states. -/
theorem seed_filter_admits (cache : CoinStateCache) (states : List CoinState)
    : cache.seed coinId (states.filter (fun state => cache.Admits state))
      = cache.seed coinId states := by
  induction states generalizing cache with
  | nil => rfl
  | cons state states ih =>
      by_cases admits : cache.Admits state
      · have same : (fun other => decide ((cache.cacheCoin coinId state).Admits other))
            = fun other => decide (cache.Admits other) := by
          funext other
          exact decide_eq_decide.mpr (by simp [Admits])
        rw [List.filter_cons_of_pos (by simpa using admits), seed, List.foldl_cons, ← seed,
          ← same, ih]
        rfl
      · have refused : ¬ cache.Takes coinId state := fun takes => admits takes.1
        rw [List.filter_cons_of_neg (by simpa using admits), ih, seed, seed, List.foldl_cons,
          cacheCoin_of_refused refused]

theorem mem_cacheCoin_of_mem {state : CoinState} (held : id ∈ cache.coins)
    : id ∈ (cache.cacheCoin coinId state).coins := by
  rcases cacheCoin_cases coinId cache state with same | ⟨-, same⟩
  · rwa [same]
  · rw [same]
    exact ExtTreeMap.mem_insert.mpr (Or.inr held)

/-- Seeding drops no coin, by induction on the states. -/
theorem mem_seed_of_mem (held : id ∈ cache.coins) : id ∈ (cache.seed coinId states).coins := by
  induction states generalizing cache with
  | nil => exact held
  | cons state states ih => exact ih (mem_cacheCoin_of_mem held)

@[simp]
theorem cacheCoin_maxCachedCoins (state : CoinState)
    : (cache.cacheCoin coinId state).maxCachedCoins = cache.maxCachedCoins := by
  simp [maxCachedCoins]

/-- Seeding does not take a cache past its cap, by induction on the states. -/
theorem size_seed_le (within : cache.coins.size ≤ cache.maxCachedCoins)
    : (cache.seed coinId states).coins.size ≤ cache.maxCachedCoins := by
  induction states generalizing cache with
  | nil => exact within
  | cons state states ih =>
      have next : (cache.cacheCoin coinId state).coins.size ≤ cache.maxCachedCoins := by
        by_cases takes : cache.Takes coinId state
        · rw [cacheCoin_of_room takes.1 takes.2, ExtTreeMap.size_insert]
          split
          · exact within
          · rename_i new
            exact takes.2.resolve_left (by simpa using new)
        · rwa [cacheCoin_of_refused takes]
      rw [← cacheCoin_maxCachedCoins state] at next
      have rest := ih next
      rwa [cacheCoin_maxCachedCoins] at rest

/-- A full cache gains no coin by seeding, by induction on the states. -/
theorem mem_of_mem_seed_of_full (full : cache.maxCachedCoins ≤ cache.coins.size)
    (seeded : id ∈ (cache.seed coinId states).coins)
    : id ∈ cache.coins := by
  induction states generalizing cache with
  | nil => exact seeded
  | cons state states ih =>
      by_cases takes : cache.Takes coinId state
      · have held : coinId state.coin ∈ cache.coins :=
          takes.2.resolve_right (Nat.not_lt.mpr full)
        have recorded := cacheCoin_of_room takes.1 takes.2
        have size : (cache.cacheCoin coinId state).coins.size = cache.coins.size := by
          rw [recorded, ExtTreeMap.size_insert, if_pos (by simpa using held)]
        have fullStill : (cache.cacheCoin coinId state).maxCachedCoins
            ≤ (cache.cacheCoin coinId state).coins.size := by
          rwa [cacheCoin_maxCachedCoins, size]
        have earlier := ih fullStill seeded
        rw [recorded] at earlier
        rcases ExtTreeMap.mem_insert.mp earlier with same | earlier
        · rwa [← LawfulEqCmp.eq_of_compare same]
        · exact earlier
      · rw [seed, List.foldl_cons, ← seed, cacheCoin_of_refused takes] at seeded
        exact ih full seeded

/-- There was room for states that are all cached once they were offered. -/
theorem hasRoom_of_mem_seed
    (cached : ∀ state ∈ states, coinId state.coin ∈ (cache.seed coinId states).coins)
    : cache.HasRoom coinId states := by
  rcases Nat.le_total cache.maxCachedCoins cache.coins.size with full | within
  · exact Or.inl (fun state member => mem_of_mem_seed_of_full full (cached state member))
  · have seeded : (cache.seed coinId states).coins.size ≤ cache.maxCachedCoins :=
      size_seed_le within
    refine Or.inr (Nat.le_trans (size_le_of_keys_subset (fun id member => ?_)) seeded)
    rcases mem_recordStates.mp member with ⟨state, listed, rfl⟩ | held
    · exact cached state listed
    · exact mem_seed_of_mem held

------------------------------------------------------------------------------------------
-- A frame keeps what it mentions exactly when there are slots for it
------------------------------------------------------------------------------------------

/-- Without puzzle hashes, what is subscribed to is subscribed to by its id. -/
theorem CoinsOnly.isSubscribed_iff (coinsOnly : cache.CoinsOnly) {state : CoinState}
    : cache.isSubscribed coinId state = true ↔ coinId state.coin ∈ cache.subscribedCoins := by
  rw [CoinsOnly] at coinsOnly
  simp [isSubscribed, coinsOnly]

variable {items : List CoinState} {height forkHeight : UInt32} {peakHash : Bytes32}

/-- Of a subscribed coin the accepted items of an update have the newest state that all its items
have which the resulting peak admits.
-/
theorem newestState_acceptedItems (subscribed : id ∈ cache.subscribedCoins)
    : newestState coinId (cache.acceptedItems coinId items height forkHeight peakHash) id
      = newestState coinId
          (items.filter (fun item =>
            (cache.afterFork coinId items height forkHeight peakHash).Admits item)) id := by
  rw [acceptedItems, List.filter_comm]
  refine newestState_filter (fun state member same => ?_)
  simp [isSubscribed, same, subscribed]

theorem applyUpdate_eq_seed_accepted
    : cache.applyUpdate coinId items height forkHeight peakHash
      = (cache.afterFork coinId items height forkHeight peakHash).seed coinId
          (cache.acceptedItems coinId items height forkHeight peakHash) := by
  rw [applyUpdate_eq_seed, acceptedItems, seed_filter_admits]

theorem applyFrame_admits
    : (fun item =>
        decide ((cache.applyFrame coinId
          (.coinStates height forkHeight peakHash items)).1.Admits item))
      = fun item =>
          decide ((cache.afterFork coinId items height forkHeight peakHash).Admits item) := by
  funext item
  have same : (cache.applyFrame coinId (.coinStates height forkHeight peakHash items)).1.peak
      = (cache.afterFork coinId items height forkHeight peakHash).peak := applyUpdate_peak
  exact decide_eq_decide.mpr (by rw [Admits, Admits, same])

/-- A frame keeps every subscribed coin it mentions exactly when there are slots for them. -/
theorem keepsMentioned_iff {event : CoinsEvent} (coinsOnly : cache.CoinsOnly)
    : cache.KeepsMentioned coinId event ↔ cache.HasSlots coinId event := by
  cases event with
  | subscribeCoins | unsubscribeCoins => exact Iff.rfl
  | frame frame =>
      cases frame with
      | reset | peak _ _ | sessionEnded _ =>
          refine iff_of_true (fun id _ state newest => ?_) trivial
          cases newest
      | coinStates height forkHeight peakHash items =>
          have lookup (id : Bytes32)
              : (cache.applyFrame coinId (.coinStates height forkHeight peakHash items)).1.get id
                = ((cache.afterFork coinId items height forkHeight peakHash).seed coinId
                    (cache.acceptedItems coinId items height forkHeight peakHash)).get id :=
            congrArg (fun after => after.get id) applyUpdate_eq_seed_accepted
          simp only [KeepsMentioned, HasSlots, PoolFrame.items, applyFrame_admits, lookup]
          constructor
          · intro kept
            refine hasRoom_of_mem_seed (fun state member => ?_)
            have subscribed := coinsOnly.isSubscribed_iff.mp
              (List.mem_filter.mp (List.mem_filter.mp member).1).2
            have mentioned
                : (newestState coinId
                    (cache.acceptedItems coinId items height forkHeight peakHash)
                    (coinId state.coin)).isSome = true :=
              newestState_isSome_iff.mpr ⟨state, member, rfl⟩
            obtain ⟨newest, found⟩ := Option.isSome_iff_exists.mp mentioned
            rw [newestState_acceptedItems subscribed] at found
            exact ExtTreeMap.isSome_getElem?_iff_mem.mp
              (Option.isSome_iff_exists.mpr ⟨newest, kept _ subscribed newest found⟩)
          · intro room id subscribed state newest
            rw [← newestState_acceptedItems subscribed] at newest
            rw [get_seed room, newest, Option.some_or]
            intro last same
            rw [newest] at same
            cases same
            simpa using (List.mem_filter.mp (newestState_inv newest).1).2

end CoinStateCache

variable {coinId} {cache : CoinStateCache}

/-- No step subscribes to a puzzle hash. -/
theorem CoinStateCache.CoinsOnly.step {next : CoinStateCache} {event : CoinsEvent}
    (coinsOnly : cache.CoinsOnly)
    (stepped : (subscribingCoins coinId).step cache event = some next)
    : next.CoinsOnly := by
  unfold CoinsOnly at coinsOnly ⊢
  cases event with
  | subscribeCoins ids states =>
      cases stepped
      rw [seed_subscribedPuzzleHashes]
      exact coinsOnly
  | unsubscribeCoins ids =>
      cases stepped
      exact coinsOnly
  | frame frame =>
      cases stepped
      rw [applyFrame_subscribedPuzzleHashes, coinsOnly]

theorem CoinStateCache.coinsOnly_empty : CoinStateCache.empty.CoinsOnly := rfl

/-- In every run of a client that subscribes by coin id only, every frame leaves the subscribed
coins it mentions in the cache exactly when there are slots for them at every frame.
-/
theorem mentioned_coins_are_kept_iff (coinId : ProtocolCoin → Bytes32)
    (events : List CoinsEvent)
    : (subscribingCoins coinId).Meets (CoinStateCache.KeepsMentioned coinId) events
      ↔ (subscribingCoins coinId).Meets (CoinStateCache.HasSlots coinId) events :=
  Machine.meets_iff CoinStateCache.coinsOnly_empty CoinStateCache.CoinsOnly.step
    CoinStateCache.keepsMentioned_iff events

/-- A coin of two mojos. -/
def doubleCoin : ProtocolCoin := { sampleCoin with amount := 2 }

/-- The SHA-256 hash of the parent, the puzzle hash and the amount of `doubleCoin`. -/
def doubleId : Bytes32 :=
  0xf9209bc700aba3618dcdc8e33e8e738ef35f841a45e5ee03c5c0e887fce1a3ee

/-- Coin ids, where only `sampleCoin` and `doubleCoin` are asked for. -/
def twoCoinIds (coin : ProtocolCoin) : Bytes32 :=
  if coin = doubleCoin then doubleId else sampleId

/-- A coin is cached and reported as spent, and its successor is subscribed to before it exists. -/
def successorEvents : List CoinsEvent :=
  [.subscribeCoins [sampleId]
      [{ coin := sampleCoin, createdHeight := some 5, spentHeight := none }],
    .frame (.peak 9 1),
    .frame (.coinStates 10 9 2
      [{ coin := sampleCoin, createdHeight := some 5, spentHeight := some 10 }]),
    .subscribeCoins [doubleId] []]

/-- The frame that reports the successor's creation does not put it into the cache. -/
theorem retained_coin_takes_slot
    : ¬ ∀ events : List CoinsEvent,
        (subscribingCoins twoCoinIds).Meets (CoinStateCache.KeepsMentioned twoCoinIds)
          events := by
  intro claim
  let created : CoinState :=
    { coin := doubleCoin, createdHeight := some 11, spentHeight := none }
  have reached
      : ((subscribingCoins twoCoinIds).run successorEvents).any (fun cache =>
          decide (doubleId ∈ cache.subscribedCoins
            ∧ (cache.applyFrame twoCoinIds (.coinStates 11 10 3 [created])).1.Admits created
            ∧ (cache.applyFrame twoCoinIds (.coinStates 11 10 3 [created])).1.get doubleId
              = none))
        = true := by
    decide +kernel
  obtain ⟨cache, reached, facts⟩ := (Option.any_eq_true _ _).mp reached
  obtain ⟨subscribed, admits, missing⟩ := of_decide_eq_true facts
  have kept := (claim (successorEvents ++ [.frame (.coinStates 11 10 3 [created])])).last reached
  have newest
      : newestState twoCoinIds
          ([created].filter (fun item =>
            (cache.applyFrame twoCoinIds (.coinStates 11 10 3 [created])).1.Admits item))
          doubleId
        = some created := by
    rw [List.filter_cons_of_pos (by simpa using admits), List.filter_nil, newestState_cons]
    rfl
  have found := kept doubleId subscribed created newest
  rw [missing] at found
  cases found

end ChiaQuery.LightClient
