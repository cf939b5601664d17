import ChiaQuery.LightClient.Rearming

/-! What holds of the cache after any history of operations on it. No operation leaves a coin
above the peak. An update adds only coins that are subscribed to; the states of a subscription
response are added whatever coins they are of.
-/

namespace ChiaQuery.LightClient

open Std ChiaQuery.Library

/-- The public operations that change a cache. -/
inductive CacheOperation where
  | trackCoins (ids : List Bytes32)
  | trackPuzzleHashes (hashes : List Bytes32)
  | untrackCoins (ids : List Bytes32)
  | seed (states : List CoinState)
  | setPeak (height : UInt32) (headerHash : Bytes32)
  | applyUpdate (items : List CoinState) (height forkHeight : UInt32) (peakHash : Bytes32)
  deriving DecidableEq, Repr

variable (coinId : ProtocolCoin → Bytes32)

/-- What an operation leaves of a cache. -/
def CoinStateCache.perform (cache : CoinStateCache) : CacheOperation → CoinStateCache
  | .trackCoins ids => cache.trackCoins ids
  | .trackPuzzleHashes hashes => cache.trackPuzzleHashes hashes
  | .untrackCoins ids => cache.untrackCoins ids
  | .seed states => cache.seed coinId states
  | .setPeak height headerHash => cache.setPeak height headerHash
  | .applyUpdate items height forkHeight peakHash =>
      cache.applyUpdate coinId items height forkHeight peakHash

/-- A cache from when it is built; every operation is possible in every state. -/
def cacheHistory : Machine CoinStateCache CacheOperation where
  initial := .empty
  step cache operation := some (cache.perform coinId operation)

variable {coinId} {cache : CoinStateCache}

------------------------------------------------------------------------------------------
-- No operation leaves a coin above the peak
------------------------------------------------------------------------------------------

namespace CoinStateCache

theorem peakBounded_empty : CoinStateCache.empty.PeakBounded := by
  intro id state found
  simp [get, empty] at found

/-- Tracking and untracking touch neither the states nor the peak; the other operations each
keep the bound.
-/
theorem PeakBounded.perform (bounded : cache.PeakBounded) (operation : CacheOperation)
    : (cache.perform coinId operation).PeakBounded := by
  cases operation with
  | trackCoins ids => exact bounded
  | trackPuzzleHashes hashes => exact bounded
  | untrackCoins ids => exact bounded
  | seed states => exact bounded.seed
  | setPeak height headerHash => exact bounded.updatePeak
  | applyUpdate items height forkHeight peakHash => exact bounded.applyUpdate

end CoinStateCache

/-- After any operations on a new cache, no cached coin was created above the peak. -/
theorem no_cached_coin_above_peak {operations : List CacheOperation} {final : CoinStateCache}
    (reached : (cacheHistory coinId).run operations = some final)
    {height created : UInt32} {headerHash id : Bytes32} {state : CoinState}
    (peak : final.peak = some (height, headerHash)) (cached : final.get id = some state)
    (creation : state.createdHeight = some created)
    : created ≤ height := by
  have bounded : final.PeakBounded :=
    Machine.reachable_invariant CoinStateCache.peakBounded_empty
      (fun kept stepped => Option.some.inj stepped ▸ kept.perform _) reached
  have admits := bounded id state cached
  simpa [CoinStateCache.Admits, CoinState.createdBy, peak, creation] using admits

/-- A coin is seeded before the first peak, which sweeps it out; seeded again, it survives an
update that lowers the peak and reports it anew.
-/
def loweredPeakOperations : List CacheOperation :=
  [.trackCoins [sampleId],
    .seed [{ coin := sampleCoin, createdHeight := some 12, spentHeight := none }],
    .setPeak 10 1,
    .seed [{ coin := sampleCoin, createdHeight := some 9, spentHeight := some 10 }],
    .applyUpdate [] 10 9 2,
    .applyUpdate [] 8 7 3,
    .applyUpdate [{ coin := sampleCoin, createdHeight := some 8, spentHeight := none }] 8 7 4]

theorem no_cached_coin_above_peak_sample
    : ∃ (final : CoinStateCache) (state : CoinState),
        (cacheHistory sampleCoinId).run loweredPeakOperations = some final
        ∧ final.get sampleId = some state
        ∧ state.createdHeight = some 8
        ∧ (8 : UInt32) ≤ 8 := by
  have reached
      : ((cacheHistory sampleCoinId).run loweredPeakOperations).any (fun final =>
          decide (final.peak = some (8, 4)
            ∧ final.get sampleId
              = some { coin := sampleCoin, createdHeight := some 8, spentHeight := none }))
        = true := by
    decide +kernel
  obtain ⟨final, reached, found⟩ := (Option.any_eq_true _ _).mp reached
  have facts := of_decide_eq_true found
  exact ⟨final, _, reached, facts.2, rfl,
    no_cached_coin_above_peak reached facts.1 facts.2 rfl⟩

------------------------------------------------------------------------------------------
-- What is put into the cache, and whether it was subscribed to
------------------------------------------------------------------------------------------

/-- A state that was put into the cache, and whether its coin was subscribed to by id or by
puzzle hash at that moment.
-/
structure Insertion where
  state : CoinState
  subscribed : Bool
  deriving DecidableEq, Repr

variable (coinId)

/-- What `subscribe_coins` and `subscribe_puzzle_hashes` track. -/
def SubscriptionRequest.track (cache : CoinStateCache) : SubscriptionRequest → CoinStateCache
  | .coins ids => cache.trackCoins ids
  | .puzzleHashes hashes => cache.trackPuzzleHashes hashes

namespace CoinStateCache

/-- The checks of `cache_coin` let the state in. -/
def Takes (cache : CoinStateCache) (state : CoinState) : Prop :=
  cache.Admits state
  ∧ (coinId state.coin ∈ cache.coins ∨ cache.coins.size < cache.maxCachedCoins)

instance (cache : CoinStateCache) (state : CoinState) : Decidable (cache.Takes coinId state) :=
  inferInstanceAs (Decidable (_ ∧ _))

/-- Each of the states is of a coin that is subscribed to, or is one that the cache refuses once
those before it are seeded.
-/
def SeedsSolicited (cache : CoinStateCache) : List CoinState → Prop
  | [] => True
  | state :: states =>
      (cache.isSubscribed coinId state = true ∨ ¬ cache.Takes coinId state)
      ∧ (cache.cacheCoin coinId state).SeedsSolicited states

instance decidableSeedsSolicited (cache : CoinStateCache)
    : (states : List CoinState) → Decidable (cache.SeedsSolicited coinId states)
  | [] => isTrue trivial
  | state :: states =>
      have := decidableSeedsSolicited (cache.cacheCoin coinId state) states
      inferInstanceAs (Decidable (_ ∧ _))

/-- What seeding puts into the cache, state by state. -/
def seedInsertions (cache : CoinStateCache) : List CoinState → List Insertion
  | [] => []
  | state :: states =>
      let later := (cache.cacheCoin coinId state).seedInsertions states
      if cache.Takes coinId state then
        { state, subscribed := cache.isSubscribed coinId state } :: later
      else later

/-- What a frame puts into the cache: of an update, the items that are subscribed to. -/
def frameInsertions (cache : CoinStateCache) : PoolFrame → List Insertion
  | .coinStates height forkHeight peakHash items =>
      (cache.afterFork coinId items height forkHeight peakHash).seedInsertions coinId
        (items.filter (cache.isSubscribed coinId))
  | _ => []

end CoinStateCache

/-- A cache and the record of what was put into it. -/
structure SolicitingState where
  cache : CoinStateCache
  insertions : List Insertion

/-- A subscription is answered, tracked and seeded; coins are unsubscribed; a frame of the
followed session is applied.
-/
inductive SolicitingEvent where
  | subscribe (request : SubscriptionRequest) (states : List CoinState)
  | unsubscribe (ids : List Bytes32)
  | frame (frame : PoolFrame)
  deriving DecidableEq, Repr

/-- One step of a client whose peer answers and reports what it likes. -/
def solicitingStep (state : SolicitingState) : SolicitingEvent → Option SolicitingState
  | .subscribe request states =>
      some {
        cache := request.record coinId state.cache states,
        insertions :=
          state.insertions ++ (request.track state.cache).seedInsertions coinId states
      }
  | .unsubscribe ids => some { state with cache := state.cache.untrackCoins ids }
  | .frame frame =>
      some {
        cache := (state.cache.applyFrame coinId frame).1,
        insertions := state.insertions ++ state.cache.frameInsertions coinId frame
      }

/-- A client whose cache is new. -/
def soliciting : Machine SolicitingState SolicitingEvent where
  initial := { cache := .empty, insertions := [] }
  step := solicitingStep coinId

/-- Every cached coin was put into the cache by a recorded insertion, and every insertion was
of a coin that was subscribed to.
-/
structure SolicitingState.Solicited (state : SolicitingState) : Prop where
  recorded
    : ∀ id ∈ state.cache.coins,
        ∃ insertion ∈ state.insertions, coinId insertion.state.coin = id
  subscribed : ∀ insertion ∈ state.insertions, insertion.subscribed = true

/-- Once a request is tracked, each state that answers it is of a coin that is subscribed to, or is
refused when it is its turn: created above the peak, or new to a cache that is full.
-/
def AnswersRequest (state : SolicitingState) : SolicitingEvent → Prop
  | .subscribe request states => (request.track state.cache).SeedsSolicited coinId states
  | _ => True

instance (state : SolicitingState) (event : SolicitingEvent)
    : Decidable (AnswersRequest coinId state event) := by
  cases event <;> unfold AnswersRequest <;> infer_instance

variable {coinId}

theorem SubscriptionRequest.record_eq_seed (request : SubscriptionRequest)
    (states : List CoinState)
    : request.record coinId cache states = (request.track cache).seed coinId states := by
  cases request <;> rfl

@[simp]
theorem SubscriptionRequest.track_coins (request : SubscriptionRequest)
    : (request.track cache).coins = cache.coins := by
  cases request <;> rfl

namespace CoinStateCache

variable {state other : CoinState} {states : List CoinState}

/-- A state that is not taken leaves the cache as it is. -/
theorem cacheCoin_of_refused (refused : ¬ cache.Takes coinId state)
    : cache.cacheCoin coinId state = cache := by
  unfold cacheCoin
  dsimp only
  by_cases admits : cache.Admits state
  · rw [if_neg (not_not.mpr admits), if_pos]
    constructor
    · exact fun held => refused ⟨admits, Or.inl held⟩
    · exact Nat.not_lt.mp (fun room => refused ⟨admits, Or.inr room⟩)
  · rw [if_pos admits]

theorem isSubscribed_cacheCoin
    : (cache.cacheCoin coinId other).isSubscribed coinId state
      = cache.isSubscribed coinId state := by
  simp [isSubscribed]

/-- An insertion that seeding makes is of one of the states, marked with whether it is subscribed
to before the seeding. Induction on the states.
-/
theorem mem_seedInsertions {insertion : Insertion}
    (member : insertion ∈ cache.seedInsertions coinId states)
    : insertion.state ∈ states
      ∧ insertion.subscribed = cache.isSubscribed coinId insertion.state := by
  induction states generalizing cache with
  | nil => cases member
  | cons state states ih =>
      have later (member : insertion ∈ (cache.cacheCoin coinId state).seedInsertions coinId states)
          : insertion.state ∈ state :: states
            ∧ insertion.subscribed = cache.isSubscribed coinId insertion.state := by
        obtain ⟨member, marked⟩ := ih member
        exact ⟨List.mem_cons_of_mem state member, marked.trans isSubscribed_cacheCoin⟩
      rw [seedInsertions] at member
      split at member
      · rcases List.mem_cons.mp member with rfl | member
        · exact ⟨List.mem_cons_self, rfl⟩
        · exact later member
      · exact later member

/-- Of states that are subscribed to or refused, those that are put into the cache are subscribed
to. Induction on the states.
-/
theorem SeedsSolicited.subscribed (solicited : cache.SeedsSolicited coinId states)
    {insertion : Insertion} (member : insertion ∈ cache.seedInsertions coinId states)
    : insertion.subscribed = true := by
  induction states generalizing cache with
  | nil => cases member
  | cons state states ih =>
      obtain ⟨first, rest⟩ := solicited
      rw [seedInsertions] at member
      split at member
      · rename_i takes
        rcases List.mem_cons.mp member with rfl | member
        · exact first.resolve_right (not_not.mpr takes)
        · exact ih rest member
      · exact ih rest member

/-- A coin that is cached after seeding was cached before, or one of the insertions is of it. -/
theorem mem_seed_recorded {id : Bytes32} (cached : id ∈ (cache.seed coinId states).coins)
    : id ∈ cache.coins
      ∨ ∃ insertion ∈ cache.seedInsertions coinId states,
          coinId insertion.state.coin = id := by
  induction states generalizing cache with
  | nil => exact Or.inl cached
  | cons state states ih =>
      rw [seedInsertions]
      by_cases takes : cache.Takes coinId state
      · rw [if_pos takes]
        rcases ih cached with held | ⟨insertion, member, same⟩
        · rw [cacheCoin_of_room takes.1 takes.2] at held
          rcases ExtTreeMap.mem_insert.mp held with same | held
          · exact Or.inr ⟨_, List.mem_cons_self, LawfulEqCmp.eq_of_compare same⟩
          · exact Or.inl held
        · exact Or.inr ⟨insertion, List.mem_cons_of_mem _ member, same⟩
      · rw [if_neg takes, cacheCoin_of_refused takes]
        have held := ih cached
        rwa [cacheCoin_of_refused takes] at held

/-- The coins cached after a peak were cached before it. -/
theorem mem_of_mem_setPeak {height : UInt32} {headerHash id : Bytes32}
    (cached : id ∈ (cache.setPeak height headerHash).coins)
    : id ∈ cache.coins := by
  unfold setPeak updatePeak at cached
  dsimp only at cached
  split at cached
  · exact cached
  · exact ExtTreeMap.mem_of_mem_filter cached

/-- The coins cached after a fork were cached before it. -/
theorem mem_of_mem_afterFork {items : List CoinState} {height forkHeight : UInt32}
    {peakHash id : Bytes32}
    (cached : id ∈ (cache.afterFork coinId items height forkHeight peakHash).coins)
    : id ∈ cache.coins := by
  obtain ⟨found, lookup⟩ := Option.isSome_iff_exists.mp
    (ExtTreeMap.isSome_getElem?_iff_mem.mpr cached)
  obtain ⟨held, before, -⟩ := get_afterFork_inv lookup
  exact ExtTreeMap.isSome_getElem?_iff_mem.mp (Option.isSome_iff_exists.mpr ⟨held, before⟩)

/-- What a frame puts into the cache was subscribed to. -/
theorem subscribed_of_mem_frameInsertions {frame : PoolFrame} {insertion : Insertion}
    (member : insertion ∈ cache.frameInsertions coinId frame)
    : insertion.subscribed = true := by
  cases frame with
  | coinStates height forkHeight peakHash items =>
      obtain ⟨item, marked⟩ := mem_seedInsertions member
      have subscribed := (List.mem_filter.mp item).2
      rw [marked]
      simpa [isSubscribed] using subscribed
  | reset | peak _ _ | sessionEnded _ => cases member

/-- A coin that is cached after a frame was cached before, or the frame put it there. -/
theorem mem_applyFrame_recorded {frame : PoolFrame} {id : Bytes32}
    (cached : id ∈ (cache.applyFrame coinId frame).1.coins)
    : id ∈ cache.coins
      ∨ ∃ insertion ∈ cache.frameInsertions coinId frame,
          coinId insertion.state.coin = id := by
  cases frame with
  | reset | sessionEnded _ => exact Or.inl cached
  | peak height headerHash => exact Or.inl (mem_of_mem_setPeak cached)
  | coinStates height forkHeight peakHash items =>
      have seeded : id ∈ (cache.applyUpdate coinId items height forkHeight peakHash).coins :=
        cached
      rw [applyUpdate_eq_seed] at seeded
      exact (mem_seed_recorded seeded).imp_left mem_of_mem_afterFork

end CoinStateCache

------------------------------------------------------------------------------------------
-- While responses carry nothing unsolicited, nothing unsolicited is cached
------------------------------------------------------------------------------------------

namespace SolicitingState.Solicited

variable {state : SolicitingState}

/-- The cache and the record grow together, and what the record grows by is subscribed to. -/
theorem grow (h : state.Solicited coinId) {next : CoinStateCache} {added : List Insertion}
    (recorded
      : ∀ id ∈ next.coins,
          id ∈ state.cache.coins
          ∨ ∃ insertion ∈ added, coinId insertion.state.coin = id)
    (subscribed : ∀ insertion ∈ added, insertion.subscribed = true)
    : SolicitingState.Solicited coinId
        { cache := next, insertions := state.insertions ++ added } where
  recorded id cached := by
    rcases recorded id cached with held | ⟨insertion, member, same⟩
    · obtain ⟨insertion, member, same⟩ := h.recorded id held
      exact ⟨insertion, List.mem_append_left _ member, same⟩
    · exact ⟨insertion, List.mem_append_right _ member, same⟩
  subscribed insertion member := by
    rcases List.mem_append.mp member with old | new
    · exact h.subscribed insertion old
    · exact subscribed insertion new

theorem step (h : state.Solicited coinId) {event : SolicitingEvent}
    {next : SolicitingState} (answers : AnswersRequest coinId state event)
    (stepped : solicitingStep coinId state event = some next)
    : next.Solicited coinId := by
  cases event with
  | subscribe request states =>
      cases stepped
      refine h.grow (fun id cached => ?_)
        (fun insertion member => CoinStateCache.SeedsSolicited.subscribed answers member)
      rw [request.record_eq_seed] at cached
      simpa using CoinStateCache.mem_seed_recorded cached
  | unsubscribe ids =>
      cases stepped
      exact ⟨h.recorded, h.subscribed⟩
  | frame frame =>
      cases stepped
      exact h.grow (fun id cached => CoinStateCache.mem_applyFrame_recorded cached)
        (fun insertion member => CoinStateCache.subscribed_of_mem_frameInsertions member)

end SolicitingState.Solicited

theorem solicited_initial : (soliciting coinId).initial.Solicited coinId where
  recorded id cached := by simp [soliciting, CoinStateCache.empty] at cached
  subscribed insertion member := by cases member

/-- In every run in which the states that answer a subscription are of coins subscribed to by
then, or are refused, every cached coin was subscribed to when it was put into the cache.
-/
theorem cached_coins_are_solicited {events : List SolicitingEvent}
    {final : SolicitingState}
    (answers : (soliciting coinId).Meets (AnswersRequest coinId) events)
    (reached : (soliciting coinId).run events = some final)
    : final.Solicited coinId :=
  Machine.run_invariant solicited_initial
    (fun solicited guarded stepped => solicited.step guarded stepped) answers reached

/-- A coin is subscribed to and answered, together with a coin that nobody asked for and that finds
the cache full; it is unsubscribed and reported as spent.
-/
def solicitedEvents : List SolicitingEvent :=
  [.subscribe (.coins [sampleId])
      [{ coin := sampleCoin, createdHeight := some 5, spentHeight := none },
        { coin := sampleCoinOf 2, createdHeight := some 5, spentHeight := none }],
    .unsubscribe [sampleId],
    .frame (.peak 9 1),
    .frame (.coinStates 10 9 2
      [{ coin := sampleCoin, createdHeight := some 5, spentHeight := some 10 }])]

theorem cached_coins_are_solicited_sample
    : ∃ final, (soliciting sampleCoinIdOf).run solicitedEvents = some final
        ∧ sampleId ∈ final.cache.coins
        ∧ final.Solicited sampleCoinIdOf := by
  have answers
      : (soliciting sampleCoinIdOf).Meets (AnswersRequest sampleCoinIdOf) solicitedEvents := by
    decide +kernel
  have reached
      : ((soliciting sampleCoinIdOf).run solicitedEvents).any (fun final =>
          decide (sampleId ∈ final.cache.coins))
        = true := by
    decide +kernel
  obtain ⟨final, reached, cached⟩ := (Option.any_eq_true _ _).mp reached
  exact ⟨final, reached, of_decide_eq_true cached,
    cached_coins_are_solicited answers reached⟩

/-- The first subscription, to another coin, is answered with `sampleCoin`. -/
def unsolicitedEvents : List SolicitingEvent :=
  [.subscribe (.coins [7])
    [{ coin := sampleCoin, createdHeight := some 5, spentHeight := none }]]

/-- In that run a coin that nobody subscribed to is put into the cache. -/
theorem unsolicited_coin_is_cached
    : ¬ ∀ (events : List SolicitingEvent) (final : SolicitingState),
        (soliciting sampleCoinId).run events = some final
        → final.Solicited sampleCoinId := by
  intro claim
  have reached
      : ((soliciting sampleCoinId).run unsolicitedEvents).any (fun final =>
          final.insertions.any (fun insertion => !insertion.subscribed))
        = true := by
    decide +kernel
  obtain ⟨final, reached, unsolicited⟩ := (Option.any_eq_true _ _).mp reached
  obtain ⟨insertion, member, unsubscribed⟩ := List.any_eq_true.mp unsolicited
  have subscribed := (claim unsolicitedEvents final reached).subscribed insertion member
  simp [subscribed] at unsubscribed

end ChiaQuery.LightClient
