import ChiaQuery.LightClient.ArmedSet

/-! When the provider's `coin_state` answers from the cache. The subscription set of the cache
outlives the session that armed it, and a read asks neither for the re-arm signal nor for the
session, so a coin may be answered from the cache while no session reports on it. While the signal
is kept, a coin that is read when no re-arm is asked for is armed.
-/

namespace ChiaQuery.LightClient

open ChiaQuery.Library RearmState

/-- What `coin_state` finds in the cache: the state of a coin that is subscribed to. -/
def CoinStateCache.cachedAnswer (cache : CoinStateCache) (id : Bytes32) : Option CoinState :=
  if id ∈ cache.subscribedCoins then cache.get id else none

/-- `LightClientProvider::coin_state`, where `fetch` is a read on any peer. -/
def coinState {ε : Type*} (coinId : ProtocolCoin → Bytes32) (cache : CoinStateCache)
    (fetch : List Bytes32 → Bool → Except ε (List CoinState)) (id : Bytes32)
    : Except ε (Option CoinState) :=
  match cache.cachedAnswer id with
  | some cached => .ok (some cached)
  | none => do
      let states ← fetch [id] false
      return states.find? (fun state => coinId state.coin = id)

/-- A coin that was answered from the cache, and whether it was armed on the pinned session
at that moment.
-/
structure CacheHit where
  id : Bytes32
  armed : Bool
  deriving DecidableEq, Repr

/-- A light client that is read from. `removing` records the coins whose subscription the pinned
session has removed and that are not untracked yet.
-/
structure ReadingState where
  client : RearmState
  removing : List Bytes32
  hits : List CacheHit

/-- The steps of a light client, reads of single coins, and the two halves of
`unsubscribe_coins`.
-/
inductive ReadingEvent where
  | client (event : RearmEvent)
  | read (id : Bytes32)
  | removeCoinSubscriptions (source : FrameSource) (ids : List Bytes32)
  | untrackCoins (ids : List Bytes32)
  deriving DecidableEq, Repr

/-- The request without the coins in `ids`. -/
def SubscriptionRequest.without (ids : List Bytes32)
    : SubscriptionRequest → SubscriptionRequest
  | .coins own => .coins (own.filter (fun id => id ∉ ids))
  | .puzzleHashes hashes => .puzzleHashes hashes

/-- The client when a session no longer reports on some coins. -/
def RearmState.removeCoins (state : RearmState) (source : FrameSource) (ids : List Bytes32)
    : RearmState :=
  { state with
    registered := state.registered.map (fun entry =>
      if entry.1 = source then (entry.1, entry.2.without ids) else entry) }

variable (coinId : ProtocolCoin → Bytes32)

/-- One step of a light client that is read from. -/
def readingStep (state : ReadingState) : ReadingEvent → Option ReadingState
  | .client event =>
      match rearmStep coinId state.client event with
      | none => none
      | some client => some { state with client }
  -- The cache decides alone; a miss goes on to fetch.
  | .read id =>
      match state.client.cache.cachedAnswer id with
      | none => some state
      | some _ =>
          let hit := { id, armed := state.client.armedFor (.coin id) }
          some { state with hits := hit :: state.hits }
  | .removeCoinSubscriptions source ids =>
      some { state with
        client := state.client.removeCoins source ids,
        removing :=
          if state.client.anchor = some source then ids ++ state.removing else state.removing }
  | .untrackCoins ids =>
      some { state with
        client := { state.client with cache := state.client.cache.untrackCoins ids },
        removing := state.removing.filter (fun id => id ∉ ids) }

/-- A light client of which nothing has been read. -/
def reading : Machine ReadingState ReadingEvent where
  initial := { client := (rearming coinId).initial, removing := [], hits := [] }
  step := readingStep coinId

/-- Every coin answered from the cache was armed on the pinned session. -/
def ReadingState.AnswersArmed (state : ReadingState) : Prop :=
  ∀ hit ∈ state.hits, hit.armed = true

/-- The client keeps its re-arm signal. A coin of the subscription set is read while no re-arm is
asked for, and not between the two halves of its unsubscription; and no subscription is removed
between the answer that registers it and its tracking.
-/
def ReadsWhileQuiet (state : ReadingState) (event : ReadingEvent) : Prop :=
  match event with
  | .client event => KeepsSignal state.client event
  | .read id =>
      id ∉ state.client.cache.subscribedCoins
      ∨ state.client.rearmNeeded = false ∧ id ∉ state.removing
  | .removeCoinSubscriptions source ids =>
      ∀ task ∈ state.client.tasks,
        task.stage = .answered source
        → ∀ request ∈ task.requests.head?, ∀ id ∈ ids, .coin id ∉ request.subscriptions
  | .untrackCoins _ => True

instance (state : ReadingState) (event : ReadingEvent)
    : Decidable (ReadsWhileQuiet state event) := by
  cases event <;> unfold ReadsWhileQuiet <;> infer_instance

variable {coinId}

------------------------------------------------------------------------------------------
-- A miss in the cache goes to a fetch
------------------------------------------------------------------------------------------

theorem coinState_of_miss {ε : Type*} {cache : CoinStateCache}
    {fetch : List Bytes32 → Bool → Except ε (List CoinState)} {id : Bytes32}
    (miss : cache.cachedAnswer id = none)
    : coinState coinId cache fetch id
      = (fetch [id] false).map (fun states =>
          states.find? (fun state => coinId state.coin = id)) := by
  simp only [coinState, miss]
  cases fetch [id] false with
  | error failure => rfl
  | ok states => rfl

/-- Only a coin of the subscription set is answered from the cache. -/
theorem subscribed_of_cachedAnswer {cache : CoinStateCache} {id : Bytes32} {state : CoinState}
    (found : cache.cachedAnswer id = some state)
    : id ∈ cache.subscribedCoins := by
  unfold CoinStateCache.cachedAnswer at found
  split at found
  · assumption
  · cases found

------------------------------------------------------------------------------------------
-- Removing a subscription
------------------------------------------------------------------------------------------

/-- The subscriptions to coins. -/
def coinSubscriptions (ids : List Bytes32) : Set Subscription :=
  { subscription | ∃ id ∈ ids, subscription = .coin id }

section Removal

variable {state : RearmState} {source held : FrameSource} {ids : List Bytes32}
  {subscription : Subscription}

theorem mem_subscriptions_without {request : SubscriptionRequest}
    (listed : subscription ∈ request.subscriptions)
    (kept : subscription ∉ coinSubscriptions ids)
    : subscription ∈ (request.without ids).subscriptions := by
  cases request with
  | coins own =>
      obtain ⟨id, member, rfl⟩ := List.mem_map.mp listed
      have other : id ∉ ids := fun removed => kept ⟨id, removed, rfl⟩
      exact List.mem_map_of_mem (List.mem_filter.mpr ⟨member, by simpa using other⟩)
  | puzzleHashes hashes => exact listed

/-- Removing other coins, or coins of another session, leaves a subscription registered. -/
theorem registeredOn_removeCoins (registered : state.registeredOn held subscription = true)
    (kept : held = source → subscription ∉ coinSubscriptions ids)
    : (state.removeCoins source ids).registeredOn held subscription = true := by
  obtain ⟨entry, listed, names⟩ := List.any_eq_true.mp registered
  refine List.any_eq_true.mpr ⟨_, List.mem_map_of_mem listed, ?_⟩
  simp only [Bool.and_eq_true, decide_eq_true_eq] at names ⊢
  obtain ⟨rfl, covered⟩ := names
  split
  · rename_i same
    exact ⟨rfl, mem_subscriptions_without covered (kept same)⟩
  · exact ⟨rfl, covered⟩

theorem armedFor_removeCoins (armed : state.armedFor subscription = true)
    (kept : state.anchor = some source → subscription ∉ coinSubscriptions ids)
    : (state.removeCoins source ids).armedFor subscription = true := by
  obtain ⟨held, pinned, registered⟩ := (Option.any_eq_true _ _).mp armed
  refine (Option.any_eq_true _ _).mpr ⟨held, pinned, registeredOn_removeCoins registered ?_⟩
  rintro rfl
  exact kept pinned

/-- Without the coins of the pinned session that are removed, the client keeps its invariant when
no call stands between the answer that registered one of them and its tracking.
-/
theorem RearmInvariant.removeCoins {spared more : Set Subscription}
    (h : RearmInvariant spared state)
    (overtakes
      : ∀ task ∈ state.tasks,
          task.stage = .answered source
          → ∀ request ∈ task.requests.head?, ∀ id ∈ ids, .coin id ∉ request.subscriptions)
    (fewer : spared ⊆ more)
    (removed : state.anchor = some source → coinSubscriptions ids ⊆ more)
    : RearmInvariant more (state.removeCoins source ids) := by
  have kept {subscription : Subscription} (outside : subscription ∉ more) :
      state.anchor = some source → subscription ∉ coinSubscriptions ids :=
    fun pinned listed => outside (removed pinned listed)
  constructor
  · intro quiet subscription subscribed outside
    have armed := h.armed quiet subscription subscribed (fun member => outside (fewer member))
    exact armedFor_removeCoins armed (kept outside)
  · intro task member
    have fits := h.tasks task member
    refine ⟨fun clears current subscription subscribed outside => ?_, ?_, fits.pinned, fits.since⟩
    · have before := fits.rearming clears current subscription subscribed
        (fun member => outside (fewer member))
      exact before.imp_left (fun armed => armedFor_removeCoins armed (kept outside))
    · intro answering stage request first subscription covered
      refine registeredOn_removeCoins
        (fits.answered answering stage request first subscription covered) ?_
      rintro rfl ⟨id, removed, rfl⟩
      exact overtakes task member stage request first id removed covered

/-- Coins that are untracked need not be spared any longer. -/
theorem RearmInvariant.untrackCoins {spared fewer : Set Subscription}
    (h : RearmInvariant spared state)
    (others : ∀ subscription ∈ spared, subscription ∉ coinSubscriptions ids → subscription ∈ fewer)
    : RearmInvariant fewer { state with cache := state.cache.untrackCoins ids } := by
  have tracked {subscription : Subscription}
      (subscribed
        : ({ state with cache := state.cache.untrackCoins ids } : RearmState).Subscribed
            subscription)
      : state.Subscribed subscription ∧ subscription ∉ coinSubscriptions ids := by
    cases subscription with
    | coin id =>
        obtain ⟨held, kept⟩ := Finset.mem_sdiff.mp subscribed
        refine ⟨held, ?_⟩
        rintro ⟨other, removed, same⟩
        cases same
        exact kept (List.mem_toFinset.mpr removed)
    | puzzleHash hash =>
        refine ⟨subscribed, ?_⟩
        rintro ⟨other, -, same⟩
        cases same
  constructor
  · intro quiet subscription subscribed outside
    obtain ⟨before, kept⟩ := tracked subscribed
    exact h.armed quiet subscription before
      (fun member => outside (others subscription member kept))
  · intro task member
    have fits := h.tasks task member
    refine ⟨fun clears current subscription subscribed outside => ?_, fits.answered, fits.pinned,
      fits.since⟩
    obtain ⟨before, kept⟩ := tracked subscribed
    exact fits.rearming clears current subscription before
      (fun member => outside (others subscription member kept))

end Removal

------------------------------------------------------------------------------------------
-- What is answered from the cache is armed
------------------------------------------------------------------------------------------

/-- What every state of a run of quiet reads satisfies: the client keeps its invariant, but for the
coins that are being unsubscribed.
-/
structure ReadingInvariant (state : ReadingState) : Prop where
  client : RearmInvariant (coinSubscriptions state.removing) state.client
  hits : state.AnswersArmed

namespace ReadingInvariant

variable {state next : ReadingState}

theorem client_step (h : ReadingInvariant state) {event : RearmEvent}
    (quiet : ReadsWhileQuiet state (.client event))
    (stepped : readingStep coinId state (.client event) = some next)
    : ReadingInvariant next := by
  simp only [readingStep] at stepped
  split at stepped
  · cases stepped
  · rename_i client moved
    cases stepped
    exact ⟨h.client.step quiet moved, h.hits⟩

/-- A coin that is answered from the cache is in the subscription set, which is armed. -/
theorem read (h : ReadingInvariant state) {id : Bytes32}
    (quiet : ReadsWhileQuiet state (.read id))
    (stepped : readingStep coinId state (.read id) = some next)
    : ReadingInvariant next := by
  simp only [readingStep] at stepped
  split at stepped
  · cases stepped
    exact h
  · rename_i cached found
    cases stepped
    refine ⟨h.client, fun hit member => ?_⟩
    rcases List.mem_cons.mp member with rfl | before
    · have subscribed := subscribed_of_cachedAnswer found
      rcases quiet with unsubscribed | ⟨noRearm, kept⟩
      · exact absurd subscribed unsubscribed
      · refine h.client.armed noRearm (.coin id) subscribed ?_
        rintro ⟨other, removed, same⟩
        cases same
        exact kept removed
    · exact h.hits hit before

theorem removeCoinSubscriptions (h : ReadingInvariant state) {source : FrameSource}
    {ids : List Bytes32} (quiet : ReadsWhileQuiet state (.removeCoinSubscriptions source ids))
    (stepped : readingStep coinId state (.removeCoinSubscriptions source ids) = some next)
    : ReadingInvariant next := by
  cases stepped
  refine ⟨h.client.removeCoins quiet ?_ ?_, h.hits⟩
  · rintro subscription ⟨id, removing, rfl⟩
    refine ⟨id, ?_, rfl⟩
    split
    · exact List.mem_append_right ids removing
    · exact removing
  · rintro pinned subscription ⟨id, removed, rfl⟩
    refine ⟨id, ?_, rfl⟩
    rw [if_pos pinned]
    exact List.mem_append_left state.removing removed

theorem untrackCoins (h : ReadingInvariant state) {ids : List Bytes32}
    (stepped : readingStep coinId state (.untrackCoins ids) = some next)
    : ReadingInvariant next := by
  cases stepped
  refine ⟨h.client.untrackCoins ?_, h.hits⟩
  rintro subscription ⟨id, removing, rfl⟩ kept
  have other : id ∉ ids := fun listed => kept ⟨id, listed, rfl⟩
  exact ⟨id, List.mem_filter.mpr ⟨removing, by simpa using other⟩, rfl⟩

/-- Every event of a run of quiet reads keeps the invariant. -/
theorem step (h : ReadingInvariant state) {event : ReadingEvent}
    (quiet : ReadsWhileQuiet state event)
    (stepped : (reading coinId).step state event = some next)
    : ReadingInvariant next := by
  change readingStep coinId state event = some next at stepped
  cases event with
  | client event => exact h.client_step quiet stepped
  | read id => exact h.read quiet stepped
  | removeCoinSubscriptions source ids => exact h.removeCoinSubscriptions quiet stepped
  | untrackCoins ids => exact h.untrackCoins stepped

end ReadingInvariant

theorem readingInvariant_initial (coinId : ProtocolCoin → Bytes32)
    : ReadingInvariant (reading coinId).initial where
  client := rearmInvariant_initial coinId
  hits hit member := by cases member

/-- In every run that keeps the re-arm signal and in which no coin of the subscription set is read
while a re-arm is asked for or while it is being unsubscribed, every answer taken from the cache
was of a coin that was armed on the pinned session.
-/
theorem cache_answers_are_armed {events : List ReadingEvent} {final : ReadingState}
    (quiet : (reading coinId).Meets ReadsWhileQuiet events)
    (reached : (reading coinId).run events = some final)
    : final.AnswersArmed :=
  (Machine.run_invariant (readingInvariant_initial coinId)
    (fun h guarded stepped => h.step guarded stepped) quiet reached).hits

/-- A coin is subscribed to on a session, which answers with its state. -/
def subscribedEvents (source : FrameSource) : List ReadingEvent :=
  [.client (.subscribeCoins [sampleId]), .client (.draw 0 source), .client (.answer 0),
    .client (.settle 0 [{ coin := sampleCoin, createdHeight := some 5, spentHeight := none }]),
    .client (.finish 0)]

/-- The coin is read while the session is pinned and again after a reconnect has registered it on
another one; then it is unsubscribed.
-/
def quietReadEvents : List ReadingEvent :=
  subscribedEvents (sampleEntry 1).source
    ++ [.read sampleId, .client (.releaseAnchor (sampleEntry 1).source),
      .client (.reconnect [sampleId] []), .client (.draw 0 (sampleEntry 2).source),
      .client (.answer 0), .client (.settle 0 []), .client (.finish 0), .read sampleId,
      .removeCoinSubscriptions (sampleEntry 2).source [sampleId], .untrackCoins [sampleId],
      .read sampleId]

theorem cache_answers_are_armed_sample
    : ∃ final, (reading sampleCoinId).run quietReadEvents = some final
        ∧ final.hits.length = 2
        ∧ final.AnswersArmed := by
  have quiet : (reading sampleCoinId).Meets ReadsWhileQuiet quietReadEvents := by
    decide +kernel
  have reached
      : ((reading sampleCoinId).run quietReadEvents).any (fun final =>
          decide (final.hits.length = 2))
        = true := by
    decide +kernel
  obtain ⟨final, reached, hits⟩ := (Option.any_eq_true _ _).mp reached
  exact ⟨final, reached, of_decide_eq_true hits, cache_answers_are_armed quiet reached⟩

/-- The session ends and another one is pinned before the coin is read. -/
def staleReadEvents : List ReadingEvent :=
  subscribedEvents (sampleEntry 1).source
    ++ [.client (.releaseAnchor (sampleEntry 1).source), .client (.pin (sampleEntry 2).source),
      .read sampleId]

/-- In that run the coin is answered from the cache, and no session reports on it. -/
theorem cache_answer_is_unarmed
    : ¬ ∀ (events : List ReadingEvent) (final : ReadingState),
        (reading sampleCoinId).run events = some final
        → final.AnswersArmed := by
  intro claim
  have reached
      : ((reading sampleCoinId).run staleReadEvents).any (fun final =>
          decide (final.hits = [CacheHit.mk sampleId false]))
        = true := by
    decide +kernel
  obtain ⟨final, reached, hits⟩ := (Option.any_eq_true _ _).mp reached
  have armed := claim staleReadEvents final reached (CacheHit.mk sampleId false)
  rw [of_decide_eq_true hits] at armed
  exact absurd (armed List.mem_cons_self) (by decide)

end ChiaQuery.LightClient
