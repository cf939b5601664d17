import ChiaQuery.LightClient.Rearming

/-! While subscriptions are recorded and the signal is cleared as they should be, a light
client that asks for no re-arm has its whole subscription set armed on the pinned session.
-/

namespace ChiaQuery.LightClient

open ChiaQuery.Library RearmState

------------------------------------------------------------------------------------------
-- The invariant of a light client and the calls on it
------------------------------------------------------------------------------------------

/-- What a call in progress may rely on. A reconnect that lost no anchor still covers whatever
is not armed, but for what is spared; an answered request is registered; and without a loss the
session a request went to is still the pinned one.
-/
structure RearmTask.Fits (spared : Set Subscription) (state : RearmState) (task : RearmTask)
    : Prop where
  rearming
    : task.clears = true
      → task.since = state.losses
      → ∀ subscription, state.Subscribed subscription
        → subscription ∉ spared
        → state.armedFor subscription = true ∨ subscription ∈ task.remaining
  answered
    : ∀ source, task.stage = .answered source
      → ∀ request ∈ task.requests.head?, ∀ subscription ∈ request.subscriptions,
        state.registeredOn source subscription = true
  pinned
    : task.since = state.losses
      → ∀ source, task.stage = .requesting source ∨ task.stage = .answered source
        → state.anchor = some source
  since : task.since ≤ state.losses

/-- What every state of a run that keeps the signal satisfies, of the subscriptions that are not
spared.
-/
structure RearmInvariant (spared : Set Subscription) (state : RearmState) : Prop where
  armed
    : state.rearmNeeded = false
      → ∀ subscription, state.Subscribed subscription
        → subscription ∉ spared
        → state.armedFor subscription = true
  tasks : ∀ task ∈ state.tasks, task.Fits spared state

variable {spared : Set Subscription}

------------------------------------------------------------------------------------------
-- Steps that lose no anchor
------------------------------------------------------------------------------------------

/-- A step that loses no anchor and subscribes to nothing new. -/
structure Grows (state next : RearmState) : Prop where
  losses : next.losses = state.losses
  anchor : ∀ source, state.anchor = some source → next.anchor = some source
  registered
    : ∀ source subscription,
        state.registeredOn source subscription = true
        → next.registeredOn source subscription = true
  subscribed : ∀ subscription, next.Subscribed subscription → state.Subscribed subscription

theorem Grows.armedFor {state next : RearmState} (grows : Grows state next)
    {subscription : Subscription} (h : state.armedFor subscription = true)
    : next.armedFor subscription = true :=
  have retains : state.Retains next := ⟨grows.anchor, grows.registered⟩
  retains.armedFor h

theorem RearmTask.Fits.grow {state next : RearmState} {task : RearmTask}
    (h : task.Fits spared state) (grows : Grows state next)
    : task.Fits spared next where
  rearming clears current subscription subscribed outside := by
    rw [grows.losses] at current
    have old := grows.subscribed subscription subscribed
    exact (h.rearming clears current subscription old outside).imp_left grows.armedFor
  answered source stage request first subscription covered := by
    have registered := h.answered source stage request first subscription covered
    exact grows.registered source subscription registered
  pinned current source stage := by
    rw [grows.losses] at current
    exact grows.anchor source (h.pinned current source stage)
  since := grows.losses ▸ h.since

/-- A step that grows the state keeps the invariant when the calls it changes fit. -/
theorem RearmInvariant.grow {state next : RearmState} (h : RearmInvariant spared state)
    (grows : Grows state next)
    (signal : next.rearmNeeded = false → state.rearmNeeded = false)
    (tasks : ∀ task ∈ next.tasks, task ∈ state.tasks ∨ task.Fits spared next)
    : RearmInvariant spared next where
  armed quiet subscription subscribed outside :=
    grows.armedFor
      (h.armed (signal quiet) subscription (grows.subscribed subscription subscribed) outside)
  tasks task member := by
    rcases tasks task member with old | fits
    · exact (h.tasks task old).grow grows
    · exact fits

------------------------------------------------------------------------------------------
-- Steps that lose the anchor
------------------------------------------------------------------------------------------

/-- Losing the anchor asks for a re-arm, and leaves no call that has lost none. -/
theorem RearmInvariant.loseAnchor {state : RearmState} (h : RearmInvariant spared state)
    : RearmInvariant spared state.loseAnchor where
  armed quiet := by cases quiet
  tasks task member := by
    have old := h.tasks task member
    have lost : task.since ≠ state.loseAnchor.losses := by
      have := old.since
      simp only [RearmState.loseAnchor]
      omega
    exact {
      rearming := fun _ current => absurd current lost
      answered := old.answered
      pinned := fun current => absurd current lost
      since := Nat.le_succ_of_le old.since
    }

theorem RearmInvariant.releaseAnchor {state : RearmState} (h : RearmInvariant spared state)
    (source : FrameSource)
    : RearmInvariant spared (state.releaseAnchor source) := by
  unfold RearmState.releaseAnchor
  split
  · exact h.loseAnchor
  · exact h

theorem RearmInvariant.releaseAnchorAt {state : RearmState} (h : RearmInvariant spared state)
    (address : SocketAddr)
    : RearmInvariant spared (state.releaseAnchorAt address) := by
  unfold RearmState.releaseAnchorAt
  split
  · exact h.loseAnchor
  · exact h

------------------------------------------------------------------------------------------
-- The steps of a call
------------------------------------------------------------------------------------------

/-- Which calls are in progress decides nothing else. -/
theorem Grows.tasks (state : RearmState) (tasks : List RearmTask)
    : Grows state { state with tasks } where
  losses := rfl
  anchor _ pinned := pinned
  registered _ _ registered := registered
  subscribed _ subscribed := subscribed

theorem RearmInvariant.drop {state : RearmState} (h : RearmInvariant spared state) (index : Nat)
    : RearmInvariant spared (state.drop index) :=
  h.grow (Grows.tasks state _) id (fun _ member => Or.inl (List.mem_of_mem_eraseIdx member))

/-- A call that moves on keeps the invariant when it fits where it arrives. -/
theorem RearmInvariant.advance {state : RearmState} (h : RearmInvariant spared state) {index : Nat}
    {task : RearmTask} (fits : task.Fits spared state)
    : RearmInvariant spared (state.advance index task) := by
  have grows : Grows state (state.advance index task) := Grows.tasks state _
  refine h.grow grows id (fun other member => ?_)
  rcases List.mem_or_eq_of_mem_set member with old | rfl
  · exact Or.inl old
  · exact Or.inr (fits.grow grows)

/-- Pinning keeps an anchor that is pinned. -/
theorem Grows.pin (state : RearmState) (source : FrameSource)
    : Grows state (state.pin source) where
  losses := rfl
  anchor held pinned := by simp [RearmState.pin, pinned]
  registered _ _ registered := registered
  subscribed _ subscribed := subscribed

/-- A call that begins relies on nothing but what its requests cover. -/
theorem RearmInvariant.spawn {state : RearmState} (h : RearmInvariant spared state)
    {requests : List SubscriptionRequest} {clears : Bool}
    (covers
      : clears = true
        → ∀ subscription, state.Subscribed subscription
          → subscription ∈ requests.flatMap SubscriptionRequest.subscriptions)
    : RearmInvariant spared (state.spawn requests clears) := by
  refine h.grow (Grows.tasks state _) id (fun task member => ?_)
  rcases List.mem_append.mp member with old | new
  · exact Or.inl old
  · cases List.mem_singleton.mp new
    refine Or.inr ⟨?_, ?_, ?_, Nat.le_refl _⟩
    · intro clears _ subscription subscribed _
      exact Or.inr (covers clears subscription subscribed)
    · intro source stage
      cases stage
    · intro _ source stage
      rcases stage with stage | stage
      · cases stage
      · cases stage

theorem RearmInvariant.pin {state : RearmState} (h : RearmInvariant spared state)
    (source : FrameSource)
    : RearmInvariant spared (state.pin source) :=
  h.grow (Grows.pin state source) id (fun _ member => Or.inl member)

/-- A request is answered on the session it went to. -/
theorem Grows.answer (state : RearmState) (entry : FrameSource × SubscriptionRequest)
    : Grows state { state with registered := entry :: state.registered } where
  losses := rfl
  anchor _ pinned := pinned
  registered source subscription registered := by
    unfold registeredOn at registered ⊢
    rw [List.any_cons, registered, Bool.or_true]
  subscribed _ subscribed := subscribed

/-- A call at another stage fits when what it may then rely on holds. -/
theorem RearmTask.Fits.restage {state : RearmState} {task : RearmTask} (h : task.Fits spared state)
    (stage : CallStage)
    (answered
      : ∀ source, stage = .answered source
        → ∀ request ∈ task.requests.head?, ∀ subscription ∈ request.subscriptions,
          state.registeredOn source subscription = true)
    (pinned
      : task.since = state.losses
        → ∀ source, stage = .requesting source ∨ stage = .answered source
          → state.anchor = some source)
    : { task with stage : RearmTask }.Fits spared state :=
  ⟨h.rearming, answered, pinned, h.since⟩

------------------------------------------------------------------------------------------
-- Recording a subscription
------------------------------------------------------------------------------------------

section Recording

variable {coinId : ProtocolCoin → Bytes32} {cache : CoinStateCache} {states : List CoinState}

theorem record_subscribedCoins (request : SubscriptionRequest)
    : (request.record coinId cache states).subscribedCoins
      = match request with
        | .coins ids => cache.subscribedCoins ∪ ids.toFinset
        | .puzzleHashes _ => cache.subscribedCoins := by
  cases request with
  | coins ids => exact CoinStateCache.seed_subscribedCoins states
  | puzzleHashes hashes => exact CoinStateCache.seed_subscribedCoins states

theorem record_subscribedPuzzleHashes (request : SubscriptionRequest)
    : (request.record coinId cache states).subscribedPuzzleHashes
      = match request with
        | .coins _ => cache.subscribedPuzzleHashes
        | .puzzleHashes hashes => cache.subscribedPuzzleHashes ∪ hashes.toFinset := by
  cases request with
  | coins ids => exact CoinStateCache.seed_subscribedPuzzleHashes states
  | puzzleHashes hashes => exact CoinStateCache.seed_subscribedPuzzleHashes states

/-- What recording a request adds to the subscription set is what it covers. -/
theorem subscribed_record {state next : RearmState} {request : SubscriptionRequest}
    (recorded : next.cache = request.record coinId state.cache states)
    {subscription : Subscription} (subscribed : next.Subscribed subscription)
    : state.Subscribed subscription ∨ subscription ∈ request.subscriptions := by
  cases subscription with
  | coin id =>
      rw [Subscribed, recorded, record_subscribedCoins] at subscribed
      cases request with
      | coins ids => simpa [Subscribed, SubscriptionRequest.subscriptions] using subscribed
      | puzzleHashes hashes => exact Or.inl subscribed
  | puzzleHash hash =>
      rw [Subscribed, recorded, record_subscribedPuzzleHashes] at subscribed
      cases request with
      | coins ids => exact Or.inl subscribed
      | puzzleHashes hashes =>
          simpa [Subscribed, SubscriptionRequest.subscriptions] using subscribed

end Recording

namespace RearmInvariant

variable {coinId : ProtocolCoin → Bytes32} {state next : RearmState} {index : Nat}

------------------------------------------------------------------------------------------
-- Every event keeps the invariant
------------------------------------------------------------------------------------------

/-- The subscription set that a reconnect reads is what its requests cover. -/
theorem reconnect (h : RearmInvariant spared state) {coins puzzleHashes : List Bytes32}
    (stepped : rearmStep coinId state (.reconnect coins puzzleHashes) = some next)
    : RearmInvariant spared next := by
  simp only [rearmStep] at stepped
  split at stepped
  · rename_i snapshot
    cases stepped
    refine h.spawn (fun _ subscription subscribed => ?_)
    cases subscription with
    | coin id =>
        rw [Subscribed, ← snapshot.1, List.mem_toFinset] at subscribed
        have nonempty : coins.isEmpty = false := by
          cases coins with
          | nil => cases subscribed
          | cons _ _ => rfl
        simp [nonempty, SubscriptionRequest.subscriptions, subscribed]
    | puzzleHash hash =>
        rw [Subscribed, ← snapshot.2, List.mem_toFinset] at subscribed
        have nonempty : puzzleHashes.isEmpty = false := by
          cases puzzleHashes with
          | nil => cases subscribed
          | cons _ _ => rfl
        simp [nonempty, SubscriptionRequest.subscriptions, subscribed]
  · cases stepped

theorem draw (h : RearmInvariant spared state) {source : FrameSource}
    (stepped : rearmStep coinId state (.draw index source) = some next)
    : RearmInvariant spared next := by
  simp only [rearmStep] at stepped
  split at stepped
  · rename_i request rest clears since found
    cases stepped
    have pinned := h.pin source
    have fits := pinned.tasks _ (List.mem_of_getElem? found)
    refine pinned.advance (fits.restage (.requesting (state.anchor.getD source)) ?_ ?_)
    · intro _ stage
      cases stage
    · intro _ held stage
      rcases stage with stage | stage
      · cases stage
        rfl
      · cases stage
  · cases stepped

theorem answer (h : RearmInvariant spared state)
    (stepped : rearmStep coinId state (.answer index) = some next)
    : RearmInvariant spared next := by
  simp only [rearmStep] at stepped
  split at stepped
  · rename_i request rest source clears since found
    cases stepped
    have grown := h.grow (Grows.answer state (source, request)) id
      (fun _ member => Or.inl member)
    have fits := grown.tasks _ (List.mem_of_getElem? found)
    refine grown.advance (fits.restage (.answered source) ?_ ?_)
    · intro answering stage first head subscription covered
      cases stage
      cases head
      simp [registeredOn, covered]
    · intro current held stage
      rcases stage with stage | stage
      · cases stage
      · cases stage
        exact fits.pinned current source (Or.inl rfl)
  · cases stepped

theorem readFails (h : RearmInvariant spared state)
    (stepped : rearmStep coinId state (.readFails index) = some next)
    : RearmInvariant spared next := by
  simp only [rearmStep] at stepped
  split at stepped
  · rename_i requests source clears since found
    cases stepped
    have fits := h.tasks _ (List.mem_of_getElem? found)
    refine h.advance (fits.restage (.discarding source.address) ?_ ?_)
    · intro _ stage
      cases stage
    · intro _ _ stage
      rcases stage with stage | stage
      · cases stage
      · cases stage
  · cases stepped

/-- What a request covers is recorded as the guard says: armed on the pinned session, or still
to be armed by every reconnect that has lost no anchor. The call itself moves past the
request, which it may: without a loss its session is the pinned one.
-/
theorem settle (h : RearmInvariant spared state) {states : List CoinState}
    (keeps : KeepsSignal state (.settle index states))
    (stepped : rearmStep coinId state (.settle index states) = some next)
    : RearmInvariant spared next := by
  simp only [rearmStep] at stepped
  split at stepped
  · rename_i request rest source clears since found
    cases stepped
    have guarded := keeps _ found request rfl
    have fits := h.tasks _ (List.mem_of_getElem? found)
    refine ⟨fun quiet subscription subscribed outside => ?_, fun task member => ?_⟩
    · rcases subscribed_record rfl subscribed with old | covered
      · exact h.armed quiet subscription old outside
      -- The guard's other side asks for a re-arm, so the signal would not be quiet.
      · rcases guarded subscription covered with armed | ⟨asked, -⟩
        · exact armed
        · exact absurd (quiet.symm.trans asked) (by simp)
    · rcases List.mem_or_eq_of_mem_set member with old | rfl
      · have other := h.tasks task old
        refine ⟨fun clears current subscription subscribed outside => ?_, other.answered,
          other.pinned, other.since⟩
        rcases subscribed_record rfl subscribed with before | covered
        · exact other.rearming clears current subscription before outside
        · exact (guarded subscription covered).imp_right
            (fun asked => asked.2 task old clears current)
      -- The call itself no longer has the request to make, so it must have armed it.
      · refine ⟨fun clears current subscription subscribed outside => ?_, ?_, ?_, fits.since⟩
        · have here : subscription ∈ request.subscriptions
              → state.armedFor subscription = true := by
            intro covered
            have pinned := fits.pinned current source (Or.inr rfl)
            have registered := fits.answered source rfl request rfl subscription covered
            simp [armedFor, pinned, registered]
          rcases subscribed_record rfl subscribed with before | covered
          · rcases fits.rearming clears current subscription before outside with armed | left
            · exact Or.inl armed
            · rcases List.mem_append.mp left with now | later
              · exact Or.inl (here now)
              · exact Or.inr later
          · exact Or.inl (here covered)
        · intro _ stage
          cases stage
        · intro _ _ stage
          rcases stage with stage | stage
          · cases stage
          · cases stage
  · cases stepped

/-- A reconnect that clears the signal has armed all it covers on an anchor it never lost. -/
theorem finish (h : RearmInvariant spared state) (keeps : KeepsSignal state (.finish index))
    (stepped : rearmStep coinId state (.finish index) = some next)
    : RearmInvariant spared next := by
  simp only [rearmStep] at stepped
  split at stepped
  · rename_i stage since found
    cases stepped
    have fits := h.tasks _ (List.mem_of_getElem? found)
    have current := keeps _ found rfl
    have cleared : RearmInvariant spared state.clearRearm := by
      refine ⟨fun _ subscription subscribed outside => ?_, fun task member => ?_⟩
      · have covered := fits.rearming rfl current subscription subscribed outside
        exact covered.resolve_right (by simp [RearmTask.remaining])
      · have other := h.tasks task member
        exact ⟨other.rearming, other.answered, other.pinned, other.since⟩
    exact cleared.drop index
  · cases stepped
    exact h.drop index
  · cases stepped

theorem discard (h : RearmInvariant spared state)
    (stepped : rearmStep coinId state (.discard index) = some next)
    : RearmInvariant spared next := by
  simp only [rearmStep] at stepped
  split at stepped
  · cases stepped
    exact (h.releaseAnchorAt _).drop index
  · cases stepped

theorem receive (h : RearmInvariant spared state) {sourced : SourcedFrame}
    (stepped : rearmStep coinId state (.receive sourced) = some next)
    : RearmInvariant spared next := by
  simp only [rearmStep] at stepped
  split at stepped
  · cases stepped
  · split at stepped
    · cases stepped
      exact h.grow ⟨rfl, fun _ pinned => pinned, fun _ _ registered => registered,
        fun _ subscribed => subscribed⟩ id (fun _ member => Or.inl member)
    · cases stepped
      exact h

/-- A frame only takes spent coins off the subscription set. -/
theorem applyFollowed (h : RearmInvariant spared state)
    (stepped : rearmStep coinId state .applyFollowed = some next)
    : RearmInvariant spared next := by
  simp only [rearmStep] at stepped
  split at stepped
  · cases stepped
  · rename_i sourced followed
    have grows : Grows state
        { state with
          cache := (state.cache.applyFrame coinId sourced.frame).1,
          followed := none } := by
      refine ⟨rfl, fun _ pinned => pinned, fun _ _ registered => registered, ?_⟩
      intro subscription subscribed
      cases subscription with
      | coin id => exact CoinStateCache.applyFrame_subscribedCoins_subset subscribed
      | puzzleHash hash =>
          rw [Subscribed, CoinStateCache.applyFrame_subscribedPuzzleHashes] at subscribed
          exact subscribed
    have applied := h.grow grows id (fun _ member => Or.inl member)
    split at stepped
    · cases stepped
      exact applied
    · cases stepped
      exact applied.releaseAnchor sourced.source

/-- Every event of a run that keeps the signal keeps the invariant. Cases on the event. -/
theorem step (h : RearmInvariant spared state) {event : RearmEvent}
    (keeps : KeepsSignal state event)
    (stepped : (rearming coinId).step state event = some next)
    : RearmInvariant spared next := by
  change rearmStep coinId state event = some next at stepped
  cases event with
  | subscribeCoins ids =>
      cases stepped
      exact h.spawn (fun impossible => absurd impossible (by simp))
  | subscribePuzzleHashes hashes =>
      cases stepped
      exact h.spawn (fun impossible => absurd impossible (by simp))
  | reconnect coins puzzleHashes => exact h.reconnect stepped
  | draw index source => exact h.draw stepped
  | answer index => exact h.answer stepped
  | settle index states => exact h.settle keeps stepped
  | finish index => exact h.finish keeps stepped
  | readFails index => exact h.readFails stepped
  | discard index => exact h.discard stepped
  | abandon index =>
      cases stepped
      exact h.drop index
  | pin source =>
      cases stepped
      exact h.pin source
  | releaseAnchor source =>
      cases stepped
      exact h.releaseAnchor source
  | releaseAnchorAt address =>
      cases stepped
      exact h.releaseAnchorAt address
  | receive sourced => exact h.receive stepped
  | applyFollowed => exact h.applyFollowed stepped

end RearmInvariant

------------------------------------------------------------------------------------------
-- Runs that keep the signal
------------------------------------------------------------------------------------------

theorem rearmInvariant_initial (coinId : ProtocolCoin → Bytes32)
    : RearmInvariant spared (rearming coinId).initial where
  armed _ subscription subscribed _ := by
    cases subscription with
    | coin id => simp [rearming, CoinStateCache.empty, Subscribed] at subscribed
    | puzzleHash hash => simp [rearming, CoinStateCache.empty, Subscribed] at subscribed
  tasks := by simp [rearming]

/-- In every state of every run that keeps the signal, a light client that asks for no re-arm
has its whole subscription set armed on the pinned session.
-/
theorem quiet_signal_is_armed {coinId : ProtocolCoin → Bytes32} {events : List RearmEvent}
    {final : RearmState} (keeps : (rearming coinId).Meets KeepsSignal events)
    (reached : (rearming coinId).run events = some final)
    : final.Armed := by
  have invariant : RearmInvariant ∅ final :=
    Machine.run_invariant (rearmInvariant_initial coinId)
      (fun h guarded stepped => h.step guarded stepped) keeps reached
  intro quiet nonempty
  obtain ⟨subscription, subscribed⟩ := nonempty
  have armed (subscription : Subscription) (subscribed : final.Subscribed subscription) :
      final.armedFor subscription = true :=
    invariant.armed quiet subscription subscribed (Set.notMem_empty subscription)
  obtain ⟨source, pinned, -⟩ := (Option.any_eq_true _ _).mp (armed subscription subscribed)
  refine ⟨source, pinned, fun other held => ?_⟩
  simpa [armedFor, pinned] using armed other held

/-- The steps of one call to subscribe that nothing disturbs. -/
def callEvents (source : FrameSource) : List RearmEvent :=
  [.draw 0 source, .answer 0, .settle 0 []]

/-- A coin and a puzzle hash are subscribed to on one session, which then ends. -/
def unarmedEvents : List RearmEvent :=
  [.subscribeCoins [sampleId]] ++ callEvents (sampleEntry 1).source
    ++ [.finish 0, .subscribePuzzleHashes [sampleCoin.puzzleHash]]
    ++ callEvents (sampleEntry 1).source
    ++ [.finish 0, .releaseAnchor (sampleEntry 1).source]

/-- A reconnect then re-arms both on a second session. -/
def rearmedEvents : List RearmEvent :=
  unarmedEvents ++ [.reconnect [sampleId] [sampleCoin.puzzleHash]]
    ++ callEvents (sampleEntry 2).source ++ callEvents (sampleEntry 3).source
    ++ [.finish 0]

theorem quiet_signal_is_armed_sample
    : ∃ final, (rearming sampleCoinId).run rearmedEvents = some final
        ∧ final.rearmNeeded = false
        ∧ final.Armed := by
  have keeps : (rearming sampleCoinId).Meets KeepsSignal rearmedEvents := by
    decide +kernel
  have reached
      : ((rearming sampleCoinId).run rearmedEvents).any (fun final =>
          decide (final.rearmNeeded = false))
        = true := by
    decide +kernel
  obtain ⟨final, reached, quiet⟩ := (Option.any_eq_true _ _).mp reached
  exact ⟨final, reached, of_decide_eq_true quiet, quiet_signal_is_armed keeps reached⟩

/-- A reconnect whose second session ends between its two requests, so that the third session
is asked for the puzzle hash alone.
-/
def splitEvents : List RearmEvent :=
  unarmedEvents ++ [.reconnect [sampleId] [sampleCoin.puzzleHash]]
    ++ callEvents (sampleEntry 2).source
    ++ [.releaseAnchor (sampleEntry 2).source]
    ++ callEvents (sampleEntry 3).source
    ++ [.finish 0]

/-- That reconnect clears the signal, with the coin registered on no session that is pinned. -/
theorem quiet_signal_is_unarmed
    : ¬ ∀ (events : List RearmEvent) (final : RearmState),
        (rearming sampleCoinId).run events = some final
        → final.Armed := by
  intro claim
  have reached
      : ((rearming sampleCoinId).run splitEvents).any (fun final =>
          decide (final.rearmNeeded = false ∧ sampleId ∈ final.cache.subscribedCoins
            ∧ final.anchor = some (sampleEntry 3).source
            ∧ final.registeredOn (sampleEntry 3).source (.coin sampleId) = false))
        = true := by
    decide +kernel
  obtain ⟨final, reached, facts⟩ := (Option.any_eq_true _ _).mp reached
  obtain ⟨quiet, subscribed, pinned, unregistered⟩ := of_decide_eq_true facts
  obtain ⟨source, anchored, armed⟩ :=
    claim splitEvents final reached quiet ⟨.coin sampleId, subscribed⟩
  cases pinned.symm.trans anchored
  exact absurd ((armed (.coin sampleId) subscribed).symm.trans unregistered) (by decide)

end ChiaQuery.LightClient
