import ChiaQuery.LightClient.FrameEffects
import ChiaQuery.Library.GuardedRuns

/-! Subscribing, losing the anchor and re-arming. Each call to subscribe draws the anchor,
sends its request on it and records the subscription in steps of its own, and any task may
lose the anchor or pin another one between them. A reconnect makes up to two such calls and
then clears the re-arm signal.
-/

namespace ChiaQuery.LightClient

open ChiaQuery.Library

/-- What one subscribing request asks for. -/
inductive SubscriptionRequest where
  | coins (ids : List Bytes32)
  | puzzleHashes (hashes : List Bytes32)
  deriving DecidableEq, Repr

/-- One member of the subscription set. -/
inductive Subscription where
  | coin (id : Bytes32)
  | puzzleHash (hash : Bytes32)
  deriving DecidableEq, Repr

/-- The subscriptions a request arms. -/
def SubscriptionRequest.subscriptions : SubscriptionRequest → List Subscription
  | .coins ids => ids.map .coin
  | .puzzleHashes hashes => hashes.map .puzzleHash

/-- What `subscribe_coins` and `subscribe_puzzle_hashes` record once a request is answered. -/
def SubscriptionRequest.record (coinId : ProtocolCoin → Bytes32) (cache : CoinStateCache)
    (states : List CoinState)
    : SubscriptionRequest → CoinStateCache
  | .coins ids => (cache.trackCoins ids).seed coinId states
  | .puzzleHashes hashes => (cache.trackPuzzleHashes hashes).seed coinId states

/-- How far the request at hand has come. -/
inductive CallStage where
  | drawing
  | requesting (source : FrameSource)
  | answered (source : FrameSource)
  | discarding (address : SocketAddr)
  deriving DecidableEq, Repr

/-- A call in progress: the requests it still has to make, the one at hand first, and whether
it clears the signal in the end. `since` counts the anchors lost before it began.
-/
structure RearmTask where
  requests : List SubscriptionRequest
  stage : CallStage
  clears : Bool
  since : Nat
  deriving DecidableEq, Repr

/-- The subscriptions a call still has to arm. -/
def RearmTask.remaining (task : RearmTask) : List Subscription :=
  task.requests.flatMap SubscriptionRequest.subscriptions

/-- A light client. `registered` records which session has answered which request and
`losses` counts the anchors lost; `followed` is the frame that the drive loop has found to be
its anchor's and not yet applied.
-/
structure RearmState where
  anchor : Option FrameSource
  rearmNeeded : Bool
  cache : CoinStateCache
  registered : List (FrameSource × SubscriptionRequest)
  losses : Nat
  tasks : List RearmTask
  followed : Option SourcedFrame

namespace RearmState

/-- The subscription set holds `subscription`. -/
def Subscribed (state : RearmState) : Subscription → Prop
  | .coin id => id ∈ state.cache.subscribedCoins
  | .puzzleHash hash => hash ∈ state.cache.subscribedPuzzleHashes

/-- A request of `subscription` was answered on that very session. -/
def registeredOn (state : RearmState) (source : FrameSource) (subscription : Subscription)
    : Bool :=
  state.registered.any (fun entry =>
    entry.1 = source && subscription ∈ entry.2.subscriptions)

/-- A request of `subscription` was answered on the pinned session. -/
def armedFor (state : RearmState) (subscription : Subscription) : Bool :=
  state.anchor.any (fun source => state.registeredOn source subscription)

/-- The pinned session stays pinned and what it registered stays registered. -/
def Retains (state next : RearmState) : Prop :=
  (∀ source, state.anchor = some source → next.anchor = some source)
  ∧ ∀ source subscription,
      state.registeredOn source subscription = true
      → next.registeredOn source subscription = true

theorem Retains.armedFor {state next : RearmState} (h : state.Retains next)
    {subscription : Subscription} (armed : state.armedFor subscription = true)
    : next.armedFor subscription = true := by
  obtain ⟨source, pinned, registered⟩ := (Option.any_eq_true _ _).mp armed
  exact (Option.any_eq_true _ _).mpr
    ⟨source, h.1 source pinned, h.2 source subscription registered⟩

/-- While no re-arm is asked for, a subscription set that is not empty is armed as a whole on
the pinned session.
-/
def Armed (state : RearmState) : Prop :=
  state.rearmNeeded = false
  → (∃ subscription, state.Subscribed subscription)
  → ∃ source, state.anchor = some source
      ∧ ∀ subscription, state.Subscribed subscription
        → state.registeredOn source subscription = true

/-- The effect of a real unpin. -/
def loseAnchor (state : RearmState) : RearmState :=
  { state with anchor := none, rearmNeeded := true, losses := state.losses + 1 }

/-- `release_anchor`. -/
def releaseAnchor (state : RearmState) (source : FrameSource) : RearmState :=
  if state.anchor.any (fun anchor => anchor = source) then state.loseAnchor else state

/-- `release_anchor_at`. -/
def releaseAnchorAt (state : RearmState) (address : SocketAddr) : RearmState :=
  if state.anchor.any (fun anchor => anchor.address = address) then state.loseAnchor
  else state

/-- `anchor`, when the session it would pin is `source`. -/
def pin (state : RearmState) (source : FrameSource) : RearmState :=
  { state with anchor := some (state.anchor.getD source) }

/-- `clear_rearm`. -/
def clearRearm (state : RearmState) : RearmState :=
  { state with rearmNeeded := false }

/-- A call begins. -/
def spawn (state : RearmState) (requests : List SubscriptionRequest) (clears : Bool)
    : RearmState :=
  { state with
    tasks := state.tasks ++ [{ requests, stage := .drawing, clears, since := state.losses }] }

/-- A call moves on. -/
def advance (state : RearmState) (index : Nat) (task : RearmTask) : RearmState :=
  { state with tasks := state.tasks.set index task }

/-- A call ends. -/
def drop (state : RearmState) (index : Nat) : RearmState :=
  { state with tasks := state.tasks.eraseIdx index }

end RearmState

/-- `follows`. -/
def follows (anchor : Option FrameSource) (source : FrameSource) : Bool :=
  anchor.any (fun anchored => anchored = source)

/-- The steps of the calls in progress, by their index, and of everything beside them: other
reads that pin an anchor or fail, the drive loop's subscription ending, and its frames. The
sets a reconnect re-arms come in any order.
-/
inductive RearmEvent where
  | subscribeCoins (ids : List Bytes32)
  | subscribePuzzleHashes (hashes : List Bytes32)
  | reconnect (coins puzzleHashes : List Bytes32)
  | draw (index : Nat) (source : FrameSource)
  | answer (index : Nat)
  | settle (index : Nat) (states : List CoinState)
  | finish (index : Nat)
  | readFails (index : Nat)
  | discard (index : Nat)
  | abandon (index : Nat)
  | pin (source : FrameSource)
  | releaseAnchor (source : FrameSource)
  | releaseAnchorAt (address : SocketAddr)
  | receive (sourced : SourcedFrame)
  | applyFollowed
  deriving DecidableEq, Repr

variable (coinId : ProtocolCoin → Bytes32)

/-- One step of a light client: `subscribe_coins`, `subscribe_puzzle_hashes` and `reconnect`
up to each of their awaits, `discard`, and the drive loop.
-/
def rearmStep (state : RearmState) : RearmEvent → Option RearmState
  | .subscribeCoins ids => some (state.spawn [.coins ids] false)
  | .subscribePuzzleHashes hashes => some (state.spawn [.puzzleHashes hashes] false)
  | .reconnect coins puzzleHashes =>
      if coins.toFinset = state.cache.subscribedCoins
          ∧ puzzleHashes.toFinset = state.cache.subscribedPuzzleHashes then
        let coinRequests := if coins.isEmpty then [] else [SubscriptionRequest.coins coins]
        let hashRequests :=
          if puzzleHashes.isEmpty then [] else [SubscriptionRequest.puzzleHashes puzzleHashes]
        some (state.spawn (coinRequests ++ hashRequests) true)
      else none
  -- A pinned anchor is reused; only without one is `source` picked and pinned.
  | .draw index source =>
      match state.tasks[index]? with
      | some { requests := request :: rest, stage := .drawing, clears, since } =>
          some ((state.pin source).advance index {
            requests := request :: rest,
            stage := .requesting (state.anchor.getD source),
            clears,
            since })
      | _ => none
  | .answer index =>
      match state.tasks[index]? with
      | some { requests := request :: rest, stage := .requesting source, clears, since } =>
          let task := { requests := request :: rest, stage := .answered source, clears, since }
          some { state.advance index task with
            registered := (source, request) :: state.registered }
      | _ => none
  -- The cache lock is taken once, to track and to seed; the next request draws again.
  | .settle index states =>
      match state.tasks[index]? with
      | some { requests := request :: rest, stage := .answered _, clears, since } =>
          let task := { requests := rest, stage := .drawing, clears, since }
          some { state.advance index task with
            cache := request.record coinId state.cache states }
      | _ => none
  -- `reconnect` clears the signal whatever became of the anchor meanwhile.
  | .finish index =>
      match state.tasks[index]? with
      | some { requests := [], clears := true, .. } =>
          some (state.clearRearm.drop index)
      | some { requests := [], clears := false, .. } => some (state.drop index)
      | _ => none
  | .readFails index =>
      match state.tasks[index]? with
      | some { requests, stage := .requesting source, clears, since } =>
          some (state.advance index
            { requests, stage := .discarding source.address, clears, since })
      | _ => none
  -- The request failed on this address: the peer is ejected and the call returns its error.
  | .discard index =>
      match state.tasks[index]? with
      | some { stage := .discarding address, .. } =>
          some ((state.releaseAnchorAt address).drop index)
      | _ => none
  | .abandon index => some (state.drop index)
  | .pin source => some (state.pin source)
  | .releaseAnchor source => some (state.releaseAnchor source)
  | .releaseAnchorAt address => some (state.releaseAnchorAt address)
  -- A frame of a session other than the anchor's is passed over.
  | .receive sourced =>
      match state.followed with
      | some _ => none
      | none =>
          if follows state.anchor sourced.source then
            some { state with followed := some sourced }
          else some state
  | .applyFollowed =>
      match state.followed with
      | none => none
      | some sourced =>
          let (cache, after) := state.cache.applyFrame coinId sourced.frame
          let applied := { state with cache, followed := none }
          match after with
          | .continue => some applied
          | .resubscribe => some (applied.releaseAnchor sourced.source)

/-- A light client with no anchor and no subscription. -/
def rearming : Machine RearmState RearmEvent where
  initial := {
    anchor := none,
    rearmNeeded := false,
    cache := .empty,
    registered := [],
    losses := 0,
    tasks := [],
    followed := none
  }
  step := rearmStep coinId

/-- A subscription is recorded when it was registered on the pinned session, or while a re-arm
is asked for that every reconnect under way which lost no anchor still covers; and a
reconnect that clears the signal has lost no anchor since it began.
-/
def KeepsSignal (state : RearmState) (event : RearmEvent) : Prop :=
  match event with
  | .settle index _ =>
      ∀ task ∈ state.tasks[index]?, ∀ request ∈ task.requests.head?,
        ∀ subscription ∈ request.subscriptions,
          state.armedFor subscription = true
          ∨ state.rearmNeeded = true
            ∧ ∀ other ∈ state.tasks, other.clears = true → other.since = state.losses
              → subscription ∈ other.remaining
  | .finish index =>
      ∀ task ∈ state.tasks[index]?, task.clears = true → task.since = state.losses
  | _ => True

instance (state : RearmState) (event : RearmEvent) : Decidable (KeepsSignal state event) := by
  cases event <;> unfold KeepsSignal <;> infer_instance

end ChiaQuery.LightClient
