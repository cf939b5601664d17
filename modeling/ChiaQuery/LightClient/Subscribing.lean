import ChiaQuery.LightClient.FrameEffects
import ChiaQuery.Library.GuardedRuns
import ChiaQuery.Library.InFlight

/-! Subscribing to coins while the drive loop applies the frames of the same session. A
response is tracked and seeded on the caller's task, a frame is applied on the drive loop's,
so frames the server sent after a response may be applied before it lands.
-/

namespace ChiaQuery

open Std ChiaQuery.Library

namespace LightClient

/-- What the serving node knows, and which coins it sends changes of. -/
structure Server where
  states : CoinStates
  height : UInt32
  registered : Finset Bytes32

/-- A response the server has sent and the caller has not yet tracked and seeded. `before`
counts the frames sent before it that are still queued, `overtaken` are the frames sent after
it that have been applied.
-/
structure PendingResponse where
  coinIds : List Bytes32
  states : List CoinState
  before : Nat
  overtaken : List PoolFrame

/-- One session between the server and a client. `sent` records the newest state the server
has sent of each coin.
-/
structure SubscribeState where
  server : Server
  sent : CoinStates
  queue : List PoolFrame
  pending : List PendingResponse
  cache : CoinStateCache

/-- The server answers a registration, its chain advances or reorganises, it announces its
peak; the drive loop applies the next frame; a caller tracks and seeds a response.
-/
inductive SubscribeEvent where
  | register (coinIds : List Bytes32)
  | advance (changes : List CoinState) (height forkHeight : UInt32) (peakHash : Bytes32)
  | announcePeak (headerHash : Bytes32)
  | apply
  | finish (index : Nat)
  deriving DecidableEq, Repr

/-- The states the server answers a registration with. -/
def Server.answer (server : Server) (coinIds : List Bytes32) : List CoinState :=
  coinIds.filterMap (fun id => server.states[id]?)

/-- One more frame was applied before this response landed. -/
def PendingResponse.passedBy (response : PendingResponse) (frame : PoolFrame)
    : PendingResponse :=
  match response.before with
  | 0 => { response with overtaken := response.overtaken ++ [frame] }
  | before + 1 => { response with before }

/-- `subscribe_coins`, once the response is there. -/
def CoinStateCache.finishSubscribe (coinId : ProtocolCoin → Bytes32) (cache : CoinStateCache)
    (response : PendingResponse)
    : CoinStateCache :=
  (cache.trackCoins response.coinIds).seed coinId response.states

variable (coinId : ProtocolCoin → Bytes32)

/-- What a node may report as its new chain: the changed states were created by the new
height, and whatever is not among them sits at or below the fork.
-/
def Server.extends (server : Server) (changes : List CoinState) (height forkHeight : UInt32)
    : Bool :=
  forkHeight ≤ height
  && changes.all (fun state => state.createdBy height)
  && server.states.toList.all (fun entry =>
    changes.any (fun state => coinId state.coin = entry.1)
    || entry.2.createdBy forkHeight && entry.2.spentBy forkHeight)

/-- The changes the client is told of. -/
def Server.registeredChanges (server : Server) (changes : List CoinState) : List CoinState :=
  changes.filter (fun changed => coinId changed.coin ∈ server.registered)

/-- The update that tells of them, unless there are none. -/
def Server.updates (server : Server) (changes : List CoinState) (height forkHeight : UInt32)
    (peakHash : Bytes32)
    : List PoolFrame :=
  let items := server.registeredChanges coinId changes
  if items.isEmpty then [] else [.coinStates height forkHeight peakHash items]

/-- One step of the session. -/
def subscribeStep (state : SubscribeState) : SubscribeEvent → Option SubscribeState
  | .register coinIds =>
      let states := state.server.answer coinIds
      some { state with
        server :=
          { state.server with registered := state.server.registered ∪ coinIds.toFinset },
        sent := recordStates coinId state.sent states,
        pending := state.pending
          ++ [{ coinIds, states, before := state.queue.length, overtaken := [] }] }
  | .advance changes height forkHeight peakHash =>
      if !state.server.extends coinId changes height forkHeight then none
      else
        some { state with
          server := { state.server with
            states := recordStates coinId state.server.states changes,
            height },
          sent :=
            recordStates coinId state.sent (state.server.registeredChanges coinId changes),
          queue :=
            state.queue ++ state.server.updates coinId changes height forkHeight peakHash }
  | .announcePeak headerHash =>
      some { state with queue := state.queue ++ [.peak state.server.height headerHash] }
  | .apply =>
      match state.queue with
      | [] => none
      | frame :: rest =>
          some { state with
            queue := rest,
            pending := state.pending.map (fun response => response.passedBy frame),
            cache := (state.cache.applyFrame coinId frame).1 }
  | .finish index =>
      match state.pending[index]? with
      | none => none
      | some response =>
          some { state with
            pending := state.pending.eraseIdx index,
            cache := state.cache.finishSubscribe coinId response }

/-- A session that opens with its reset frame, on a node that knows no coin yet. -/
def subscribing : Machine SubscribeState SubscribeEvent where
  initial := {
    server := { states := ∅, height := 0, registered := ∅ },
    sent := ∅,
    queue := [.reset],
    pending := [],
    cache := .empty
  }
  step := subscribeStep coinId

/-- Every response has been tracked and seeded and every frame has been applied. -/
def SubscribeState.Settled (state : SubscribeState) : Prop :=
  state.pending = [] ∧ state.queue = []

/-- The cached state of every subscribed coin is the newest one the server sent. -/
def SubscribeState.Current (state : SubscribeState) : Prop :=
  ∀ id ∈ state.cache.subscribedCoins, state.cache.get id = state.sent[id]?

/-- A coin of a response that lands now ends up current: a queued frame mentions it; or no
frame that overtook the response did, and the response's state, if it has one, is admitted by
the peak and spared by the frames queued from before.
-/
def PendingResponse.Lands (state : SubscribeState) (response : PendingResponse) (id : Bytes32)
    : Prop :=
  Overridden (fun frame => frame.newest coinId id) state.queue
  ∨ ¬ Overridden (fun frame => frame.newest coinId id) response.overtaken
    ∧ ∀ answered ∈ newestState coinId response.states id,
        state.cache.Admits answered
        ∧ ∀ frame ∈ state.queue.take response.before,
            frame.Spares state.cache.peak.isSome (some answered)

/-- A frame is applied to a cache with room for it, and a response lands in a cache with room
for it and in time for each of its coins.
-/
def InTime (state : SubscribeState) (event : SubscribeEvent) : Prop :=
  match event with
  | .apply => ∀ frame ∈ state.queue.head?, frame.Fits coinId state.cache
  | .finish index =>
      ∀ response ∈ state.pending[index]?,
        (state.cache.trackCoins response.coinIds).HasRoom coinId response.states
        ∧ ∀ id ∈ response.coinIds, response.Lands coinId state id
  | _ => True

instance (state : SubscribeState) (response : PendingResponse) (id : Bytes32)
    : Decidable (response.Lands coinId state id) :=
  inferInstanceAs (Decidable (_ ∨ _))

-- Tested coin by coin: the instance for all bit vectors would enumerate every id.
instance (state : SubscribeState) (response : PendingResponse)
    : Decidable (∀ id ∈ response.coinIds, response.Lands coinId state id) :=
  List.decidableBAll _ _

instance (state : SubscribeState) (event : SubscribeEvent)
    : Decidable (InTime coinId state event) :=
  match event with
  | .register _ => isTrue trivial
  | .advance _ _ _ _ => isTrue trivial
  | .announcePeak _ => isTrue trivial
  | .apply => inferInstanceAs (Decidable (∀ frame ∈ state.queue.head?, _))
  | .finish index => inferInstanceAs (Decidable (∀ response ∈ state.pending[index]?, _))

end LightClient

end ChiaQuery
