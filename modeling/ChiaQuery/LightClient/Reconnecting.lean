import ChiaQuery.LightClient.CacheHistory
import ChiaQuery.Library.PutBack

/-! A reconnect beside calls that change the subscription set. It copies the set, makes its
requests one after the other and tracks what each asked for once it is answered; coins may be
unsubscribed or reported as spent between the copy and the tracking.
-/

namespace ChiaQuery

open ChiaQuery.Library

/-- The coins that are no longer tracked once a frame is applied: those it reports as spent. -/
def PoolFrame.untracked (coinId : ProtocolCoin → Bytes32) : PoolFrame → Finset Bytes32
  | .coinStates _ _ _ items =>
      ((items.filter (fun state => state.spentHeight.isSome)).map
        (fun state => coinId state.coin)).toFinset
  | _ => ∅

namespace LightClient

/-- The coins a request subscribes to by id. -/
def SubscriptionRequest.coinIds : SubscriptionRequest → Finset Bytes32
  | .coins ids => ids.toFinset
  | .puzzleHashes _ => ∅

/-- A `reconnect` in progress: the requests it still has to make, and the coins that were
unsubscribed or spent since it began and that no caller has subscribed to since.
-/
structure ReconnectCall where
  requests : List SubscriptionRequest
  lapsed : Finset Bytes32

/-- The copy of the subscription set that a call holds. -/
def ReconnectCall.copy (call : ReconnectCall) : HeldCopy Bytes32 where
  pending := call.requests.foldr (fun request coins => request.coinIds ∪ coins) ∅
  lapsed := call.lapsed

/-- A cache and the reconnects in progress. `resurrected` records the coins that a reconnect
left in the set when it finished or failed, though they had lapsed while it was in progress.
-/
structure ReconnectState where
  cache : CoinStateCache
  calls : List ReconnectCall
  resurrected : Finset Bytes32

/-- A caller's subscription is recorded, an `unsubscribe_coins` completes, a frame is applied;
a reconnect begins with a copy of the set in any order, tracks and seeds the answer to its
next request, fails at one, or finishes.
-/
inductive ReconnectEvent where
  | subscribe (request : SubscriptionRequest) (states : List CoinState)
  | unsubscribeCoins (ids : List Bytes32)
  | frame (frame : PoolFrame)
  | reconnect (coins puzzleHashes : List Bytes32)
  | settle (index : Nat) (states : List CoinState)
  | fail (index : Nat)
  | finish (index : Nat)
  deriving DecidableEq, Repr

namespace ReconnectCall

/-- A caller subscribed to these coins. -/
def readded (call : ReconnectCall) (coins : Finset Bytes32) : ReconnectCall :=
  { call with lapsed := call.lapsed \ coins }

/-- These coins were unsubscribed or spent. -/
def missing (call : ReconnectCall) (coins : Finset Bytes32) : ReconnectCall :=
  { call with lapsed := call.lapsed ∪ coins }

end ReconnectCall

/-- A reconnect ends, whether it succeeds or not. -/
def ReconnectState.ends (state : ReconnectState) (index : Nat) (lapsed : Finset Bytes32)
    : ReconnectState :=
  { state with
    calls := state.calls.eraseIdx index,
    resurrected := state.resurrected ∪ lapsed ∩ state.cache.subscribedCoins }

variable (coinId : ProtocolCoin → Bytes32)

/-- One step of the subscription set and the reconnects beside it. -/
def reconnectStep (state : ReconnectState) : ReconnectEvent → Option ReconnectState
  | .subscribe request states =>
      some { state with
        cache := request.record coinId state.cache states,
        calls := state.calls.map (fun call => call.readded request.coinIds) }
  | .unsubscribeCoins ids =>
      some { state with
        cache := state.cache.untrackCoins ids,
        calls := state.calls.map (fun call => call.missing ids.toFinset) }
  | .frame frame =>
      some { state with
        cache := (state.cache.applyFrame coinId frame).1,
        calls := state.calls.map (fun call => call.missing (frame.untracked coinId)) }
  | .reconnect coins puzzleHashes =>
      if coins.toFinset = state.cache.subscribedCoins
          ∧ puzzleHashes.toFinset = state.cache.subscribedPuzzleHashes then
        let coinRequests := if coins.isEmpty then [] else [SubscriptionRequest.coins coins]
        let hashRequests :=
          if puzzleHashes.isEmpty then [] else [SubscriptionRequest.puzzleHashes puzzleHashes]
        some { state with
          calls := state.calls ++ [{ requests := coinRequests ++ hashRequests, lapsed := ∅ }] }
      else none
  -- What is tracked is the copy, whatever became of the set since it was taken.
  | .settle index states =>
      match state.calls[index]? with
      | some { requests := request :: rest, lapsed } =>
          some { state with
            cache := request.record coinId state.cache states,
            calls := state.calls.set index { requests := rest, lapsed } }
      | _ => none
  | .fail index =>
      match state.calls[index]? with
      | some { lapsed, .. } => some (state.ends index lapsed)
      | none => none
  | .finish index =>
      match state.calls[index]? with
      | some { requests := [], lapsed } => some (state.ends index lapsed)
      | _ => none

/-- A new cache and no reconnect. -/
def reconnecting : Machine ReconnectState ReconnectEvent where
  initial := { cache := .empty, calls := [], resurrected := ∅ }
  step := reconnectStep coinId

/-- When a reconnect tracks the coins of its copy, none of them has been unsubscribed or spent
since the copy was taken, unless a caller subscribed to it again.
-/
def KeepsRemovals (state : ReconnectState) : ReconnectEvent → Prop
  | .settle index _ =>
      ∀ call ∈ state.calls[index]?, ∀ request ∈ call.requests.head?,
        request.coinIds ∩ call.lapsed = ∅
  | _ => True

instance (state : ReconnectState) (event : ReconnectEvent)
    : Decidable (KeepsRemovals state event) :=
  match event with
  | .settle index _ => inferInstanceAs (Decidable (∀ call ∈ state.calls[index]?, _))
  | .subscribe _ _ => isTrue trivial
  | .unsubscribeCoins _ => isTrue trivial
  | .frame _ => isTrue trivial
  | .reconnect _ _ => isTrue trivial
  | .fail _ => isTrue trivial
  | .finish _ => isTrue trivial

variable {coinId} {cache : CoinStateCache}

------------------------------------------------------------------------------------------
-- What each operation does to the subscribed coins
------------------------------------------------------------------------------------------

theorem SubscriptionRequest.record_subscribedCoins (request : SubscriptionRequest)
    (states : List CoinState)
    : (request.record coinId cache states).subscribedCoins
      = cache.subscribedCoins ∪ request.coinIds := by
  rw [request.record_eq_seed, CoinStateCache.seed_subscribedCoins]
  cases request with
  | coins ids => rfl
  | puzzleHashes hashes => exact (Finset.union_empty _).symm

theorem CoinStateCache.applyFrame_subscribedCoins (frame : PoolFrame)
    : (cache.applyFrame coinId frame).1.subscribedCoins
      = cache.subscribedCoins \ frame.untracked coinId := by
  cases frame with
  | reset | sessionEnded _ => exact Finset.sdiff_empty.symm
  | peak height headerHash =>
      exact updatePeak_subscribedCoins.trans Finset.sdiff_empty.symm
  | coinStates height forkHeight peakHash items =>
      exact congrArg (· \ PoolFrame.untracked coinId (.coinStates height forkHeight peakHash items))
        applyUpdate_subscribedCoins

------------------------------------------------------------------------------------------
-- A reconnect that keeps removals brings back no coin
------------------------------------------------------------------------------------------

/-- Nothing that lapsed for a reconnect in progress is in the set, and none that ended
left such a coin in it.
-/
structure ReconnectInvariant (state : ReconnectState) : Prop where
  held : NothingReturned state.cache.subscribedCoins (state.calls.map ReconnectCall.copy)
  resurrected : state.resurrected = ∅

theorem ReconnectCall.pending_cons (request : SubscriptionRequest)
    (rest : List SubscriptionRequest) (lapsed : Finset Bytes32)
    : (ReconnectCall.mk (request :: rest) lapsed).copy.pending
      = request.coinIds ∪ (ReconnectCall.mk rest lapsed).copy.pending :=
  rfl

theorem ReconnectCall.copies_readded (calls : List ReconnectCall) (coins : Finset Bytes32)
    : (calls.map (fun call => call.readded coins)).map copy
      = (calls.map copy).map (fun copy => copy.readded coins) := by
  rw [List.map_map, List.map_map]
  rfl

theorem ReconnectCall.copies_missing (calls : List ReconnectCall) (coins : Finset Bytes32)
    : (calls.map (fun call => call.missing coins)).map copy
      = (calls.map copy).map (fun copy => copy.missing coins) := by
  rw [List.map_map, List.map_map]
  rfl

/-- What a new reconnect is about to ask for is what it copied from the set. -/
theorem ReconnectCall.pending_of_copied (coins puzzleHashes : List Bytes32)
    : (ReconnectCall.mk
        ((if coins.isEmpty then [] else [SubscriptionRequest.coins coins])
          ++ if puzzleHashes.isEmpty then []
            else [SubscriptionRequest.puzzleHashes puzzleHashes]) ∅).copy.pending
      = coins.toFinset := by
  cases coins <;> cases puzzleHashes <;> simp [copy, SubscriptionRequest.coinIds]

namespace ReconnectInvariant

variable {state next : ReconnectState}

theorem subscribe (h : ReconnectInvariant state) (request : SubscriptionRequest)
    (states : List CoinState)
    : ReconnectInvariant
        { state with
          cache := request.record coinId state.cache states,
          calls := state.calls.map (fun call => call.readded request.coinIds) } where
  held := by
    rw [request.record_subscribedCoins, ReconnectCall.copies_readded]
    exact h.held.add
  resurrected := h.resurrected

/-- An operation that takes coins out of the set. -/
theorem untrack (h : ReconnectInvariant state) {after : CoinStateCache} {gone : Finset Bytes32}
    (removed : after.subscribedCoins = state.cache.subscribedCoins \ gone)
    : ReconnectInvariant
        { state with
          cache := after,
          calls := state.calls.map (fun call => call.missing gone) } where
  held := by
    rw [removed, ReconnectCall.copies_missing]
    exact h.held.remove
  resurrected := h.resurrected

/-- The request at hand is tracked, and none of its coins has lapsed. -/
theorem settle (h : ReconnectInvariant state) {index : Nat} {request : SubscriptionRequest}
    {rest : List SubscriptionRequest} {lapsed : Finset Bytes32} (states : List CoinState)
    (found : state.calls[index]? = some { requests := request :: rest, lapsed })
    (kept : request.coinIds ∩ lapsed = ∅)
    : ReconnectInvariant
        { state with
          cache := request.record coinId state.cache states,
          calls := state.calls.set index { requests := rest, lapsed } } where
  held := by
    rw [request.record_subscribedCoins, List.map_set]
    have copied : (state.calls.map ReconnectCall.copy)[index]?
        = some (ReconnectCall.mk (request :: rest) lapsed).copy := by
      rw [List.getElem?_map, found]
      rfl
    refine h.held.putBack copied ?_ ?_ (fun id asked gone => ?_)
    · rw [ReconnectCall.pending_cons]
      exact Finset.subset_union_left
    · rw [ReconnectCall.pending_cons]
      exact Finset.subset_union_right
    · have both : id ∈ request.coinIds ∩ lapsed := Finset.mem_inter.mpr ⟨asked, gone⟩
      rw [kept] at both
      exact Finset.notMem_empty id both
  resurrected := h.resurrected

/-- A reconnect that ends leaves no lapsed coin in the set. -/
theorem ends (h : ReconnectInvariant state) {index : Nat} {requests : List SubscriptionRequest}
    {lapsed : Finset Bytes32} (found : state.calls[index]? = some { requests, lapsed })
    : ReconnectInvariant (state.ends index lapsed) where
  held := by
    refine h.held.subset (fun copy member => ?_)
    obtain ⟨call, left, rfl⟩ := List.mem_map.mp member
    exact List.mem_map_of_mem (List.mem_of_mem_eraseIdx left)
  resurrected := by
    have member := List.mem_map_of_mem (f := ReconnectCall.copy) (List.mem_of_getElem? found)
    have apart : Disjoint lapsed state.cache.subscribedCoins :=
      Finset.disjoint_left.mpr (h.held.apart _ member)
    rw [ReconnectState.ends, h.resurrected, Finset.disjoint_iff_inter_eq_empty.mp apart,
      Finset.union_empty]

theorem step (h : ReconnectInvariant state) {event : ReconnectEvent}
    (keeps : KeepsRemovals state event)
    (stepped : reconnectStep coinId state event = some next)
    : ReconnectInvariant next := by
  cases event with
  | subscribe request states =>
      cases stepped
      exact h.subscribe request states
  | unsubscribeCoins ids =>
      cases stepped
      exact h.untrack rfl
  | frame frame =>
      cases stepped
      exact h.untrack (CoinStateCache.applyFrame_subscribedCoins frame)
  | reconnect coins puzzleHashes =>
      simp only [reconnectStep] at stepped
      split at stepped
      · rename_i copied
        cases stepped
        refine ⟨?_, h.resurrected⟩
        rw [List.map_append]
        have pending := ReconnectCall.pending_of_copied coins puzzleHashes
        exact h.held.take (Finset.Subset.antisymm_iff.mp (pending.trans copied.1)).1
      · cases stepped
  | settle index states =>
      simp only [reconnectStep] at stepped
      split at stepped
      · rename_i request rest lapsed found
        cases stepped
        exact h.settle states found (keeps _ found request rfl)
      · cases stepped
  | fail index | finish index =>
      simp only [reconnectStep] at stepped
      split at stepped
      · rename_i found
        cases stepped
        exact h.ends found
      · cases stepped

end ReconnectInvariant

theorem reconnectInvariant_initial (coinId : ProtocolCoin → Bytes32)
    : ReconnectInvariant (reconnecting coinId).initial where
  held := NothingReturned.none _
  resurrected := rfl

/-- In every run in which a reconnect tracks no coin that lapsed since it copied the set, no
coin that lapsed while a reconnect was in progress is in the set when that one ends.
-/
theorem reconnect_resurrects_nothing {events : List ReconnectEvent} {final : ReconnectState}
    (keeps : (reconnecting coinId).Meets KeepsRemovals events)
    (reached : (reconnecting coinId).run events = some final)
    : final.resurrected = ∅ :=
  (Machine.run_invariant (reconnectInvariant_initial coinId)
    (fun h guarded stepped => h.step guarded stepped) keeps reached).resurrected

/-- A coin is unsubscribed after a reconnect has tracked it, and again while another reconnect
is in progress that finds it subscribed anew when it tracks its copy.
-/
def keptRemovalEvents : List ReconnectEvent :=
  [.subscribe (.coins [sampleId, 7]) [], .reconnect [7, sampleId] [], .settle 0 [],
    .unsubscribeCoins [7], .finish 0, .subscribe (.coins [7]) [],
    .reconnect [sampleId, 7] [], .unsubscribeCoins [7], .subscribe (.coins [7]) [],
    .settle 0 [], .finish 0]

theorem reconnect_resurrects_nothing_sample
    : ∃ final, (reconnecting sampleCoinId).run keptRemovalEvents = some final
        ∧ final.cache.subscribedCoins = {sampleId, 7}
        ∧ final.resurrected = ∅ := by
  have keeps : (reconnecting sampleCoinId).Meets KeepsRemovals keptRemovalEvents := by
    decide +kernel
  have reached
      : ((reconnecting sampleCoinId).run keptRemovalEvents).any (fun final =>
          decide (final.cache.subscribedCoins = {sampleId, 7}))
        = true := by
    decide +kernel
  obtain ⟨final, reached, subscribed⟩ := (Option.any_eq_true _ _).mp reached
  exact ⟨final, reached, of_decide_eq_true subscribed,
    reconnect_resurrects_nothing keeps reached⟩

/-- A coin is unsubscribed after a reconnect has copied the set and before it tracks the copy. -/
def lostRemovalEvents : List ReconnectEvent :=
  [.subscribe (.coins [sampleId]) [], .reconnect [sampleId] [],
    .unsubscribeCoins [sampleId], .settle 0 [], .finish 0]

/-- In that run the coin is subscribed to again, though no caller asked for it. -/
theorem reconnect_resurrects_subscription
    : ¬ ∀ (events : List ReconnectEvent) (final : ReconnectState),
        (reconnecting sampleCoinId).run events = some final
        → final.resurrected = ∅ := by
  intro claim
  have reached
      : ((reconnecting sampleCoinId).run lostRemovalEvents).any (fun final =>
          decide (final.resurrected = {sampleId}))
        = true := by
    decide +kernel
  obtain ⟨final, reached, resurrected⟩ := (Option.any_eq_true _ _).mp reached
  have returned := of_decide_eq_true resurrected
  rw [claim lostRemovalEvents final reached] at returned
  exact absurd returned (Finset.singleton_ne_empty sampleId).symm

end LightClient

end ChiaQuery
