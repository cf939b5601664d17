import ChiaQuery.LightClient.Rearming

/-! The drive loop beside the tasks that pin and release its anchor. Pinning sends the
subscription it opens and only then fills the slot; the loop takes subscriptions and frames,
checks each frame against the slot and writes to the cache under another lock. The loop holds
a sender of its own channel, so that channel never closes.
-/

namespace ChiaQuery

open ChiaQuery.Library

/-- The peak a frame announces. -/
def PoolFrame.peak? : PoolFrame → Option (UInt32 × Bytes32)
  | .peak height headerHash => some (height, headerHash)
  | .coinStates height _ peakHash _ => some (height, peakHash)
  | _ => none

namespace LightClient

/-- `FrameSubscription`: the session it is open on, numbered by the pinning that opened it. -/
structure FrameSubscription where
  opening : Nat
  source : FrameSource
  deriving DecidableEq, Repr

/-- How far the loop has come in its turn. A `polled` loop has found no subscription waiting
and reads the followed one next; `ended` tells the end of a subscription from a frame that
says its session ended.
-/
inductive DriveTurn where
  | select
  | polled
  | received (sourced : SourcedFrame)
  | following (sourced : SourcedFrame)
  | releasing (source : FrameSource) (ended : Bool)
  deriving DecidableEq, Repr

/-- A frame that was applied to the cache, and the session pinned at that moment. -/
structure AppliedFrame where
  sourced : SourcedFrame
  anchor : Option FrameSource
  deriving DecidableEq, Repr

/-- A light client and its drive loop. `pinning` is the subscription of a call to `anchor`
that holds the slot's lock and has sent it; `anchor` is the one opened for the pinned session.
`applied` records what was applied, latest first, and `spoken` whether the pinned session has
announced a peak since it was pinned.
-/
structure DriveState where
  anchor : Option FrameSubscription
  pinning : Option FrameSubscription
  openings : Nat
  subscriptions : List FrameSubscription
  followed : Option FrameSubscription
  turn : DriveTurn
  cache : CoinStateCache
  applied : List AppliedFrame
  spoken : Bool

/-- The steps of the drive loop, of the one call to `anchor` that finds the slot empty, of
failed reads, and of the calls that record a subscription or drop one.
-/
inductive DriveEvent where
  | subscribe (source : FrameSource)
  | pin
  | releaseAnchorAt (address : SocketAddr)
  | adopt
  | poll
  | wait
  | receive (sourced : Option SourcedFrame)
  | check
  | apply
  | release
  | record (request : SubscriptionRequest) (states : List CoinState)
  | untrackCoins (ids : List Bytes32)
  deriving DecidableEq, Repr

/-- The steps the loop itself takes. -/
def DriveEvent.ofLoop : DriveEvent → Bool
  | .adopt | .poll | .wait | .receive _ | .check | .apply | .release => true
  | _ => false

namespace DriveState

/-- `anchor_source`. -/
def anchorSource (state : DriveState) : Option FrameSource :=
  state.anchor.map FrameSubscription.source

/-- `release_anchor`, without the signal it raises. -/
def releaseAnchor (state : DriveState) (source : FrameSource) : DriveState :=
  { state with anchor := state.anchor.filter (fun anchor => anchor.source ≠ source) }

/-- `release_anchor_at`, without the signal it raises. -/
def releaseAnchorAt (state : DriveState) (address : SocketAddr) : DriveState :=
  { state with anchor := state.anchor.filter (fun anchor => anchor.source.address ≠ address) }

end DriveState

variable (coinId : ProtocolCoin → Bytes32)

/-- One step of `spawn_drive_loop`, or of a task beside it. Whatever reads or writes the slot
waits while a call to `anchor` holds its lock.
-/
def driveStep (state : DriveState) : DriveEvent → Option DriveState
  | .subscribe source =>
      match state.pinning, state.anchor with
      | none, none =>
          let opened := { opening := state.openings, source }
          some { state with
            pinning := some opened,
            openings := state.openings + 1,
            subscriptions := state.subscriptions ++ [opened] }
      -- A pinned session is reused, and a second call waits for the lock.
      | _, _ => none
  | .pin =>
      match state.pinning with
      | some opened =>
          some { state with pinning := none, anchor := some opened, spoken := false }
      | none => none
  | .releaseAnchorAt address =>
      match state.pinning with
      | none => some (state.releaseAnchorAt address)
      | some _ => none
  -- The oldest subscription sent is the next one followed; the one it supersedes is dropped.
  | .adopt =>
      match state.turn, state.subscriptions with
      | .select, next :: rest =>
          some { state with followed := some next, subscriptions := rest }
      | _, _ => none
  -- The wait is biased: frames are read only after the channel was found empty.
  | .poll =>
      match state.turn, state.subscriptions, state.followed with
      | .select, [], some _ => some { state with turn := .polled }
      | _, _, _ => none
  | .wait =>
      match state.turn with
      | .polled => some { state with turn := .select }
      | _ => none
  | .receive sourced =>
      match state.turn, state.followed, sourced with
      | .polled, some _, some sourced => some { state with turn := .received sourced }
      | .polled, some subscription, none =>
          some { state with turn := .releasing subscription.source true }
      | _, _, _ => none
  | .check =>
      match state.turn, state.pinning with
      | .received sourced, none =>
          if follows state.anchorSource sourced.source then
            some { state with turn := .following sourced }
          else some { state with turn := .select }
      | _, _ => none
  -- The cache's lock is not the slot's, so the anchor may have changed since the check.
  | .apply =>
      match state.turn, state.followed with
      | .following sourced, some subscription =>
          let (cache, after) := state.cache.applyFrame coinId sourced.frame
          let turn := match after with
            | .continue => .select
            | .resubscribe => .releasing subscription.source false
          some { state with
            turn,
            cache,
            applied := { sourced, anchor := state.anchorSource } :: state.applied,
            spoken := state.spoken
              || sourced.frame.peak?.isSome && follows state.anchorSource sourced.source }
      | _, _ => none
  | .release =>
      match state.turn, state.pinning with
      | .releasing source ended, none =>
          some { state.releaseAnchor source with
            turn := .select,
            followed := if ended then none else state.followed }
      | _, _ => none
  | .record request states =>
      some { state with cache := request.record coinId state.cache states }
  | .untrackCoins ids => some { state with cache := state.cache.untrackCoins ids }

/-- A light client that has pinned nothing. -/
def driving : Machine DriveState DriveEvent where
  initial := {
    anchor := none,
    pinning := none,
    openings := 0,
    subscriptions := [],
    followed := none,
    turn := .select,
    cache := .empty,
    applied := [],
    spoken := false
  }
  step := driveStep coinId

------------------------------------------------------------------------------------------
-- What a step can do to the anchor, the turn and the cache
------------------------------------------------------------------------------------------

section Steps

variable {coinId : ProtocolCoin → Bytes32} {state next : DriveState} {event : DriveEvent}

theorem follows_iff {anchor : Option FrameSource} {source : FrameSource}
    : follows anchor source = true ↔ anchor = some source := by
  simp [follows, Option.any_eq_true]

/-- Where the loop goes from a frame it has applied. -/
def AfterFrame.turn (source : FrameSource) : AfterFrame → DriveTurn
  | .continue => .select
  | .resubscribe => .releasing source false

theorem AfterFrame.turn_ne_following (after : AfterFrame) (source : FrameSource)
    (sourced : SourcedFrame)
    : after.turn source ≠ .following sourced := by
  cases after <;> simp [turn]

theorem AfterFrame.source_eq_of_turn {after : AfterFrame} {source named : FrameSource}
    {ended : Bool} (releasing : after.turn source = .releasing named ended)
    : source = named := by
  cases after <;> simp [turn] at releasing
  exact releasing.1

/-- What each step finds and leaves. Every fact about a step is read off here. -/
inductive DriveSteps (coinId : ProtocolCoin → Bytes32) (state : DriveState)
    : DriveEvent → DriveState → Prop
  | subscribe {source} (unlocked : state.pinning = none) (unpinned : state.anchor = none)
    : DriveSteps coinId state (.subscribe source)
        { state with
          pinning := some { opening := state.openings, source },
          openings := state.openings + 1,
          subscriptions := state.subscriptions ++ [{ opening := state.openings, source }] }
  | pin {opened} (locked : state.pinning = some opened)
    : DriveSteps coinId state .pin
        { state with pinning := none, anchor := some opened, spoken := false }
  | releaseAnchorAt {address} (unlocked : state.pinning = none)
    : DriveSteps coinId state (.releaseAnchorAt address) (state.releaseAnchorAt address)
  | adopt {first rest} (idle : state.turn = .select)
    (waiting : state.subscriptions = first :: rest)
    : DriveSteps coinId state .adopt
        { state with followed := some first, subscriptions := rest }
  | poll {subscription} (idle : state.turn = .select) (empty : state.subscriptions = [])
    (followed : state.followed = some subscription)
    : DriveSteps coinId state .poll { state with turn := .polled }
  | wait (polled : state.turn = .polled)
    : DriveSteps coinId state .wait { state with turn := .select }
  | take {sourced subscription} (polled : state.turn = .polled)
    (followed : state.followed = some subscription)
    : DriveSteps coinId state (.receive (some sourced))
        { state with turn := .received sourced }
  | finish {subscription} (polled : state.turn = .polled)
    (followed : state.followed = some subscription)
    : DriveSteps coinId state (.receive none)
        { state with turn := .releasing subscription.source true }
  | follow {sourced} (received : state.turn = .received sourced)
    (unlocked : state.pinning = none)
    (follows : follows state.anchorSource sourced.source = true)
    : DriveSteps coinId state .check { state with turn := .following sourced }
  | skip {sourced} (received : state.turn = .received sourced)
    : DriveSteps coinId state .check { state with turn := .select }
  | apply {sourced subscription} (following : state.turn = .following sourced)
    (followed : state.followed = some subscription)
    : DriveSteps coinId state .apply
        { state with
          turn :=
            (state.cache.applyFrame coinId sourced.frame).2.turn subscription.source,
          cache := (state.cache.applyFrame coinId sourced.frame).1,
          applied := { sourced, anchor := state.anchorSource } :: state.applied,
          spoken := state.spoken
            || sourced.frame.peak?.isSome && follows state.anchorSource sourced.source }
  | release {source ended} (releasing : state.turn = .releasing source ended)
    (unlocked : state.pinning = none)
    : DriveSteps coinId state .release
        { state.releaseAnchor source with
          turn := .select,
          followed := if ended then none else state.followed }
  | record {request states}
    : DriveSteps coinId state (.record request states)
        { state with cache := request.record coinId state.cache states }
  | untrackCoins {ids}
    : DriveSteps coinId state (.untrackCoins ids)
        { state with cache := state.cache.untrackCoins ids }

theorem driveStep_inv (stepped : driveStep coinId state event = some next)
    : DriveSteps coinId state event next := by
  cases event with
  | subscribe source =>
      simp only [driveStep] at stepped
      split at stepped
      · rename_i unlocked unpinned
        cases stepped
        exact .subscribe unlocked unpinned
      · cases stepped
  | pin =>
      simp only [driveStep] at stepped
      split at stepped
      · rename_i locked
        cases stepped
        exact .pin locked
      · cases stepped
  | releaseAnchorAt address =>
      simp only [driveStep] at stepped
      split at stepped
      · rename_i unlocked
        cases stepped
        exact .releaseAnchorAt unlocked
      · cases stepped
  | adopt =>
      simp only [driveStep] at stepped
      split at stepped
      · rename_i idle waiting
        cases stepped
        exact .adopt idle waiting
      · cases stepped
  | poll =>
      simp only [driveStep] at stepped
      split at stepped
      · rename_i idle empty followed
        cases stepped
        exact .poll idle empty followed
      · cases stepped
  | wait =>
      simp only [driveStep] at stepped
      split at stepped
      · rename_i polled
        cases stepped
        exact .wait polled
      · cases stepped
  | receive received =>
      simp only [driveStep] at stepped
      split at stepped
      · rename_i polled followed
        cases stepped
        exact .take polled followed
      · rename_i polled followed
        cases stepped
        exact .finish polled followed
      · cases stepped
  | check =>
      simp only [driveStep] at stepped
      split at stepped
      · rename_i received unlocked
        split at stepped
        · rename_i follows
          cases stepped
          exact .follow received unlocked follows
        · cases stepped
          exact .skip received
      · cases stepped
  | apply =>
      simp only [driveStep] at stepped
      split at stepped
      · rename_i following followed
        cases stepped
        exact .apply following followed
      · cases stepped
  | release =>
      simp only [driveStep] at stepped
      split at stepped
      · rename_i releasing unlocked
        cases stepped
        exact .release releasing unlocked
      · cases stepped
  | record request states =>
      cases stepped
      exact .record
  | untrackCoins ids =>
      cases stepped
      exact .untrackCoins

/-- A frame is applied to the cache as it is then, whatever became of the anchor. -/
theorem driveStep_apply (stepped : driveStep coinId state .apply = some next)
    : ∃ sourced,
        state.turn = .following sourced
        ∧ next.anchor = state.anchor
        ∧ next.cache = (state.cache.applyFrame coinId sourced.frame).1
        ∧ next.applied = { sourced, anchor := state.anchorSource } :: state.applied
        ∧ next.spoken
          = (state.spoken
            || sourced.frame.peak?.isSome && follows state.anchorSource sourced.source) := by
  cases driveStep_inv stepped with
  | apply following followed => exact ⟨_, following, rfl, rfl, rfl, rfl⟩

/-- Nothing else applies a frame or moves the peak, and an anchor is pinned with nothing
announced and otherwise only lost.
-/
theorem driveStep_other (other : event ≠ .apply)
    (stepped : driveStep coinId state event = some next)
    : next.applied = state.applied
      ∧ next.cache.peak = state.cache.peak
      ∧ (next.spoken = false
        ∨ next.spoken = state.spoken
          ∧ ∀ anchor, next.anchor = some anchor → state.anchor = some anchor) := by
  cases driveStep_inv stepped with
  | apply => exact absurd rfl other
  | pin locked => exact ⟨rfl, rfl, Or.inl rfl⟩
  | releaseAnchorAt unlocked =>
      exact ⟨rfl, rfl, Or.inr ⟨rfl, fun _ kept => (Option.filter_eq_some_iff.mp kept).1⟩⟩
  | release releasing unlocked =>
      exact ⟨rfl, rfl, Or.inr ⟨rfl, fun _ kept => (Option.filter_eq_some_iff.mp kept).1⟩⟩
  | @record request states =>
      refine ⟨rfl, ?_, Or.inr ⟨rfl, fun _ pinned => pinned⟩⟩
      cases request with
      | coins ids => exact CoinStateCache.seed_peak states
      | puzzleHashes hashes => exact CoinStateCache.seed_peak states
  | _ => exact ⟨rfl, rfl, Or.inr ⟨rfl, fun _ pinned => pinned⟩⟩

/-- A frame to be applied has just passed the check, or passed it before; in between, the
anchor changes only by a pinning or by a failed read.
-/
theorem driveStep_following {sourced : SourcedFrame}
    (stepped : driveStep coinId state event = some next)
    (following : next.turn = .following sourced)
    : follows state.anchorSource sourced.source = true ∧ next.anchor = state.anchor
      ∨ state.turn = .following sourced
        ∧ (next.anchor = state.anchor ∧ next.spoken = state.spoken
          ∨ event = .pin ∧ state.pinning.isSome = true ∧ next.spoken = false
          ∨ ∃ address, event = .releaseAnchorAt address
              ∧ next.anchor = (state.releaseAnchorAt address).anchor
              ∧ next.spoken = state.spoken) := by
  cases driveStep_inv stepped with
  | follow received unlocked follows =>
      cases following
      exact Or.inl ⟨follows, rfl⟩
  | pin locked => exact Or.inr ⟨following, Or.inr (Or.inl ⟨rfl, by simp [locked], rfl⟩)⟩
  | @releaseAnchorAt address unlocked =>
      exact Or.inr ⟨following, Or.inr (Or.inr ⟨address, rfl, rfl, rfl⟩)⟩
  | apply before followed => exact absurd following (AfterFrame.turn_ne_following _ _ _)
  | adopt idle waiting => cases following.symm.trans idle
  | poll | wait | take | finish | skip | release => cases following
  | subscribe | record | untrackCoins => exact Or.inr ⟨following, Or.inl ⟨rfl, rfl⟩⟩

end Steps

end LightClient

end ChiaQuery
