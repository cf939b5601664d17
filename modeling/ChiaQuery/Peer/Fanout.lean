import ChiaQuery.Library.BoundedChannel
import ChiaQuery.Library.GuardedRuns
import ChiaQuery.Peer.Frames
import Mathlib.Logic.Function.Basic

/-! The fan-out of the pool's frames: a map from each live session to the senders of those who
follow it, over a channel for each subscription. Every step is one lock taken or one receive.
-/

namespace ChiaQuery

open ChiaQuery.Library

def PoolFrame.endsSession : PoolFrame → Bool
  | .sessionEnded _ => true
  | _ => false

variable {Chan : Type}

/-- `FrameSubscription`, with the channel its sender writes to. `held` says whether the
subscriber still has it, `published` records the frames published for its source since, and
`heard` what each receive of the subscriber has found.
-/
structure Subscription (Chan : Type) where
  source : FrameSource
  channel : Chan
  held : Bool
  published : List PoolFrame
  heard : List (RecvResult SourcedFrame)

/-- `FrameFanout`. A sender in the map is named by the number of its subscription; `opened`
records the sessions that were ever opened.
-/
structure FanoutState (Chan : Type) where
  nextSession : UInt64
  subscribers : FrameSource → Option (List Nat)
  subscriptions : List (Nat × Subscription Chan)
  opened : List FrameSource

/-- One step of the fan-out: an allocation, the two locks of `open_session` (the second is a
publication), a publication, a subscription, and what a subscriber does with the one it was the
`number`-th to open on its source.
-/
inductive FanoutEvent where
  | allocate (address : SocketAddr)
  | register (source : FrameSource)
  | publish (source : FrameSource) (frame : PoolFrame)
  | subscribe (source : FrameSource) (capacity : Nat)
  | recv (source : FrameSource) (number : Nat)
  | drop (source : FrameSource) (number : Nat)
  deriving DecidableEq, Repr

/-- The session an event operates on. -/
def FanoutEvent.source? : FanoutEvent → Option FrameSource
  | .allocate _ => none
  | .register source | .publish source _ | .subscribe source _ | .recv source _
  | .drop source _ => some source

namespace Subscription

variable (channel : BoundedChannel Chan SourcedFrame)

/-- The step of `publish` for one follower, and whether its sender stays in the map. -/
def offer (frame : SourcedFrame) (subscription : Subscription Chan)
    : Subscription Chan × Bool :=
  match channel.trySend subscription.channel frame with
  | (next, .ok) =>
      if frame.frame.endsSession then
        ({ subscription with channel := channel.dropSender next }, false)
      else ({ subscription with channel := next }, true)
  | (next, _) => ({ subscription with channel := channel.dropSender next }, false)

/-- A frame was published for the subscription's source. -/
def note (frame : PoolFrame) (subscription : Subscription Chan) : Subscription Chan :=
  { subscription with published := subscription.published ++ [frame] }

/-- `recv`, as far as it comes without waiting. -/
def receive (subscription : Subscription Chan) : Subscription Chan :=
  { subscription with
    channel := (channel.recv subscription.channel).1,
    heard := subscription.heard ++ [(channel.recv subscription.channel).2] }

/-- The subscriber drops its half. -/
def discard (subscription : Subscription Chan) : Subscription Chan :=
  { subscription with
    channel := channel.dropReceiver subscription.channel,
    held := false }

/-- A subscription just opened, whose channel holds the synthesised reset; none if the channel
refused it.
-/
def opening (source : FrameSource) (capacity : Nat) : Option (Subscription Chan) :=
  match channel.trySend (channel.create (max capacity 1)) { source, frame := .reset } with
  | (opened, .ok) => some { source, channel := opened, held := true, published := [], heard := [] }
  | _ => none

/-- The items the subscriber has received. -/
def received (subscription : Subscription Chan) : List SourcedFrame :=
  subscription.heard.filterMap RecvResult.item?

end Subscription

namespace FanoutState

variable (channel : BoundedChannel Chan SourcedFrame)

/-- The subscriptions opened on a source, in the order they were. -/
def on (state : FanoutState Chan) (source : FrameSource) : List (Nat × Subscription Chan) :=
  state.subscriptions.filter (fun item => item.2.source = source)

/-- The senders registered for a source. -/
def followers (state : FanoutState Chan) (source : FrameSource) : List Nat :=
  (state.subscribers source).getD []

/-- Change the subscription of a number. -/
def change (state : FanoutState Chan) (number : Nat)
    (f : Subscription Chan → Subscription Chan)
    : FanoutState Chan :=
  { state with
    subscriptions := state.subscriptions.map (fun item =>
      if item.1 = number then (item.1, f item.2) else item) }

/-- The first lock of `open_session`: `entry(source).or_default()`. -/
def register (state : FanoutState Chan) (source : FrameSource) : FanoutState Chan :=
  { state with
    subscribers := Function.update state.subscribers source (some (state.followers source)),
    opened := source :: state.opened }

/-- `publish`. A frame for an unregistered source reaches nobody; otherwise every follower is
offered it, and those that refuse it leave the map, as all do with the end of the session.
-/
def publish (state : FanoutState Chan) (source : FrameSource) (frame : PoolFrame)
    : FanoutState Chan :=
  let sourced : SourcedFrame := { source, frame }
  let noted := state.subscriptions.map (fun item =>
    if item.2.source = source then (item.1, item.2.note frame) else item)
  match state.subscribers source with
  | none => { state with subscriptions := noted }
  | some followers =>
      let retained := followers.filter (fun number =>
        state.subscriptions.any (fun item =>
          item.1 = number && (item.2.offer channel sourced).2))
      { state with
        subscribers := Function.update state.subscribers source
          (if frame.endsSession then none else some retained),
        subscriptions := noted.map (fun item =>
          if item.1 ∈ followers then (item.1, (item.2.offer channel sourced).1) else item) }

/-- `subscribe`: none when the source is not live. -/
def subscribe (state : FanoutState Chan) (source : FrameSource) (capacity : Nat)
    : Option (FanoutState Chan) :=
  match state.subscribers source with
  | none => none
  | some followers =>
      (Subscription.opening channel source capacity).map (fun opened =>
        let number := state.subscriptions.length
        { state with
          subscribers := Function.update state.subscribers source
            (some (followers ++ [number])),
          subscriptions := state.subscriptions ++ [(number, opened)] })

/-- What a subscriber does with a subscription that it holds. -/
def act (state : FanoutState Chan) (source : FrameSource) (number : Nat)
    (f : Subscription Chan → Subscription Chan)
    : Option (FanoutState Chan) :=
  match (state.on source)[number]? with
  | some (id, subscription) =>
      if subscription.held then some (state.change id f) else none
  | none => none

/-- One step of the fan-out. The task that publishes a session's frames starts when the session
has been opened, so nothing is published for a session that never was.
-/
def step (state : FanoutState Chan) : FanoutEvent → Option (FanoutState Chan)
  | .allocate _ => some { state with nextSession := state.nextSession + 1 }
  | .register source => some (state.register source)
  | .publish source frame =>
      if source ∈ state.opened then some (state.publish channel source frame) else none
  | .subscribe source capacity => some ((state.subscribe channel source capacity).getD state)
  | .recv source number => state.act source number (Subscription.receive channel)
  | .drop source number => state.act source number (Subscription.discard channel)

end FanoutState

/-- `allocate_session`. -/
def FanoutState.allocateSession (state : FanoutState Chan) (address : SocketAddr)
    : FrameSource where
  address := address
  session := state.nextSession

/-- The fan-out over a channel, from no session at all. -/
def fanout (channel : BoundedChannel Chan SourcedFrame)
    : Machine (FanoutState Chan) FanoutEvent where
  initial := {
    nextSession := 0,
    subscribers := fun _ => none,
    subscriptions := [],
    opened := []
  }
  step := FanoutState.step channel

/-- The sessions at one address. -/
def sampleSource (session : SessionId) : FrameSource :=
  { address := (sampleEntry 1).address, session }

end ChiaQuery
