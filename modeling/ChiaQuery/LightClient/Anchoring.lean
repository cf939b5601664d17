import ChiaQuery.Library.GuardedRuns
import ChiaQuery.Peer.Frames

/-! How a light client pins its anchor while other requests change the pool. The handle, the
origin and the subscription are three lookups, and the last two go by address alone; what is
pinned is one connection as long as the session subscribed to was held when the handle was.
-/

namespace ChiaQuery.LightClient

open ChiaQuery.Library

/-- `Anchor`: the pinned session. -/
structure Anchor where
  peer : Peer
  address : SocketAddr
  source : FrameSource
  origin : PeerOrigin
  deriving DecidableEq, Repr

/-- How far the one call to `anchor` that may hold the slot has come. `since` records the
connections admitted while it runs.
-/
inductive AnchorCall where
  | idle
  | picked (peer : Peer) (address : SocketAddr) (since : List PeerEntry)
  | described (peer : Peer) (address : SocketAddr) (origin : PeerOrigin)
      (since : List PeerEntry)
  deriving DecidableEq, Repr

/-- The pool, the anchor slot and the call that holds it. `admitted` records every
connection the pool has ever held.
-/
structure AnchoringState where
  entries : List PeerEntry
  nextIdx : UInt64
  live : List FrameSource
  admitted : List PeerEntry
  call : AnchorCall
  anchor : Option Anchor
  deriving DecidableEq, Repr

/-- What a light client's call to `anchor` and the requests beside it do, one lock at a time. -/
inductive AnchoringEvent where
  | admitEntry (entry : PeerEntry)
  | openSession (source : FrameSource)
  | sessionEnds (source : FrameSource)
  | eject (address : SocketAddr)
  | selectElsewhere
  | pick
  | readOrigin
  | subscribe
  | abandon
  | release
  deriving DecidableEq, Repr

/-- The connection just admitted is one that was admitted since a call in progress began. -/
def AnchorCall.record (call : AnchorCall) (entry : PeerEntry) : AnchorCall :=
  match call with
  | .idle => .idle
  | .picked peer address since => .picked peer address (entry :: since)
  | .described peer address origin since => .described peer address origin (entry :: since)

/-- `anchor`, from the pick to the pinning, beside `admit_and_follow`, `eject_peer`, the ends
of sessions, other selections and `release_anchor`. The slot is locked for the whole of a
call, so no second call starts and nothing is released while one is in progress.
-/
def anchoringStep (maxPeers : Nat) (state : AnchoringState)
    : AnchoringEvent → Option AnchoringState
  | .admitEntry entry =>
      match PeerPool.admitEntry maxPeers state.entries entry with
      | none => some state
      | some entries =>
          some { state with
            entries,
            admitted := entry :: state.admitted,
            call := state.call.record entry }
  | .openSession source => some { state with live := source :: state.live }
  | .sessionEnds source =>
      some { state with live := state.live.filter (fun held => held ≠ source) }
  | .eject address =>
      some { state with entries := PeerPool.ejectPeer state.entries address }
  | .selectElsewhere =>
      if state.entries = [] then some state
      else some { state with nextIdx := state.nextIdx + 1 }
  | .pick =>
      match state.call, state.anchor with
      | .idle, none =>
          match PeerPool.selectPeer state.entries state.nextIdx with
          | none => some state
          | some (peer, address) =>
              some { state with
                nextIdx := state.nextIdx + 1,
                call := .picked peer address [] }
      | _, _ => none
  -- Both lookups go by the picked address, whatever connection is held there by now.
  | .readOrigin =>
      match state.call with
      | .picked peer address since =>
          match PeerPool.originOf state.entries address with
          | none => some { state with call := .idle }
          | some origin => some { state with call := .described peer address origin since }
      | _ => none
  | .subscribe =>
      match state.call with
      | .described peer address origin _ =>
          match PeerPool.subscribeFrames state.entries state.live address with
          | none => some { state with call := .idle }
          | some source =>
              some { state with
                call := .idle,
                anchor := some { peer, address, source, origin } }
      | _ => none
  | .abandon => some { state with call := .idle }
  | .release =>
      match state.call with
      | .idle => some { state with anchor := none }
      | _ => none

/-- Anchoring over a pool of at most `maxPeers` peers, which starts empty. -/
def anchoring (maxPeers : Nat) : Machine AnchoringState AnchoringEvent where
  initial := {
    entries := [],
    nextIdx := 0,
    live := [],
    admitted := [],
    call := .idle,
    anchor := none
  }
  step := anchoringStep maxPeers

/-- The handle, the origin and the session of an anchor are those of one connection that the
pool has held.
-/
def Anchor.NamesOneConnection (admitted : List PeerEntry) (anchor : Anchor) : Prop :=
  ∃ entry ∈ admitted,
    entry.peer = anchor.peer
    ∧ entry.address = anchor.address
    ∧ entry.origin = anchor.origin
    ∧ entry.source = anchor.source

------------------------------------------------------------------------------------------
-- When nothing takes the place of the picked connection
------------------------------------------------------------------------------------------

/-- A call that subscribes finds no connection at the picked address that was admitted since
it picked and whose session is live.
-/
def AnchoringUndisturbed (state : AnchoringState) (event : AnchoringEvent) : Prop :=
  event = .subscribe →
    match state.call with
    | .described _ address _ since =>
        ∀ entry ∈ since, entry.address = address → entry.source ∈ state.live
          → entry ∉ state.entries
    | _ => True

instance (state : AnchoringState) (event : AnchoringEvent)
    : Decidable (AnchoringUndisturbed state event) := by
  unfold AnchoringUndisturbed
  split
  · infer_instance
  · infer_instance

/-- What a call has read belongs to whatever is held at its address, unless that has been
admitted since.
-/
def AnchorCall.Fits (entries : List PeerEntry) : AnchorCall → Prop
  | .idle => True
  | .picked peer address since =>
      ∀ entry ∈ entries, entry.address = address → entry ∈ since ∨ entry.peer = peer
  | .described peer address origin since =>
      ∀ entry ∈ entries, entry.address = address
        → entry ∈ since ∨ entry.peer = peer ∧ entry.origin = origin

/-- What every state of an undisturbed run satisfies. -/
structure AnchoringInvariant (state : AnchoringState) : Prop where
  distinct : PeerPool.DistinctAddresses state.entries
  recorded : ∀ entry ∈ state.entries, entry ∈ state.admitted
  call : state.call.Fits state.entries
  anchor : ∀ anchor ∈ state.anchor, anchor.NamesOneConnection state.admitted

------------------------------------------------------------------------------------------
-- Connections admitted later change nothing a call or an anchor holds
------------------------------------------------------------------------------------------

theorem Anchor.NamesOneConnection.cons {admitted : List PeerEntry} {anchor : Anchor}
    (h : anchor.NamesOneConnection admitted) (entry : PeerEntry)
    : anchor.NamesOneConnection (entry :: admitted) := by
  obtain ⟨named, member, fields⟩ := h
  exact ⟨named, List.mem_cons_of_mem entry member, fields⟩

/-- A call fits a pool that lost entries. -/
theorem AnchorCall.Fits.subset {call : AnchorCall} {entries fewer : List PeerEntry}
    (h : call.Fits entries) (subset : ∀ entry ∈ fewer, entry ∈ entries)
    : call.Fits fewer := by
  cases call with
  | idle => trivial
  | picked peer address since =>
      intro entry member same
      exact h entry (subset entry member) same
  | described peer address origin since =>
      intro entry member same
      exact h entry (subset entry member) same

/-- A call fits a pool that gained a connection, once it is recorded. -/
theorem AnchorCall.Fits.record {call : AnchorCall} {entries : List PeerEntry}
    (h : call.Fits entries) (new : PeerEntry)
    : (call.record new).Fits (entries ++ [new]) := by
  cases call with
  | idle => trivial
  | picked peer address since =>
      intro entry member same
      rcases List.mem_append.mp member with held | fresh
      · exact (h entry held same).imp_left (List.mem_cons_of_mem new)
      · exact Or.inl (List.mem_singleton.mp fresh ▸ List.mem_cons_self)
  | described peer address origin since =>
      intro entry member same
      rcases List.mem_append.mp member with held | fresh
      · exact (h entry held same).imp_left (List.mem_cons_of_mem new)
      · exact Or.inl (List.mem_singleton.mp fresh ▸ List.mem_cons_self)

namespace AnchoringInvariant

variable {maxPeers : Nat} {state next : AnchoringState}

theorem admitEntry (h : AnchoringInvariant state) {entry : PeerEntry}
    (stepped : anchoringStep maxPeers state (.admitEntry entry) = some next)
    : AnchoringInvariant next := by
  simp only [anchoringStep] at stepped
  split at stepped
  · cases stepped
    exact h
  · rename_i entries grown
    cases stepped
    obtain ⟨rfl, -⟩ := PeerPool.admitEntry_inv grown
    refine ⟨h.distinct.admitEntry grown, ?_, h.call.record entry, ?_⟩
    · intro held member
      rcases List.mem_append.mp member with old | new
      · exact List.mem_cons_of_mem entry (h.recorded held old)
      · exact List.mem_singleton.mp new ▸ List.mem_cons_self
    · intro anchor pinned
      exact (h.anchor anchor pinned).cons entry

/-- A selection picks the handle of the only connection held at its address. -/
theorem pick (h : AnchoringInvariant state)
    (stepped : anchoringStep maxPeers state .pick = some next)
    : AnchoringInvariant next := by
  simp only [anchoringStep] at stepped
  split at stepped
  · split at stepped
    · cases stepped
      exact h
    · rename_i peer address selected
      cases stepped
      obtain ⟨picked, held, hpeer, haddress⟩ := PeerPool.exists_entry_of_selectPeer selected
      refine ⟨h.distinct, h.recorded, ?_, h.anchor⟩
      intro entry member same
      rw [h.distinct.eq_of_address_eq member held (same.trans haddress.symm)]
      exact Or.inr hpeer
  · cases stepped

/-- The origin is that of the only connection held at the address, so it belongs to the
handle unless that connection is a later one.
-/
theorem readOrigin (h : AnchoringInvariant state)
    (stepped : anchoringStep maxPeers state .readOrigin = some next)
    : AnchoringInvariant next := by
  simp only [anchoringStep] at stepped
  split at stepped
  · rename_i peer address since picked
    split at stepped
    · cases stepped
      exact ⟨h.distinct, h.recorded, trivial, h.anchor⟩
    · rename_i origin described
      cases stepped
      obtain ⟨found, held, haddress, horigin⟩ := PeerPool.exists_entry_of_originOf described
      have fits : (AnchorCall.picked peer address since).Fits state.entries := picked ▸ h.call
      refine ⟨h.distinct, h.recorded, ?_, h.anchor⟩
      intro entry member same
      rw [h.distinct.eq_of_address_eq member held (same.trans haddress.symm)]
      exact (fits found held haddress).imp_right (fun hpeer => ⟨hpeer, horigin⟩)
  · cases stepped

/-- The session subscribed to is that of a connection the guard says is no later one. -/
theorem subscribe (h : AnchoringInvariant state)
    (undisturbed : AnchoringUndisturbed state .subscribe)
    (stepped : anchoringStep maxPeers state .subscribe = some next)
    : AnchoringInvariant next := by
  simp only [anchoringStep] at stepped
  split at stepped
  · rename_i peer address origin since described
    split at stepped
    · cases stepped
      exact ⟨h.distinct, h.recorded, trivial, h.anchor⟩
    · rename_i source subscribed
      cases stepped
      obtain ⟨found, held, haddress, hsource, isLive⟩ :=
        PeerPool.exists_entry_of_subscribeFrames subscribed
      have fits : (AnchorCall.described peer address origin since).Fits state.entries :=
        described ▸ h.call
      have settled := undisturbed rfl
      rw [described] at settled
      refine ⟨h.distinct, h.recorded, trivial, ?_⟩
      intro anchor pinned
      cases pinned
      rcases fits found held haddress with later | ⟨hpeer, horigin⟩
      · exact absurd held (settled found later haddress (hsource ▸ isLive))
      · exact ⟨found, h.recorded found held, hpeer, haddress, horigin, hsource⟩
  · cases stepped

/-- Every event of an undisturbed run keeps the invariant. Cases on the event; only the
steps of the call itself and admissions need an argument.
-/
theorem step (h : AnchoringInvariant state) {event : AnchoringEvent}
    (undisturbed : AnchoringUndisturbed state event)
    (stepped : (anchoring maxPeers).step state event = some next)
    : AnchoringInvariant next := by
  change anchoringStep maxPeers state event = some next at stepped
  cases event with
  | admitEntry entry => exact h.admitEntry stepped
  | openSession source =>
      cases stepped
      exact ⟨h.distinct, h.recorded, h.call, h.anchor⟩
  | sessionEnds source =>
      cases stepped
      exact ⟨h.distinct, h.recorded, h.call, h.anchor⟩
  | eject address =>
      cases stepped
      exact ⟨h.distinct.ejectPeer address,
        fun held member => h.recorded held (PeerPool.mem_of_mem_ejectPeer member),
        h.call.subset (fun held member => PeerPool.mem_of_mem_ejectPeer member), h.anchor⟩
  | selectElsewhere =>
      simp only [anchoringStep] at stepped
      split at stepped
      · cases stepped
        exact h
      · cases stepped
        exact ⟨h.distinct, h.recorded, h.call, h.anchor⟩
  | pick => exact h.pick stepped
  | readOrigin => exact h.readOrigin stepped
  | subscribe => exact h.subscribe undisturbed stepped
  | abandon =>
      cases stepped
      exact ⟨h.distinct, h.recorded, trivial, h.anchor⟩
  | release =>
      simp only [anchoringStep] at stepped
      split at stepped
      · cases stepped
        exact ⟨h.distinct, h.recorded, h.call, by simp⟩
      · cases stepped

end AnchoringInvariant

------------------------------------------------------------------------------------------
-- Runs of anchor beside ejections, admissions and session ends
------------------------------------------------------------------------------------------

theorem anchoringInvariant_initial (maxPeers : Nat)
    : AnchoringInvariant (anchoring maxPeers).initial where
  distinct := List.nodup_nil
  recorded := by simp [anchoring]
  call := trivial
  anchor := by simp [anchoring]

/-- In every undisturbed run, whatever else happens to the pool, the anchor that is pinned
names one connection.
-/
theorem anchor_names_one_connection {maxPeers : Nat} {events : List AnchoringEvent}
    {final : AnchoringState}
    (undisturbed : (anchoring maxPeers).Meets AnchoringUndisturbed events)
    (reached : (anchoring maxPeers).run events = some final)
    : ∀ anchor ∈ final.anchor, anchor.NamesOneConnection final.admitted := by
  have invariant := Machine.run_invariant (anchoringInvariant_initial maxPeers)
    (fun h guarded stepped => h.step guarded stepped) undisturbed reached
  exact invariant.anchor

/-- A second connection to the address of `sampleEntry 1`, dialled as an operator's own. -/
def replacementEntry : PeerEntry :=
  { sampleEntry 1 with
    peer := { (sampleEntry 1).peer with connection := 9 },
    session := 9,
    origin := .priority }

/-- One connection is admitted and announced. -/
def connectEvents (entry : PeerEntry) : List AnchoringEvent :=
  [.admitEntry entry, .openSession entry.source]

/-- A run in which another peer is ejected and replaced while the call is in progress. -/
def undisturbedEvents : List AnchoringEvent :=
  connectEvents (sampleEntry 1) ++ connectEvents (sampleEntry 2)
    ++ [.pick, .eject (sampleEntry 2).address]
    ++ connectEvents (sampleEntry 3)
    ++ [.readOrigin, .subscribe]

theorem anchor_names_one_connection_sample
    : ∃ final, (anchoring 5).run undisturbedEvents = some final
        ∧ final.anchor.isSome
        ∧ ∀ anchor ∈ final.anchor, anchor.NamesOneConnection final.admitted := by
  have undisturbed : (anchoring 5).Meets AnchoringUndisturbed undisturbedEvents := by
    decide
  exact ⟨_, rfl, rfl, anchor_names_one_connection undisturbed rfl⟩

/-- A run in which the picked peer is ejected and its address dialled again. -/
def replacedEvents : List AnchoringEvent :=
  connectEvents (sampleEntry 1) ++ [.pick, .eject (sampleEntry 1).address]
    ++ connectEvents replacementEntry
    ++ [.readOrigin, .subscribe]

/-- The anchor pinned by that run has the handle of the first connection, and the origin and
the session of the second.
-/
theorem anchor_names_two_connections
    : ¬ ∀ (maxPeers : Nat) (events : List AnchoringEvent) (final : AnchoringState),
        (anchoring maxPeers).run events = some final
        → ∀ anchor ∈ final.anchor, anchor.NamesOneConnection final.admitted := by
  intro claim
  obtain ⟨entry, member, hpeer, -, -, hsource⟩ := claim 5 replacedEvents _ rfl _ rfl
  have both : entry = replacementEntry ∨ entry = sampleEntry 1 := by
    simpa [anchoring] using member
  rcases both with rfl | rfl
  · exact absurd hpeer (by decide)
  · exact absurd hsource (by decide)

end ChiaQuery.LightClient
