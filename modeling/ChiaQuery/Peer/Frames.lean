import ChiaQuery.Peer.PoolEntries
import Mathlib.Data.List.Nodup

/-! The frames of a pooled session, the source each of them names, and how the pool admits a
connection and opens a subscription on the session it holds at an address.
-/

namespace ChiaQuery

/-- `FrameSource`: one session, by its address and its identity. -/
structure FrameSource where
  address : SocketAddr
  session : SessionId
  deriving DecidableEq, Repr

/-- `SessionEndReason`. -/
inductive SessionEndReason where
  | disconnected
  | undecodableFrame
  | oversizedFrame
  deriving DecidableEq, Repr

/-- `PoolFrame`: one frame of a session, as a subscriber sees it. -/
inductive PoolFrame where
  | reset
  | peak (height : UInt32) (headerHash : Bytes32)
  | coinStates (height forkHeight : UInt32) (peakHash : Bytes32) (items : List CoinState)
  | sessionEnded (reason : SessionEndReason)
  deriving DecidableEq, Repr

/-- The coin states a frame carries. -/
def PoolFrame.items : PoolFrame → List CoinState
  | .coinStates _ _ _ items => items
  | _ => []

/-- `SourcedFrame`. -/
structure SourcedFrame where
  source : FrameSource
  frame : PoolFrame
  deriving DecidableEq, Repr

/-- The session an entry is held for. -/
def PeerEntry.source (entry : PeerEntry) : FrameSource where
  address := entry.address
  session := entry.session

namespace PeerPool

/-- `admit`: a full pool refuses, and so does one that already holds the address. -/
def admitEntry (maxPeers : Nat) (entries : List PeerEntry) (entry : PeerEntry)
    : Option (List PeerEntry) :=
  if maxPeers ≤ entries.length then none
  else if entries.any (fun held => held.address = entry.address) then none
  else some (entries ++ [entry])

/-- `subscribe_frames`: the session held at the address, when it is live. -/
def subscribeFrames (entries : List PeerEntry) (live : List FrameSource)
    (address : SocketAddr)
    : Option FrameSource :=
  match entries.find? (fun entry => entry.address = address) with
  | none => none
  | some entry => if entry.source ∈ live then some entry.source else none

/-- The addresses a pool holds are distinct. -/
def DistinctAddresses (entries : List PeerEntry) : Prop :=
  (entries.map PeerEntry.address).Nodup

variable {entries : List PeerEntry}

theorem DistinctAddresses.eq_of_address_eq (distinct : DistinctAddresses entries)
    {left right : PeerEntry} (leftHeld : left ∈ entries) (rightHeld : right ∈ entries)
    (same : left.address = right.address)
    : left = right :=
  List.inj_on_of_nodup_map distinct leftHeld rightHeld same

/-- An admitted connection is added to a pool that did not hold its address. -/
theorem admitEntry_inv {maxPeers : Nat} {entry : PeerEntry} {grown : List PeerEntry}
    (h : admitEntry maxPeers entries entry = some grown)
    : grown = entries ++ [entry] ∧ entry.address ∉ entries.map PeerEntry.address := by
  unfold admitEntry at h
  split at h
  · cases h
  · split at h
    · cases h
    · rename_i fresh
      cases h
      exact ⟨rfl, by simpa using fresh⟩

/-- An admission leaves the pool within its capacity. -/
theorem admitEntry_room {maxPeers : Nat} {entry : PeerEntry} {grown : List PeerEntry}
    (h : admitEntry maxPeers entries entry = some grown)
    : grown.length ≤ maxPeers := by
  have shape := (admitEntry_inv h).1
  unfold admitEntry at h
  split at h
  · cases h
  · rename_i room
    simp only [shape, List.length_append, List.length_singleton]
    omega

/-- Admission keeps the addresses distinct, because it refuses one that is held. -/
theorem DistinctAddresses.admitEntry (distinct : DistinctAddresses entries) {maxPeers : Nat}
    {entry : PeerEntry} {grown : List PeerEntry}
    (h : admitEntry maxPeers entries entry = some grown)
    : DistinctAddresses grown := by
  obtain ⟨rfl, fresh⟩ := admitEntry_inv h
  have apart : ∀ held ∈ entries, held.address ≠ entry.address := by
    intro held member same
    exact fresh (same ▸ List.mem_map_of_mem member)
  simpa [DistinctAddresses, List.nodup_append] using ⟨distinct, apart⟩

theorem DistinctAddresses.sublist {fewer : List PeerEntry}
    (distinct : DistinctAddresses entries) (shrunk : fewer.Sublist entries)
    : DistinctAddresses fewer :=
  List.Nodup.sublist (shrunk.map _) distinct

theorem ejectPeer_sublist (entries : List PeerEntry) (address : SocketAddr)
    : (ejectPeer entries address).Sublist entries :=
  List.filter_sublist

theorem DistinctAddresses.ejectPeer (distinct : DistinctAddresses entries)
    (address : SocketAddr)
    : DistinctAddresses (ejectPeer entries address) :=
  distinct.sublist (ejectPeer_sublist entries address)

theorem mem_of_mem_ejectPeer {address : SocketAddr} {held : PeerEntry}
    (member : held ∈ ejectPeer entries address)
    : held ∈ entries :=
  (ejectPeer_sublist entries address).mem member

/-- A selection names an entry of the pool. -/
theorem exists_entry_of_selectPeer {nextIdx : UInt64} {peer : Peer} {address : SocketAddr}
    (h : selectPeer entries nextIdx = some (peer, address))
    : ∃ entry ∈ entries, entry.peer = peer ∧ entry.address = address := by
  obtain ⟨entry, found, pair⟩ := Option.map_eq_some_iff.mp h
  obtain ⟨hpeer, haddress⟩ := Prod.mk.inj pair
  exact ⟨entry, List.mem_of_getElem? found, hpeer, haddress⟩

/-- An origin is that of an entry of the pool. -/
theorem exists_entry_of_originOf {address : SocketAddr} {origin : PeerOrigin}
    (h : originOf entries address = some origin)
    : ∃ entry ∈ entries, entry.address = address ∧ entry.origin = origin := by
  obtain ⟨entry, found, horigin⟩ := Option.map_eq_some_iff.mp h
  exact ⟨entry, List.mem_of_find?_eq_some found, by simpa using List.find?_some found, horigin⟩

/-- A subscription is opened on the live session of an entry of the pool. -/
theorem exists_entry_of_subscribeFrames {live : List FrameSource} {address : SocketAddr}
    {source : FrameSource} (h : subscribeFrames entries live address = some source)
    : ∃ entry ∈ entries, entry.address = address ∧ entry.source = source
        ∧ source ∈ live := by
  unfold subscribeFrames at h
  split at h
  · cases h
  · rename_i entry found
    split at h
    · rename_i isLive
      cases h
      exact ⟨entry, List.mem_of_find?_eq_some found, by simpa using List.find?_some found,
        rfl, isLive⟩
    · cases h

end PeerPool

end ChiaQuery
