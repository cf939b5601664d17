import ChiaQuery.Library.DistinctKeys
import ChiaQuery.Peer.SetAgreement
import ChiaQuery.Types.Address

/-! The pool's entries, whom a read may ask, and which peers count as independent voices. -/

namespace ChiaQuery

open ChiaQuery.Library

/-- `SessionId`: one peer connection for the life of the pool. -/
abbrev SessionId := UInt64

/-- `PeerOrigin`: how a held peer was reached. -/
inductive PeerOrigin where
  | priority
  | discovered
  deriving DecidableEq, Repr

/-- The handle of one connection; `connection` tells two connections to one address apart. -/
structure Peer where
  connection : Nat
  socketAddr : SocketAddr
  deriving DecidableEq, Repr

/-- `PeerEntry`: `lastPeak` is 0 before the peer has announced any. -/
structure PeerEntry where
  peer : Peer
  address : SocketAddr
  session : SessionId
  origin : PeerOrigin
  lastPeak : UInt32
  admittedAt : Nat
  deriving DecidableEq, Repr

/-- `CorroborationReadiness`. -/
inductive CorroborationReadiness where
  | armed (corroborators : Nat)
  | insufficient (corroborators required : Nat)
  deriving DecidableEq, Repr

namespace PeerPool

/-- `select_peer`, for a pool that has served `nextIdx` selections. -/
def selectPeer (entries : List PeerEntry) (nextIdx : UInt64) : Option (Peer × SocketAddr) :=
  (entries[nextIdx.toNat % entries.length]?).map (fun entry => (entry.peer, entry.address))

/-- `select_peer_excluding`. -/
def selectPeerExcluding (entries : List PeerEntry) (nextIdx : UInt64) (excluded : SocketAddr)
    : Option (Peer × SocketAddr) :=
  selectPeer (entries.filter (fun entry => entry.address ≠ excluded)) nextIdx

/-- `origin_of`. -/
def originOf (entries : List PeerEntry) (address : SocketAddr) : Option PeerOrigin :=
  (entries.find? (fun entry => entry.address = address)).map PeerEntry.origin

/-- `is_corroborator`: another host than the asked one, and discovered. -/
def isCorroborator (entry : PeerEntry) (asked : SocketAddr) : Bool :=
  entry.address.ip ≠ asked.ip && entry.origin = .discovered

/-- `corroborators`: at most one entry for each host. -/
def corroborators (entries : List PeerEntry) (asked : SocketAddr) : List PeerEntry :=
  distinctBy (fun entry => entry.address.ip)
    (entries.filter (fun entry => isCorroborator entry asked))

/-- `select_corroborating_peers`. -/
def selectCorroboratingPeers (entries : List PeerEntry) (asked : SocketAddr)
    : List (Peer × SocketAddr) :=
  (corroborators entries asked).map (fun entry => (entry.peer, entry.address))

/-- `corroboration_readiness`. -/
def corroborationReadiness (entries : List PeerEntry) (asked : SocketAddr)
    : CorroborationReadiness :=
  let available := (corroborators entries asked).length
  if corroborationFloor ≤ available then .armed available
  else .insufficient available corroborationFloor

/-- `eject_peer`. -/
def ejectPeer (entries : List PeerEntry) (address : SocketAddr) : List PeerEntry :=
  entries.filter (fun entry => entry.address ≠ address)

end PeerPool

/-- `corroborated`: whether a round of `agreed` agreeing answers may be reported so. -/
def corroborated (readiness : CorroborationReadiness) (agreed : Nat) : Bool :=
  match readiness with
  | .armed _ => corroborationFloor ≤ agreed
  | .insufficient _ _ => false

/-- A pool is armed for an answer when it holds the floor of corroborators for it. -/
def IsArmed (entries : List PeerEntry) (asked : SocketAddr) : Prop :=
  corroborationFloor ≤ (PeerPool.corroborators entries asked).length

namespace PeerPool

theorem mem_corroborators {entries : List PeerEntry} {asked : SocketAddr}
    {entry : PeerEntry} (member : entry ∈ corroborators entries asked)
    : entry ∈ entries ∧ entry.address.ip ≠ asked.ip ∧ entry.origin = .discovered := by
  have h := List.mem_filter.mp (mem_of_mem_distinctBy member)
  simpa [isCorroborator] using h

theorem corroborators_hosts_nodup (entries : List PeerEntry) (asked : SocketAddr)
    : ((corroborators entries asked).map (fun entry => entry.address.ip)).Nodup :=
  distinctBy_keys_nodup _ _

/-- The verdict needs an armed pool and the floor of agreeing answers. -/
theorem corroborated_iff {entries : List PeerEntry} {asked : SocketAddr} {agreed : Nat}
    : corroborated (corroborationReadiness entries asked) agreed = true
      ↔ IsArmed entries asked ∧ corroborationFloor ≤ agreed := by
  simp only [corroborationReadiness, IsArmed]
  split
  · rename_i armed
    simp [corroborated, armed]
  · rename_i short
    simp [corroborated, short]

end PeerPool

/-- A discovered peer on the host `10.0.0.number`. -/
def sampleEntry (number : Nat) : PeerEntry :=
  let address : SocketAddr := { ip := .v4 (BitVec.ofNat 32 (167772160 + number)), port := 8444 }
  {
    peer := { connection := number, socketAddr := address },
    address,
    session := UInt64.ofNat number,
    origin := .discovered,
    lastPeak := 100,
    admittedAt := 0
  }

/-- A pool that is armed for any of its three peers. -/
def samplePool : List PeerEntry :=
  [sampleEntry 1, sampleEntry 2, sampleEntry 3]

end ChiaQuery
