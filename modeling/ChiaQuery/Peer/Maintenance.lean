import ChiaQuery.Peer.Frames
import ChiaQuery.Peer.LagEviction

/-! The pool's removals: by a failed request, by a session's end, by lag and by age. Each of
them only drops entries.
-/

namespace ChiaQuery

/-- `PEER_LIFETIME`, in nanoseconds. -/
def peerLifetime : Nat := 300 * 10 ^ 9

namespace PeerPool

/-- `eject_dead_sessions`, for the ends it took off the list. -/
def ejectDeadSessions (entries : List PeerEntry) (dead : List FrameSource)
    : List PeerEntry :=
  entries.filter (fun entry =>
    !dead.any (fun ended => ended.address = entry.address && ended.session = entry.session))

/-- The earlier admitted of two held entries; the first of two admitted together. -/
def older (oldest candidate : PeerEntry × Nat) : PeerEntry × Nat :=
  if candidate.1.admittedAt < oldest.1.admittedAt then candidate else oldest

/-- The oldest discovered entry that has outlived its time, with its position. -/
def oldestExpired (entries : List PeerEntry) (now : Nat) : Option (PeerEntry × Nat) :=
  match entries.zipIdx.filter (fun item =>
    item.1.origin = .discovered && peerLifetime ≤ now - item.1.admittedAt) with
  | [] => none
  | first :: rest => some (rest.foldl older first)

/-- `cycle_expired_peers`: what the pool holds afterwards, and the address rotated out. -/
def cycleExpiredPeers (entries : List PeerEntry) (now : Nat)
    : List PeerEntry × Option SocketAddr :=
  match oldestExpired entries now with
  | none => (entries, none)
  | some (entry, index) => (entries.eraseIdx index, some entry.address)

theorem ejectDeadSessions_sublist (entries : List PeerEntry) (dead : List FrameSource)
    : (ejectDeadSessions entries dead).Sublist entries :=
  List.filter_sublist

theorem cycleExpiredPeers_sublist (entries : List PeerEntry) (now : Nat)
    : (cycleExpiredPeers entries now).1.Sublist entries := by
  unfold cycleExpiredPeers
  split
  · exact List.Sublist.refl entries
  · exact List.eraseIdx_sublist entries _

end PeerPool

end ChiaQuery
