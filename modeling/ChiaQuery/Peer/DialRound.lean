import ChiaQuery.Peer.PoolEntries

/-! One dial round: how many dials it opens and which of their connections it keeps. -/

namespace ChiaQuery

open ChiaQuery.Library

/-- `PRIORITY_SLOTS`. -/
def prioritySlots : Nat := 2

/-- `FILL_ROUNDS`. -/
def fillRounds : Nat := prioritySlots + 2

/-- `DIAL_OVERSUBSCRIPTION`. -/
def dialOversubscription : Nat := 2

/-- `dials_for`, with the saturation of `usize`. -/
def dialsFor (wanted : Nat) : Nat :=
  min (wanted * dialOversubscription) (2 ^ 64 - 1)

/-- `DialCandidate`: a dial that succeeded; the handshake time is in nanoseconds. -/
structure DialCandidate (α : Type) where
  origin : PeerOrigin
  address : SocketAddr
  handshake : Nat
  connection : α
  deriving DecidableEq, Repr

/-- `SubnetKey`: the /24 of an IPv4 address, the /48 of an IPv6 address. -/
inductive SubnetKey where
  | v4 (bits : BitVec 24)
  | v6 (bits : BitVec 48)
  deriving DecidableEq, Repr

/-- `SubnetKey::of`. -/
def SubnetKey.of (address : SocketAddr) : SubnetKey :=
  match address.ip with
  | .v4 bits => .v4 (bits.extractLsb' 8 24)
  | .v6 bits => .v6 (bits.extractLsb' 80 48)

variable {α : Type}

/-- The sort key of `most_credible`: priority candidates first, then the faster handshake. -/
def DialCandidate.ranksBefore (left right : DialCandidate α) : Bool :=
  match left.origin, right.origin with
  | .priority, .discovered => true
  | .discovered, .priority => false
  | _, _ => left.handshake ≤ right.handshake

/-- A candidate joins the bucket of its subnet, or opens one behind the others. -/
def addToBucket (buckets : List (SubnetKey × List (DialCandidate α)))
    (candidate : DialCandidate α)
    : List (SubnetKey × List (DialCandidate α)) :=
  match buckets with
  | [] => [(SubnetKey.of candidate.address, [candidate])]
  | (key, members) :: rest =>
      if key = SubnetKey.of candidate.address then (key, members ++ [candidate]) :: rest
      else (key, members) :: addToBucket rest candidate

/-- The loop over the buckets: one candidate of each that has any, until none is left. -/
def spreadPasses : Nat → List (List (DialCandidate α)) → List (DialCandidate α)
  | 0, _ => []
  | passes + 1, buckets =>
      let rest := buckets.map List.tail
      buckets.filterMap List.head?
        ++ if rest.any (fun bucket => !bucket.isEmpty) then spreadPasses passes rest else []

/-- `spread_across_subnets`. No bucket outlasts as many passes as there are candidates. -/
def spreadAcrossSubnets (candidates : List (DialCandidate α)) : List (DialCandidate α) :=
  let priority := candidates.filter (fun candidate => candidate.origin = .priority)
  let buckets :=
    (candidates.filter (fun candidate => candidate.origin ≠ .priority)).foldl addToBucket []
  priority ++ spreadPasses candidates.length (buckets.map Prod.snd)

/-- `most_credible`. -/
def mostCredible (candidates : List (DialCandidate α)) (slots : Nat)
    : List (DialCandidate α) :=
  let ranked := candidates.mergeSort DialCandidate.ranksBefore
  let distinct := distinctBy DialCandidate.address ranked
  (spreadAcrossSubnets distinct).take slots

end ChiaQuery
