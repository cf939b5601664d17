import ChiaQuery.Peer.DialRound
import ChiaQuery.Peer.Hosts

/-! The discovered addresses a dial goes on to attempt. They are made distinct, shuffled and
capped before the addresses that are never dialled are dropped, so such an address can take the
place of one that would have been dialled.
-/

namespace ChiaQuery

open ChiaQuery.Library

/-- `QUORUM_SAMPLE`. -/
def quorumSample : Nat := 4

/-- `default_max_peers`. -/
def defaultMaxPeers : Nat := prioritySlots + 1 + quorumSample + 1

/-- `MAX_DISCOVERED_CANDIDATES`. -/
def maxDiscoveredCandidates : Nat := defaultMaxPeers * dialOversubscription

/-- `connect::BATCH_SIZE`. -/
def batchSize : Nat := 10

/-- What the random generator makes of every list it is given: some order of it. -/
structure Shuffle where
  shuffle : List SocketAddr → List SocketAddr
  permutes : ∀ addresses, (shuffle addresses).Perm addresses

/-- `SocketAddr::is_ipv6`. -/
def SocketAddr.isIpv6 (address : SocketAddr) : Bool :=
  match address.ip with
  | .v4 _ => false
  | .v6 _ => true

/-- `order_candidates`. -/
def orderCandidates (candidates : List SocketAddr) : List SocketAddr :=
  let (v6, v4) := candidates.partition SocketAddr.isIpv6
  v6 ++ v4

/-- `candidate_order`. -/
def candidateOrder (random : Shuffle) (discovered : List SocketAddr) : List SocketAddr :=
  let distinct := distinctBy id discovered
  orderCandidates ((random.shuffle distinct).take maxDiscoveredCandidates)

/-- `priority_addresses_from`, for the IP that `TRUSTED_FULLNODE` parses to if it does. -/
def priorityAddressesFrom (trusted : Option IpAddr) (defaultPort : UInt16)
    (exclude : List SocketAddr)
    : List SocketAddr :=
  let localhost : IpAddr := .v4 0x7f000001
  ((trusted.toList ++ [localhost]).map (fun ip => SocketAddr.mk ip defaultPort)).filter
    (fun address => address ∉ exclude)

/-- Whether a discovered address may be dialled at all. -/
def isDialable (priorityAddrs exclude : List SocketAddr) (address : SocketAddr) : Bool :=
  !isHostLocal address && address ∉ priorityAddrs && address ∉ exclude

/-- The discovered addresses that `connect_random_peer_excluding` goes on to attempt. -/
def discoveredAttempts (random : Shuffle) (discovered priorityAddrs exclude : List SocketAddr)
    : List SocketAddr :=
  (candidateOrder random discovered).filter (isDialable priorityAddrs exclude)

/-- What dials come to: a dial by itself, and the first success among concurrent ones. -/
structure DialOutcomes (α : Type) where
  tryConnect : SocketAddr → Option α
  firstOf : List SocketAddr → Option (SocketAddr × α)
  firstOf_mem : ∀ {chunk address connection},
    firstOf chunk = some (address, connection) → address ∈ chunk

/-- The loop over the chunks: the addresses attempted, and the first success. -/
def dialChunks {α : Type} (outcomes : DialOutcomes α)
    : Nat → List SocketAddr → List SocketAddr × Option (SocketAddr × α)
  | 0, _ => ([], none)
  | chunks + 1, addrs =>
      let chunk := addrs.take batchSize
      match outcomes.firstOf chunk with
      | some connected => (chunk, some connected)
      | none =>
          let (attempted, connected) := dialChunks outcomes chunks (addrs.drop batchSize)
          (chunk ++ attempted, connected)

/-- `connect_random_peer_excluding`. No more chunks are dialled than there are addresses. -/
def connectRandomPeerExcluding {α : Type} (outcomes : DialOutcomes α) (random : Shuffle)
    (trusted : Option IpAddr) (defaultPort : UInt16) (discovered exclude : List SocketAddr)
    : Except ChiaQueryError (α × SocketAddr × PeerOrigin) :=
  let priorityAddrs := priorityAddressesFrom trusted defaultPort exclude
  match priorityAddrs.findSome? (fun address =>
    (outcomes.tryConnect address).map (fun connection => (connection, address)))
  with
  | some (connection, address) => .ok (connection, address, .priority)
  | none =>
      let addrs := discoveredAttempts random discovered priorityAddrs exclude
      if discovered.isEmpty || addrs.isEmpty then .error .peerDiscoveryFailed
      else
        match (dialChunks outcomes addrs.length addrs).2 with
        | some (address, connection) => .ok (connection, address, .discovered)
        | none => .error .peerDiscoveryFailed

/-- The attempts are of distinct addresses that may be dialled, IPv6 first, and addresses that
may not be dialled cost none of them.
-/
structure SlotsForDialable (discovered priorityAddrs exclude attempts : List SocketAddr)
    : Prop where
  distinct : attempts.Nodup
  found : ∀ address ∈ attempts, address ∈ discovered
  notLocal : ∀ address ∈ attempts, isHostLocal address = false
  notHeld : ∀ address ∈ attempts, address ∉ exclude
  notPriority : ∀ address ∈ attempts, address ∉ priorityAddrs
  ipv6First
    : attempts.Pairwise (fun earlier later => later.isIpv6 = true → earlier.isIpv6 = true)
  count
    : attempts.length
      = min maxDiscoveredCandidates
          (discovered.filter (isDialable priorityAddrs exclude)).toFinset.card

/-- The shuffle puts no address that may not be dialled among the considered ones while it puts
one that may behind them.
-/
def NoneCrowdedOut (random : Shuffle) (discovered priorityAddrs exclude : List SocketAddr)
    : Prop :=
  let shuffled := random.shuffle (distinctBy id discovered)
  (∀ address ∈ shuffled.take maxDiscoveredCandidates,
    isDialable priorityAddrs exclude address = true)
  ∨ ∀ address ∈ shuffled.drop maxDiscoveredCandidates,
      isDialable priorityAddrs exclude address = false

variable {random : Shuffle} {discovered priorityAddrs exclude : List SocketAddr}

/-- The attempts are the front part of the addresses that a loop without a success attempts. -/
theorem dialChunks_attempts {α : Type} (outcomes : DialOutcomes α) (chunks : Nat)
    (addrs : List SocketAddr) (enough : addrs.length ≤ chunks)
    : (dialChunks outcomes chunks addrs).1 <+: addrs
      ∧ ((dialChunks outcomes chunks addrs).2 = none
        → (dialChunks outcomes chunks addrs).1 = addrs) := by
  induction chunks generalizing addrs with
  | zero =>
      obtain rfl := List.eq_nil_of_length_eq_zero (Nat.le_zero.mp enough)
      exact ⟨List.prefix_rfl, fun _ => rfl⟩
  | succ chunks ih =>
      rw [dialChunks]
      cases outcomes.firstOf (addrs.take batchSize) with
      | some connected => exact ⟨List.take_prefix _ _, by simp⟩
      | none =>
          have shorter : (addrs.drop batchSize).length ≤ chunks := by
            rw [List.length_drop, batchSize]
            omega
          obtain ⟨front, whole⟩ := ih (addrs.drop batchSize) shorter
          have split := List.take_append_drop batchSize addrs
          constructor
          · have longer := (List.prefix_append_right_inj (addrs.take batchSize)).mpr front
            rwa [split] at longer
          · intro nobody
            dsimp only
            rw [whole nobody, split]

/-- Ordering by family only reorders. -/
theorem orderCandidates_perm (candidates : List SocketAddr)
    : (orderCandidates candidates).Perm candidates := by
  rw [orderCandidates, List.partition_eq_filter_filter]
  exact List.filter_append_perm SocketAddr.isIpv6 candidates

theorem orderCandidates_ipv6First (candidates : List SocketAddr)
    : (orderCandidates candidates).Pairwise (fun earlier later =>
        later.isIpv6 = true → earlier.isIpv6 = true) := by
  rw [orderCandidates, List.partition_eq_filter_filter]
  refine List.pairwise_append.mpr ⟨?_, ?_, ?_⟩
  · rw [List.pairwise_filter]
    exact List.pairwise_of_forall (fun _ _ earlier _ _ => earlier)
  · rw [List.pairwise_filter]
    refine List.pairwise_of_forall (fun _ later _ notIpv6 ipv6 => ?_)
    simp [ipv6] at notIpv6
  · intro earlier member later _ _
    exact (List.mem_filter.mp member).2

/-- The addresses considered are the front part of the shuffled ones, up to order. -/
theorem candidateOrder_perm (random : Shuffle) (discovered : List SocketAddr)
    : (candidateOrder random discovered).Perm
        ((random.shuffle (distinctBy id discovered)).take maxDiscoveredCandidates) :=
  orderCandidates_perm _

theorem shuffled_nodup (random : Shuffle) (discovered : List SocketAddr)
    : (random.shuffle (distinctBy id discovered)).Nodup := by
  have distinct := distinctBy_keys_nodup id discovered
  rw [List.map_id] at distinct
  exact (random.permutes _).nodup_iff.mpr distinct

theorem mem_shuffled {address : SocketAddr}
    : address ∈ random.shuffle (distinctBy id discovered) ↔ address ∈ discovered := by
  rw [(random.permutes _).mem_iff]
  constructor
  · exact mem_of_mem_distinctBy
  · intro member
    have kept : id address ∈ (distinctBy id discovered).map id := mem_keys_distinctBy member
    rwa [List.map_id] at kept

/-- There are as many dialable addresses as the shuffled list has, before and behind the cap. -/
theorem dialable_card (random : Shuffle) (discovered priorityAddrs exclude : List SocketAddr)
    : (discovered.filter (isDialable priorityAddrs exclude)).toFinset.card
      = ((random.shuffle (distinctBy id discovered)).take maxDiscoveredCandidates).countP
            (isDialable priorityAddrs exclude)
        + ((random.shuffle (distinctBy id discovered)).drop maxDiscoveredCandidates).countP
            (isDialable priorityAddrs exclude) := by
  have same : (discovered.filter (isDialable priorityAddrs exclude)).toFinset
      = ((random.shuffle (distinctBy id discovered)).filter
          (isDialable priorityAddrs exclude)).toFinset := by
    ext address
    simp [mem_shuffled]
  rw [same, List.toFinset_card_of_nodup ((shuffled_nodup random discovered).filter _),
    ← List.countP_eq_length_filter, ← List.countP_append, List.take_append_drop]

theorem discoveredAttempts_length (random : Shuffle)
    (discovered priorityAddrs exclude : List SocketAddr)
    : (discoveredAttempts random discovered priorityAddrs exclude).length
      = ((random.shuffle (distinctBy id discovered)).take maxDiscoveredCandidates).countP
          (isDialable priorityAddrs exclude) := by
  rw [discoveredAttempts, ← List.countP_eq_length_filter, (candidateOrder_perm _ _).countP_eq]

/-- A cut list has as many elements of a kind as it has room for exactly when the front part is
all of the kind or the part behind has none of it.
-/
theorem countP_take_eq_min_iff {α : Type*} (kind : α → Bool) (items : List α) (cut : Nat)
    : (items.take cut).countP kind
        = min cut ((items.take cut).countP kind + (items.drop cut).countP kind)
      ↔ (∀ item ∈ items.take cut, kind item = true)
        ∨ ∀ item ∈ items.drop cut, kind item = false := by
  have room : (items.take cut).countP kind ≤ (items.take cut).length := List.countP_le_length
  have front : (items.take cut).countP kind = (items.take cut).length
      ↔ ∀ item ∈ items.take cut, kind item = true :=
    List.countP_eq_length
  have back : (items.drop cut).countP kind = 0 ↔ ∀ item ∈ items.drop cut, kind item = false := by
    simp [List.countP_eq_zero]
  have short : (items.drop cut).countP kind ≤ (items.drop cut).length := List.countP_le_length
  rw [← front, ← back]
  rw [List.length_take] at room ⊢
  rw [List.length_drop] at short
  omega

/-- The attempts are what they should be, whatever the shuffle, but for their number: that is
right exactly when no dialable address is crowded out by one that is not.
-/
theorem slots_for_dialable_iff (random : Shuffle)
    (discovered priorityAddrs exclude : List SocketAddr)
    : SlotsForDialable discovered priorityAddrs exclude
          (discoveredAttempts random discovered priorityAddrs exclude)
      ↔ NoneCrowdedOut random discovered priorityAddrs exclude := by
  have count : (discoveredAttempts random discovered priorityAddrs exclude).length
        = min maxDiscoveredCandidates
            (discovered.filter (isDialable priorityAddrs exclude)).toFinset.card
      ↔ NoneCrowdedOut random discovered priorityAddrs exclude := by
    rw [discoveredAttempts_length, dialable_card random, countP_take_eq_min_iff]
    exact Iff.rfl
  have considered {address : SocketAddr}
      (member : address ∈ discoveredAttempts random discovered priorityAddrs exclude)
      : address ∈ discovered ∧ isDialable priorityAddrs exclude address = true := by
    obtain ⟨listed, dialable⟩ := List.mem_filter.mp member
    have shuffled := List.mem_of_mem_take ((candidateOrder_perm _ _).mem_iff.mp listed)
    exact ⟨mem_shuffled.mp shuffled, dialable⟩
  have dialable {address : SocketAddr}
      (member : address ∈ discoveredAttempts random discovered priorityAddrs exclude)
      : isHostLocal address = false ∧ address ∉ priorityAddrs ∧ address ∉ exclude := by
    have passed := (considered member).2
    simpa [isDialable, and_assoc] using passed
  constructor
  · exact fun slots => count.mp slots.count
  · intro noneCrowded
    have distinct : (candidateOrder random discovered).Nodup :=
      (candidateOrder_perm random discovered).nodup_iff.mpr
        ((shuffled_nodup random discovered).sublist (List.take_sublist _ _))
    exact {
      distinct := distinct.filter _
      found := fun address member => (considered member).1
      notLocal := fun address member => (dialable member).1
      notHeld := fun address member => (dialable member).2.2
      notPriority := fun address member => (dialable member).2.1
      ipv6First := (orderCandidates_ipv6First _).sublist List.filter_sublist
      count := count.mpr noneCrowded
    }

/-- As many loopback addresses as a round considers, and a public one behind them. -/
def floodedAddresses : List SocketAddr :=
  (List.range maxDiscoveredCandidates).map (fun number =>
    { ip := .v4 (BitVec.ofNat 32 (2130706433 + number)), port := 8444 })
  ++ [{ ip := .v4 0x08080808, port := 8444 }]

/-- An introducer that floods its answer with loopback addresses keeps the public one from being
dialled when the shuffle leaves it last.
-/
theorem flooded_addresses_crowd_out
    : ¬ ∀ (random : Shuffle) (discovered priorityAddrs exclude : List SocketAddr),
        SlotsForDialable discovered priorityAddrs exclude
          (discoveredAttempts random discovered priorityAddrs exclude) := by
  intro claim
  have count := (claim ⟨id, List.Perm.refl⟩ floodedAddresses [] []).count
  revert count
  decide +kernel

end ChiaQuery
