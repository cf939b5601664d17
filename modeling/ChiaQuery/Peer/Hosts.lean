import ChiaQuery.Peer.PoolEntries
import Mathlib.Data.Finset.Card

/-! Hosts behind addresses. The dialling code reads an IPv4-mapped IPv6 address as the IPv4 host
it names, while the selection of corroborators and both counts key peers by the address's IP as
it is spelt.
-/

namespace ChiaQuery

open ChiaQuery.Library

/-- `Ipv6Addr::to_ipv4_mapped`: the IPv4 address of `::ffff:a.b.c.d`. -/
def toIpv4Mapped (bits : BitVec 128) : Option (BitVec 32) :=
  if bits.toNat / 2 ^ 32 = 65535 then some (BitVec.ofNat 32 bits.toNat) else none

/-- The host an address names, as `is_host_local` reads it. -/
def IpAddr.host : IpAddr → IpAddr
  | .v6 bits =>
      match toIpv4Mapped bits with
      | some mapped => .v4 mapped
      | none => .v6 bits
  | .v4 bits => .v4 bits

/-- `is_host_local`: this host or its local network rather than a peer on the internet. -/
def isHostLocal (address : SocketAddr) : Bool :=
  match address.ip.host with
  | .v4 bits =>
      let first := bits.toNat / 2 ^ 24
      let firstTwo := bits.toNat / 2 ^ 16
      first = 127
        || first = 10 || firstTwo / 16 = 172 * 16 + 1 || firstTwo = 192 * 256 + 168
        || firstTwo = 169 * 256 + 254
        || bits = 0
        || bits = BitVec.allOnes 32
  | .v6 bits =>
      let segment := BitVec.ofNat 16 (bits.toNat / 2 ^ 112)
      bits = 1 || bits = 0
        || segment &&& 0xfe00 = 0xfc00
        || segment &&& 0xffc0 = 0xfe80

/-- How many peers besides the asked one the pool found able to corroborate. -/
def CorroborationReadiness.corroborators : CorroborationReadiness → Nat
  | .armed corroborators => corroborators
  | .insufficient corroborators _ => corroborators

namespace PeerPool

/-- `independent_peer_count`. -/
def independentPeerCount (entries : List PeerEntry) : Nat :=
  (distinctBy (fun entry => entry.address.ip)
    (entries.filter (fun entry => entry.origin = .discovered))).length

/-- The hosts the pool's discovered peers are on. -/
def discoveredHosts (entries : List PeerEntry) : Finset IpAddr :=
  ((entries.filter (fun entry => entry.origin = .discovered)).map
    (fun entry => entry.address.ip.host)).toFinset

/-- A host has one voice: it is selected and counted once at most, and not for an answer that it
gave itself.
-/
structure OneVoicePerHost (entries : List PeerEntry) (asked : SocketAddr) : Prop where
  distinctHosts :
    ((selectCorroboratingPeers entries asked).map (fun peer => peer.2.ip.host)).Nodup
  otherHosts : ∀ peer ∈ selectCorroboratingPeers entries asked, peer.2.ip.host ≠ asked.ip.host
  readiness :
    (corroborationReadiness entries asked).corroborators
      ≤ ((discoveredHosts entries).erase asked.ip.host).card
  independent : independentPeerCount entries ≤ (discoveredHosts entries).card

/-- Every host among the discovered peers is spelt in one way, and the asked peer's host in the
way the asked peer spells it.
-/
structure HostsSpeltOnce (entries : List PeerEntry) (asked : SocketAddr) : Prop where
  held :
    ∀ left ∈ entries, ∀ right ∈ entries,
      left.origin = .discovered → right.origin = .discovered →
      left.address.ip.host = right.address.ip.host → left.address.ip = right.address.ip
  asked :
    ∀ entry ∈ entries, entry.origin = .discovered →
      entry.address.ip.host = asked.ip.host → entry.address.ip = asked.ip

variable {entries : List PeerEntry} {asked : SocketAddr}

theorem mem_discoveredHosts {entry : PeerEntry} (held : entry ∈ entries)
    (discovered : entry.origin = .discovered)
    : entry.address.ip.host ∈ discoveredHosts entries := by
  rw [discoveredHosts, List.mem_toFinset]
  exact List.mem_map_of_mem (List.mem_filter.mpr ⟨held, by simpa using discovered⟩)

/-- Readiness reports the number of corroborators, whichever way it decides. -/
theorem corroborationReadiness_corroborators (entries : List PeerEntry) (asked : SocketAddr)
    : (corroborationReadiness entries asked).corroborators
      = (corroborators entries asked).length := by
  unfold corroborationReadiness
  dsimp only
  split <;> rfl

/-- The selection's hosts are those of the corroborators. -/
theorem selectCorroboratingPeers_hosts (entries : List PeerEntry) (asked : SocketAddr)
    : (selectCorroboratingPeers entries asked).map (fun peer => peer.2.ip.host)
      = (corroborators entries asked).map (fun entry => entry.address.ip.host) := by
  simp [selectCorroboratingPeers, Function.comp_def]

/-- Peers with different IPs whose hosts are spelt once are on different hosts. -/
theorem hosts_nodup {peers : List PeerEntry}
    (distinctIps : (peers.map (fun entry => entry.address.ip)).Nodup)
    (spelt
      : ∀ left ∈ peers, ∀ right ∈ peers,
          left.address.ip.host = right.address.ip.host → left.address.ip = right.address.ip)
    : (peers.map (fun entry => entry.address.ip.host)).Nodup := by
  have distinct : peers.Nodup := List.Nodup.of_map _ distinctIps
  refine List.Nodup.map_on ?_ distinct
  intro left leftMember right rightMember same
  exact List.inj_on_of_nodup_map distinctIps leftMember rightMember
    (spelt left leftMember right rightMember same)

/-- Peers on different hosts are at most as many as the hosts they are on. -/
theorem length_le_card_hosts {peers : List PeerEntry} {hosts : Finset IpAddr}
    (distinct : (peers.map (fun entry => entry.address.ip.host)).Nodup)
    (inside : ∀ entry ∈ peers, entry.address.ip.host ∈ hosts)
    : peers.length ≤ hosts.card := by
  calc peers.length
      = (peers.map (fun entry => entry.address.ip.host)).length := (List.length_map _).symm
    _ = (peers.map (fun entry => entry.address.ip.host)).toFinset.card :=
        (List.toFinset_card_of_nodup distinct).symm
    _ ≤ hosts.card := by
        refine Finset.card_le_card ?_
        intro host member
        obtain ⟨entry, peer, rfl⟩ := List.mem_map.mp (List.mem_toFinset.mp member)
        exact inside entry peer

/-- A corroborator on the asked host would have been refused, had the host been spelt once. -/
theorem HostsSpeltOnce.corroborator_elsewhere (spelt : HostsSpeltOnce entries asked)
    {entry : PeerEntry} (member : entry ∈ corroborators entries asked)
    : entry.address.ip.host ≠ asked.ip.host := by
  obtain ⟨held, otherIp, discovered⟩ := mem_corroborators member
  intro same
  exact otherIp (spelt.asked entry held discovered same)

theorem HostsSpeltOnce.corroborators_hosts_nodup (spelt : HostsSpeltOnce entries asked)
    : ((corroborators entries asked).map (fun entry => entry.address.ip.host)).Nodup := by
  refine hosts_nodup (PeerPool.corroborators_hosts_nodup entries asked) ?_
  intro left leftMember right rightMember
  obtain ⟨leftHeld, -, leftDiscovered⟩ := mem_corroborators leftMember
  obtain ⟨rightHeld, -, rightDiscovered⟩ := mem_corroborators rightMember
  exact spelt.held left leftHeld right rightHeld leftDiscovered rightDiscovered

/-- The peers `independent_peer_count` counts are discovered peers of the pool. -/
theorem mem_independent {entry : PeerEntry}
    (member
      : entry ∈ distinctBy (fun entry => entry.address.ip)
          (entries.filter (fun entry => entry.origin = .discovered)))
    : entry ∈ entries ∧ entry.origin = .discovered := by
  have h := List.mem_filter.mp (mem_of_mem_distinctBy member)
  simpa using h

/-- Where every host is spelt once, counting IPs counts hosts. -/
theorem HostsSpeltOnce.oneVoicePerHost (spelt : HostsSpeltOnce entries asked)
    : OneVoicePerHost entries asked where
  distinctHosts := by
    rw [selectCorroboratingPeers_hosts]
    exact spelt.corroborators_hosts_nodup
  otherHosts := by
    intro peer member
    obtain ⟨entry, selected, rfl⟩ := List.mem_map.mp member
    exact spelt.corroborator_elsewhere selected
  readiness := by
    rw [corroborationReadiness_corroborators]
    refine length_le_card_hosts spelt.corroborators_hosts_nodup ?_
    intro entry member
    obtain ⟨held, -, discovered⟩ := mem_corroborators member
    exact Finset.mem_erase.mpr
      ⟨spelt.corroborator_elsewhere member, mem_discoveredHosts held discovered⟩
  independent := by
    refine length_le_card_hosts (hosts_nodup (distinctBy_keys_nodup _ _) ?_) ?_
    · intro left leftMember right rightMember
      obtain ⟨leftHeld, leftDiscovered⟩ := mem_independent leftMember
      obtain ⟨rightHeld, rightDiscovered⟩ := mem_independent rightMember
      exact spelt.held left leftHeld right rightHeld leftDiscovered rightDiscovered
    · intro entry member
      obtain ⟨held, discovered⟩ := mem_independent member
      exact mem_discoveredHosts held discovered

/-- `independent_peer_count` is the number of IPs among the discovered peers. -/
theorem independentPeerCount_eq_card (entries : List PeerEntry)
    : independentPeerCount entries
      = ((entries.filter (fun entry => entry.origin = .discovered)).map
          (fun entry => entry.address.ip)).toFinset.card :=
  length_distinctBy _ _

/-- Counting no more IPs than hosts spells every host among the discovered peers once. -/
theorem OneVoicePerHost.spells_held (voices : OneVoicePerHost entries asked)
    {left right : PeerEntry} (leftHeld : left ∈ entries) (rightHeld : right ∈ entries)
    (leftDiscovered : left.origin = .discovered)
    (rightDiscovered : right.origin = .discovered)
    (same : left.address.ip.host = right.address.ip.host)
    : left.address.ip = right.address.ip := by
  set ips := ((entries.filter (fun entry => entry.origin = .discovered)).map
    (fun entry => entry.address.ip)).toFinset with hips
  have hosts : discoveredHosts entries = ips.image IpAddr.host := by
    ext host
    simp [discoveredHosts, hips]
  have counted := voices.independent
  rw [independentPeerCount_eq_card, hosts] at counted
  have injective : Set.InjOn IpAddr.host ips :=
    Finset.card_image_iff.mp (le_antisymm Finset.card_image_le counted)
  have ofDiscovered : ∀ entry ∈ entries, entry.origin = .discovered
      → entry.address.ip ∈ ips := by
    intro entry held discovered
    rw [hips, List.mem_toFinset]
    exact List.mem_map_of_mem (List.mem_filter.mpr ⟨held, by simpa using discovered⟩)
  exact injective (ofDiscovered left leftHeld leftDiscovered)
    (ofDiscovered right rightHeld rightDiscovered) same

/-- A discovered peer that spells the asked host in another way has its IP selected. -/
theorem OneVoicePerHost.spells_asked (voices : OneVoicePerHost entries asked) {entry : PeerEntry}
    (held : entry ∈ entries) (discovered : entry.origin = .discovered)
    (same : entry.address.ip.host = asked.ip.host)
    : entry.address.ip = asked.ip := by
  by_contra otherIp
  have qualifies : entry ∈ entries.filter (fun entry => isCorroborator entry asked) :=
    List.mem_filter.mpr ⟨held, by simp [isCorroborator, otherIp, discovered]⟩
  have kept : entry.address.ip
      ∈ (corroborators entries asked).map (fun entry => entry.address.ip) :=
    mem_keys_distinctBy qualifies
  obtain ⟨chosen, selected, sameIp⟩ := List.mem_map.mp kept
  have elsewhere := voices.otherHosts (chosen.peer, chosen.address)
    (List.mem_map_of_mem selected)
  rw [sameIp] at elsewhere
  exact elsewhere same

/-- A pool gives every host one voice exactly when it spells no host in two ways. -/
theorem oneVoicePerHost_iff (entries : List PeerEntry) (asked : SocketAddr)
    : OneVoicePerHost entries asked ↔ HostsSpeltOnce entries asked := by
  constructor
  · intro voices
    exact {
      held := fun left leftHeld right rightHeld leftDiscovered rightDiscovered same =>
        voices.spells_held leftHeld rightHeld leftDiscovered rightDiscovered same
      asked := fun entry held discovered same => voices.spells_asked held discovered same
    }
  · exact HostsSpeltOnce.oneVoicePerHost

------------------------------------------------------------------------------------------
-- One voice for each IP
------------------------------------------------------------------------------------------

/-- The IPs of the pool's discovered peers. -/
def discoveredIps (entries : List PeerEntry) : Finset IpAddr :=
  ((entries.filter (fun entry => entry.origin = .discovered)).map
    (fun entry => entry.address.ip)).toFinset

/-- Readiness counts the peers that are selected: one for each discovered IP but the asked
peer's, whatever that peer's origin, and never a priority peer.
-/
structure VoicesCounted (entries : List PeerEntry) (asked : SocketAddr) : Prop where
  selected :
    (corroborationReadiness entries asked).corroborators
      = (selectCorroboratingPeers entries asked).length
  shared :
    (∃ entry ∈ entries, entry.origin = .discovered ∧ entry.address.ip = asked.ip)
    → (corroborationReadiness entries asked).corroborators + 1 = independentPeerCount entries
  apart :
    (¬ ∃ entry ∈ entries, entry.origin = .discovered ∧ entry.address.ip = asked.ip)
    → (corroborationReadiness entries asked).corroborators = independentPeerCount entries
  reordered :
    ∀ other : List PeerEntry, other.Perm entries
      → (corroborationReadiness other asked).corroborators
          = (corroborationReadiness entries asked).corroborators
        ∧ independentPeerCount other = independentPeerCount entries
  discoveredOnly :
    ∀ peer ∈ selectCorroboratingPeers entries asked,
      ∃ entry ∈ entries, entry.origin = .discovered ∧ (entry.peer, entry.address) = peer
  withoutPriority :
    selectCorroboratingPeers (entries.filter (fun entry => entry.origin = .discovered)) asked
        = selectCorroboratingPeers entries asked
      ∧ independentPeerCount (entries.filter (fun entry => entry.origin = .discovered))
        = independentPeerCount entries

theorem mem_discoveredIps {ip : IpAddr}
    : ip ∈ discoveredIps entries
      ↔ ∃ entry ∈ entries, entry.origin = .discovered ∧ entry.address.ip = ip := by
  simp [discoveredIps, and_assoc]

/-- There is one corroborator for each discovered IP that is not the asked peer's. -/
theorem corroborators_length (entries : List PeerEntry) (asked : SocketAddr)
    : (corroborators entries asked).length = ((discoveredIps entries).erase asked.ip).card := by
  rw [corroborators, length_distinctBy]
  congr 1
  ext ip
  rw [Finset.mem_erase, mem_discoveredIps, List.mem_toFinset, List.mem_map]
  constructor
  · rintro ⟨entry, member, rfl⟩
    obtain ⟨held, qualifies⟩ := List.mem_filter.mp member
    simp only [isCorroborator, Bool.and_eq_true, decide_eq_true_eq] at qualifies
    exact ⟨qualifies.1, entry, held, qualifies.2, rfl⟩
  · rintro ⟨elsewhere, entry, held, discovered, rfl⟩
    exact ⟨entry, List.mem_filter.mpr ⟨held, by simp [isCorroborator, elsewhere, discovered]⟩,
      rfl⟩

/-- The same entries in another order have the same IPs. -/
theorem discoveredIps_perm {other : List PeerEntry} (perm : other.Perm entries)
    : discoveredIps other = discoveredIps entries := by
  ext ip
  simp only [mem_discoveredIps, perm.mem_iff]

theorem voicesCounted (entries : List PeerEntry) (asked : SocketAddr)
    : VoicesCounted entries asked where
  selected := by
    rw [corroborationReadiness_corroborators, selectCorroboratingPeers, List.length_map]
  shared := by
    intro shared
    have held := mem_discoveredIps.mpr shared
    rw [corroborationReadiness_corroborators, corroborators_length,
      independentPeerCount_eq_card]
    exact Finset.card_erase_add_one held
  apart := by
    intro apart
    have missing : asked.ip ∉ discoveredIps entries :=
      fun held => apart (mem_discoveredIps.mp held)
    rw [corroborationReadiness_corroborators, corroborators_length,
      independentPeerCount_eq_card, Finset.erase_eq_of_notMem missing]
    rfl
  reordered := by
    intro other perm
    have same := discoveredIps_perm perm
    constructor
    · rw [corroborationReadiness_corroborators, corroborationReadiness_corroborators,
        corroborators_length, corroborators_length, same]
    · rw [independentPeerCount_eq_card, independentPeerCount_eq_card]
      exact congrArg Finset.card same
  discoveredOnly := by
    intro peer member
    obtain ⟨entry, chosen, same⟩ := List.mem_map.mp member
    obtain ⟨held, -, discovered⟩ := mem_corroborators chosen
    exact ⟨entry, held, discovered, same⟩
  withoutPriority := by
    constructor
    · rw [selectCorroboratingPeers, selectCorroboratingPeers, corroborators, corroborators,
        List.filter_filter]
      congr 2
      refine List.filter_congr (fun entry _ => ?_)
      simp [isCorroborator]
    · rw [independentPeerCount, independentPeerCount, List.filter_filter]
      simp only [Bool.and_self]

------------------------------------------------------------------------------------------
-- A host in two spellings
------------------------------------------------------------------------------------------

/-- A discovered peer held at an address. -/
def entryAt (number : Nat) (address : SocketAddr) : PeerEntry :=
  { sampleEntry number with peer := { connection := number, socketAddr := address }, address }

/-- `203.0.113.5:8444`. -/
def plainAddress : SocketAddr :=
  { ip := .v4 (BitVec.ofNat 32 3405803781), port := 8444 }

/-- `[::ffff:203.0.113.5]:8444`. -/
def mappedAddress : SocketAddr :=
  { ip := .v6 (BitVec.ofNat 128 (65535 * 2 ^ 32 + 3405803781)), port := 8444 }

/-- A host held in both spellings counts as two independent peers. -/
theorem mapped_host_counts_twice
    : ¬ ∀ (entries : List PeerEntry) (asked : SocketAddr), OneVoicePerHost entries asked := by
  intro claim
  have independent :=
    (claim [entryAt 1 plainAddress, entryAt 2 mappedAddress] (sampleEntry 3).address).independent
  revert independent
  decide

end PeerPool

end ChiaQuery
