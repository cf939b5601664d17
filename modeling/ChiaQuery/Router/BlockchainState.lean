import ChiaQuery.Peer.Hosts
import ChiaQuery.Peer.LagEviction
import ChiaQuery.Types.Records

/-! The state of the chain as the peer tier reports it. The height is the median over all peers
that announced one, and whether the node counts as synced rests on how many discovered hosts the
pool holds, whatever those have announced.
-/

namespace ChiaQuery

open ChiaQuery.Library

/-- `SyncState`. -/
structure SyncState where
  syncMode : Bool
  syncProgressHeight : UInt32
  syncTipHeight : UInt32
  synced : Bool
  deriving DecidableEq, Repr

/-- `BlockchainState`, with the fields the peer tier fills in. -/
structure BlockchainState where
  peak : Option BlockRecord := none
  sync : Option SyncState := none
  deriving DecidableEq, Repr

namespace PeerPool

/-- The peaks the pool's peers have announced, of every origin. -/
def announcedPeaks (entries : List PeerEntry) : List UInt32 :=
  (entries.map PeerEntry.lastPeak).filter (fun peak => 0 < peak)

/-- `peak_height`. -/
def peakHeight (entries : List PeerEntry) : UInt32 :=
  (referencePeak (announcedPeaks entries)).getD 0

/-- The IPs of the discovered peers that announced a height or a greater one. -/
def hostsAt (entries : List PeerEntry) (height : UInt32) : Finset IpAddr :=
  ((entries.filter (fun entry => entry.origin = .discovered && height ≤ entry.lastPeak)).map
    (fun entry => entry.address.ip)).toFinset

/-- Whether at least half of the announced peaks are at or below a peer's own. -/
def keepsUp (announced : List UInt32) (entry : PeerEntry) : Bool :=
  announced.length ≤ 2 * announced.countP (fun peak => decide (peak ≤ entry.lastPeak))

/-- The IPs of the discovered peers that keep up with the announced peaks. -/
def hostsKeepingUp (announced : List UInt32) (entries : List PeerEntry) : Finset IpAddr :=
  ((entries.filter (fun entry => entry.origin = .discovered && keepsUp announced entry)).map
    (fun entry => entry.address.ip)).toFinset

end PeerPool

/-- What coinset contributes to `get_blockchain_state`: nothing while the fallback is off. -/
def coinsetState (coinsetFallbackEnabled : Bool)
    (coinset : Except ChiaQueryError BlockchainState)
    : Option BlockchainState :=
  if coinsetFallbackEnabled then coinset.toOption else none

/-- The minimal state `get_blockchain_state` reports from the peers' peak. -/
def peerState (peak : UInt32) (synced : Bool) : BlockchainState where
  peak := some { headerHash := "", height := peak, timestamp := none }
  sync := some {
    synced,
    syncMode := false,
    syncProgressHeight := peak,
    syncTipHeight := peak
  }

/-- `get_blockchain_state`. The pool is locked once for the height and once for the count. -/
def getBlockchainState (coinsetFallbackEnabled : Bool)
    (coinset : Except ChiaQueryError BlockchainState) (atPeak atCount : List PeerEntry)
    : Except ChiaQueryError BlockchainState :=
  match coinsetState coinsetFallbackEnabled coinset with
  | some state => .ok state
  | none =>
      let peak := PeerPool.peakHeight atPeak
      if peak = 0 then .error (.peerConnection "no peak observed from peers yet")
      else .ok (peerState peak (corroborationFloor ≤ PeerPool.independentPeerCount atCount))

/-- An answer that says synced reports a height that the floor of discovered peers, on different
IPs, announced themselves.
-/
def SyncIsVouchedFor (entries : List PeerEntry)
    (answer : Except ChiaQueryError BlockchainState)
    : Prop :=
  ∀ state sync,
    answer = .ok state → state.sync = some sync → sync.synced = true
    → ∃ block, state.peak = some block
        ∧ corroborationFloor ≤ (PeerPool.hostsAt entries block.height).card

/-- A pool that is short of discovered hosts, or has enough that keep up with what was
announced.
-/
def KeepsUpOrShort (announced : List UInt32) (entries : List PeerEntry) : Prop :=
  PeerPool.independentPeerCount entries < corroborationFloor
  ∨ corroborationFloor ≤ (PeerPool.hostsKeepingUp announced entries).card

namespace PeerPool

/-- A pool reports no height before the first announcement. -/
theorem peakHeight_of_silent {entries : List PeerEntry} (silent : announcedPeaks entries = [])
    : peakHeight entries = 0 := by
  simp [peakHeight, referencePeak, silent]

/-- The lower median of the announced peaks is one of them, so it is not zero. -/
theorem peakHeight_of_announced {entries : List PeerEntry}
    (announced : announcedPeaks entries ≠ [])
    : lowerMedian (announcedPeaks entries) = some (peakHeight entries)
      ∧ peakHeight entries ≠ 0 := by
  obtain ⟨median, found⟩ := exists_lowerMedian announced
  have reported : peakHeight entries = median := by
    simp [peakHeight, referencePeak, announced, found]
  rw [reported]
  refine ⟨found, ?_⟩
  rintro rfl
  have positive := (List.mem_filter.mp (lowerMedian_mem found)).2
  simp at positive

/-- Among the peers of a pool that reports a height, those keep up that announced it. -/
theorem hostsKeepingUp_eq {atPeak : List PeerEntry} (announced : announcedPeaks atPeak ≠ [])
    (entries : List PeerEntry)
    : hostsKeepingUp (announcedPeaks atPeak) entries = hostsAt entries (peakHeight atPeak) := by
  have reaches := (peakHeight_of_announced announced).1
  simp only [hostsKeepingUp, hostsAt, keepsUp, lowerMedian_le_iff reaches]

/-- Before the first announcement every discovered peer keeps up. -/
theorem hostsKeepingUp_of_silent (entries : List PeerEntry)
    : (hostsKeepingUp [] entries).card = independentPeerCount entries := by
  rw [independentPeerCount_eq_card]
  simp [hostsKeepingUp, keepsUp]

end PeerPool

theorem getBlockchainState_of_peak {coinsetFallbackEnabled : Bool}
    {coinset : Except ChiaQueryError BlockchainState} {atPeak : List PeerEntry}
    (unanswered : coinsetState coinsetFallbackEnabled coinset = none) (atCount : List PeerEntry)
    (spoken : PeerPool.peakHeight atPeak ≠ 0)
    : getBlockchainState coinsetFallbackEnabled coinset atPeak atCount
      = .ok (peerState (PeerPool.peakHeight atPeak)
          (corroborationFloor ≤ PeerPool.independentPeerCount atCount)) := by
  simp [getBlockchainState, unanswered, spoken]

/-- The state reported at a height is vouched for unless it says synced without the support. -/
theorem peerState_vouchedFor_iff {entries : List PeerEntry} {peak : UInt32} {synced : Bool}
    : SyncIsVouchedFor entries (.ok (peerState peak synced))
      ↔ (synced = true → corroborationFloor ≤ (PeerPool.hostsAt entries peak).card) := by
  constructor
  · intro vouched isSynced
    obtain ⟨block, reported, support⟩ := vouched (peerState peak synced) _ rfl rfl isSynced
    cases reported
    exact support
  · rintro supported state sync ⟨⟩ ⟨⟩ isSynced
    exact ⟨_, rfl, supported isSynced⟩

/-- While coinset does not answer, synced is vouched for exactly where the pool keeps up with the
peaks it was announced, or holds too few discovered hosts to say it.
-/
theorem synced_is_vouched_for_iff {coinsetFallbackEnabled : Bool}
    {coinset : Except ChiaQueryError BlockchainState}
    (unanswered : coinsetState coinsetFallbackEnabled coinset = none)
    (atPeak atCount : List PeerEntry)
    : SyncIsVouchedFor atCount
        (getBlockchainState coinsetFallbackEnabled coinset atPeak atCount)
      ↔ KeepsUpOrShort (PeerPool.announcedPeaks atPeak) atCount := by
  by_cases silent : PeerPool.announcedPeaks atPeak = []
  · have height := PeerPool.peakHeight_of_silent silent
    have refused : SyncIsVouchedFor atCount
        (getBlockchainState coinsetFallbackEnabled coinset atPeak atCount) := by
      intro state sync answered
      simp [getBlockchainState, unanswered, height] at answered
    refine iff_of_true refused ?_
    rw [silent, KeepsUpOrShort, PeerPool.hostsKeepingUp_of_silent]
    omega
  · obtain ⟨-, spoken⟩ := PeerPool.peakHeight_of_announced silent
    have answer := getBlockchainState_of_peak unanswered atCount spoken
    rw [answer, peerState_vouchedFor_iff, KeepsUpOrShort, PeerPool.hostsKeepingUp_eq silent,
      decide_eq_true_iff]
    omega

theorem synced_is_vouched_for_sample
    : SyncIsVouchedFor samplePool
        (getBlockchainState true (.error .peerDiscoveryFailed) samplePool samplePool) :=
  (synced_is_vouched_for_iff rfl samplePool samplePool).mpr (Or.inr (by decide +kernel))

/-- One trusted peer that announced a height, and two discovered ones that never spoke. -/
def quietPool : List PeerEntry :=
  [
    { sampleEntry 1 with origin := .priority, lastPeak := 4294967295 },
    { sampleEntry 2 with lastPeak := 0 },
    { sampleEntry 3 with lastPeak := 0 }
  ]

/-- The silent peers' connections alone make the trusted peer's height a synced one. -/
theorem silent_peers_count_as_support
    : ¬ ∀ (coinset : Except ChiaQueryError BlockchainState) (entries : List PeerEntry),
        coinsetState true coinset = none
        → SyncIsVouchedFor entries (getBlockchainState true coinset entries entries) := by
  intro claim
  have reported : PeerPool.peakHeight quietPool = 4294967295 := by
    simp [PeerPool.peakHeight, PeerPool.announcedPeaks, quietPool, sampleEntry, referencePeak,
      lowerMedian, ascending]
  have spoken : PeerPool.peakHeight quietPool ≠ 0 := by
    rw [reported]
    decide
  have unanswered : coinsetState true (.error .peerDiscoveryFailed) = none := rfl
  have vouched := claim (.error .peerDiscoveryFailed) quietPool unanswered
  rw [getBlockchainState_of_peak unanswered quietPool spoken, peerState_vouchedFor_iff,
    reported] at vouched
  have support := vouched (by decide +kernel)
  exact absurd support (by decide +kernel)

end ChiaQuery
