import ChiaQuery.Library.StreamLoop
import ChiaQuery.Peer.Frames
import ChiaQuery.Peer.LagEviction
import ChiaQuery.Peer.PuzzleQuery
import ChiaQuery.Peer.SetSoundness

/-! How far into the past a corroborated puzzle-hash read can lie behind the pool's reference
peak. Every height in the round is held to the peak its own peer announced, and a lag pass holds
the peaks of the discovered peers to the reference, but not those of the trusted ones, which may
be asked as well.
-/

namespace ChiaQuery

open ChiaQuery.Library

namespace PeerPool

/-- No address is held twice, as `admit` sees to, and every entry's connection is to the address
it was dialled at.
-/
structure KeyedEntries (entries : List PeerEntry) : Prop where
  distinct : DistinctAddresses entries
  dialled : ∀ entry ∈ entries, entry.peer.socketAddr = entry.address

variable {entries : List PeerEntry} {reference : UInt32}

/-- A pass leaves no discovered peer that has spoken further behind than the bar. -/
theorem discovered_near_reference (judged : lagReference entries = some reference)
    {entry : PeerEntry} (held : entry ∈ (evictLaggingPeers entries).1)
    (discovered : entry.origin = .discovered) (spoken : 0 < entry.lastPeak)
    : reference.toNat ≤ entry.lastPeak.toNat + peakLagEviction.toNat := by
  rw [evictLaggingPeers_of_reference judged] at held
  have kept := (List.mem_filter.mp held).2
  simp only [isLagging, discovered, spoken, decide_true, Bool.true_and, Bool.not_eq_true',
    decide_eq_false_iff_not, UInt32.lt_iff_toNat_lt, saturatingSub_toNat] at kept
  omega

theorem KeyedEntries.sublist {fewer : List PeerEntry} (keyed : KeyedEntries entries)
    (shrunk : fewer.Sublist entries)
    : KeyedEntries fewer where
  distinct := List.Nodup.sublist (shrunk.map _) keyed.distinct
  dialled := fun entry held => keyed.dialled entry (shrunk.subset held)

/-- The announced peak of a held connection is its entry's, unless the peer is silent. -/
theorem KeyedEntries.announcedPeak_eq (keyed : KeyedEntries entries) {entry : PeerEntry}
    (held : entry ∈ entries)
    : announcedPeak entries entry.peer.socketAddr
      = if 0 < entry.lastPeak then some entry.lastPeak else none := by
  rw [keyed.dialled entry held, announcedPeak]
  cases found : entries.find? (fun other => other.address = entry.address) with
  | none =>
      have missing := List.find?_eq_none.mp found entry held
      simp at missing
  | some other =>
      have sameAddress : other.address = entry.address := by
        simpa using List.find?_some found
      have same := keyed.distinct.eq_of_address_eq (List.mem_of_find?_eq_some found) held
        sameAddress
      rw [same]
      simp [Option.filter]

/-- How many corroborators of an answer have announced a peak. -/
def spokenCorroborators (entries : List PeerEntry) (asked : SocketAddr) : Nat :=
  (corroborators entries asked).countP (fun entry => 0 < entry.lastPeak)

end PeerPool

namespace PeerBackend

/-- `do_puzzle_hash_query` on one of the pool's connections. -/
def queryPeer (genesisChallenge : Bytes32) (entries : List PeerEntry) (hashes : List String)
    (replies : Peer → Nat → Reply PuzzleStatePage) (peer : Peer)
    : Nat → Loop PuzzleWalk (Except ChiaQueryError (HeightedSet CoinRecord)) :=
  doPuzzleHashQuery genesisChallenge peer.socketAddr
    (PeerPool.announcedPeak entries peer.socketAddr) hashes (replies peer)

/-- The reads of one of the four puzzle-hash and hint reads, whose walks have all come to a
result: what the peers reply, and what their replies are read as.
-/
structure QueryRound (genesisChallenge : Bytes32) (entries : List PeerEntry)
    (nextIdx : UInt64) (hashes : List String)
    where
  askedReplies : Peer → Nat → Reply PuzzleStatePage
  corroboratorReplies : Peer → Nat → Reply PuzzleStatePage
  readAsked : Peer → Except ChiaQueryError (HeightedSet CoinRecord)
  readCorroborator : Peer → Except ChiaQueryError (HeightedSet CoinRecord)
  asked_returns :
    ∀ peer asked,
      pick (.steady entries nextIdx) = .ok (peer, asked)
      → Loop.Returns (queryPeer genesisChallenge entries hashes askedReplies peer)
          (readAsked peer)
  corroborators_return :
    ∀ peer asked,
      pick (.steady entries nextIdx) = .ok (peer, asked)
      → ∀ source ∈ PeerPool.selectCorroboratingPeers entries asked,
          Loop.Returns
            (queryPeer genesisChallenge entries hashes corroboratorReplies source.1)
            (readCorroborator source.1)

/-- What the read returns. -/
def QueryRound.result {genesisChallenge : Bytes32} {entries : List PeerEntry}
    {nextIdx : UInt64} {hashes : List String}
    (round : QueryRound genesisChallenge entries nextIdx hashes) (projection : SetProjection)
    : Except ChiaQueryError (SetAnswer CoinRecord) :=
  (readSetCorroborated (.steady entries nextIdx) round.readAsked round.readCorroborator
    projection).result

/-- Whatever its peers reply, no corroborated puzzle-hash answer without an end height lies
further behind the reference than twice the eviction bar and the settled lag.
-/
def StaysNear (entries : List PeerEntry) (nextIdx : UInt64) (reference : UInt32) : Prop :=
  ∀ genesisChallenge hashes (round : QueryRound genesisChallenge entries nextIdx hashes)
      projection items asOfHeight,
    projection.endHeight = none
    → round.result projection = .ok (.corroborated items asOfHeight)
    → reference.toNat - 2 * peakLagEviction.toNat - settledLag.toNat ≤ asOfHeight.toNat

/-- The peer whose turn it is to be asked is silent or within the bar of the reference, unless
too few corroborators have spoken or nothing can be too far behind.
-/
def AskedKeepsUp (entries : List PeerEntry) (nextIdx : UInt64) (reference : UInt32) : Prop :=
  ∀ asked,
    entries[nextIdx.toNat % entries.length]? = some asked
    → asked.lastPeak = 0
      ∨ reference.toNat ≤ asked.lastPeak.toNat + peakLagEviction.toNat
      ∨ PeerPool.spokenCorroborators entries asked.address < corroborationFloor
      ∨ reference.toNat ≤ 2 * peakLagEviction.toNat + settledLag.toNat

variable {entries : List PeerEntry} {nextIdx : UInt64} {reference : UInt32}
  {genesisChallenge : Bytes32} {hashes : List String}

/-- A peer that answers has spoken, and answers as of no height below the bar under its peak. -/
theorem answered_near_peak (keyed : PeerPool.KeyedEntries entries) {entry : PeerEntry}
    (held : entry ∈ entries) {replies : Peer → Nat → Reply PuzzleStatePage}
    {set : HeightedSet CoinRecord}
    (returns
      : Loop.Returns (queryPeer genesisChallenge entries hashes replies entry.peer) (.ok set))
    : 0 < entry.lastPeak
      ∧ entry.lastPeak.toNat ≤ set.asOfHeight.toNat + peakLagEviction.toNat := by
  obtain ⟨requests, returned⟩ := returns
  obtain ⟨_, page, -, -, -, supported, stated, -⟩ := query_answered returned
  rw [keyed.announcedPeak_eq held] at supported
  by_cases spoken : 0 < entry.lastPeak
  · rw [if_pos spoken, asOfIsSupported_iff, ← stated] at supported
    exact ⟨spoken, supported⟩
  · simp [spoken, asOfIsSupported] at supported

/-- A corroborator that answers has spoken, and answers near its own peak. -/
theorem QueryRound.voice_near_peak (keyed : PeerPool.KeyedEntries entries)
    (round : QueryRound genesisChallenge entries nextIdx hashes) {asked : PeerEntry}
    (picked : pick (.steady entries nextIdx) = .ok (asked.peer, asked.address))
    {voice : PeerEntry} (selected : voice ∈ PeerPool.corroborators entries asked.address)
    {set : HeightedSet CoinRecord} (read : round.readCorroborator voice.peer = .ok set)
    : 0 < voice.lastPeak
      ∧ voice.lastPeak.toNat ≤ set.asOfHeight.toNat + peakLagEviction.toNat := by
  have returns := round.corroborators_return _ _ picked (voice.peer, voice.address)
    (List.mem_map_of_mem selected)
  exact answered_near_peak keyed (PeerPool.mem_corroborators selected).1 (read ▸ returns)

/-- Only corroborators that have spoken answer. -/
theorem answered_le_spoken (keyed : PeerPool.KeyedEntries entries)
    (round : QueryRound genesisChallenge entries nextIdx hashes) {asked : PeerEntry}
    (picked : pick (.steady entries nextIdx) = .ok (asked.peer, asked.address))
    : (askCorroborators (.steady entries nextIdx) asked.address
        round.readCorroborator).answered.length
      ≤ PeerPool.spokenCorroborators entries asked.address := by
  rw [length_answered_askCorroborators, ← List.countP_eq_length_filter]
  apply List.countP_mono_left
  intro voice selected answers
  cases read : round.readCorroborator voice.peer with
  | error failure => simp [read, Except.isOk, Except.toBool] at answers
  | ok set => simpa using (round.voice_near_peak keyed picked selected read).1

/-- Where the asked peer keeps up, every height in the round is within twice the bar: the
corroborators are discovered, so the pass has held them to the reference.
-/
theorem staysNear_of_keepsUp {before : List PeerEntry} (keyed : PeerPool.KeyedEntries before)
    (judged : PeerPool.lagReference before = some reference)
    (keepsUp : AskedKeepsUp (PeerPool.evictLaggingPeers before).1 nextIdx reference)
    : StaysNear (PeerPool.evictLaggingPeers before).1 nextIdx reference := by
  have keyed := keyed.sublist (PeerPool.evictLaggingPeers_sublist before)
  intro genesisChallenge hashes round projection items asOfHeight unbounded reported
  obtain ⟨peer, address, first, picked, answered⟩ :=
    exists_answer_of_readSetCorroborated reported
  obtain ⟨asked, turn, rfl, rfl⟩ := pick_steady.mp picked
  rw [QueryRound.result, readSetCorroborated_of_answer picked answered, gradeSet] at reported
  dsimp only at reported
  have height := roundHeight_of_corroborated reported
  obtain ⟨-, -, enough, -⟩ := corroborated_inv reported
  rw [roundHeight, unbounded] at height
  obtain ⟨lowest, member, lag, -⟩ := commonHeight_spec height
  rcases List.mem_cons.mp member with rfl | other
  · have returns := answered ▸ round.asked_returns _ _ picked
    obtain ⟨spoken, near⟩ := answered_near_peak keyed (List.mem_of_getElem? turn) returns
    rcases keepsUp asked turn with silent | close | few | low
    · simp [silent] at spoken
    · omega
    · have most := answered_le_spoken keyed round picked
      have voices := Nat.le_trans enough List.countP_le_length
      omega
    · omega
  · obtain ⟨⟨source, set⟩, collected, rfl⟩ := List.mem_map.mp other
    obtain ⟨voice, selected, -, read⟩ := mem_answered_askCorroborators.mp collected
    obtain ⟨held, -, discovered⟩ := PeerPool.mem_corroborators selected
    obtain ⟨spoken, near⟩ := round.voice_near_peak keyed picked selected read
    have close := PeerPool.discovered_near_reference judged held discovered spoken
    have lag : set.asOfHeight.toNat = asOfHeight.toNat + settledLag.toNat := lag
    omega

/-- The answer that there are no coins. -/
def noCoins (height : UInt32) : HeightedSet CoinRecord where
  items := []
  asOfHeight := height

/-- One finished page without coin states. -/
def onePage (height : UInt32) (_ : Nat) : Reply PuzzleStatePage :=
  .answered { coinStates := [], height, headerHash := 0, isFinished := true }

/-- What a connection's one empty page is read as. -/
def onePageSet (entries : List PeerEntry) (peer : Peer) (height : UInt32)
    : Except ChiaQueryError (HeightedSet CoinRecord) :=
  supportedSet peer.socketAddr (PeerPool.announcedPeak entries peer.socketAddr)
    (.ok ([], height))

/-- The peak a corroborator has announced, which is the height it answers as of. -/
def ownPeak (entries : List PeerEntry) (peer : Peer) : UInt32 :=
  (PeerPool.announcedPeak entries peer.socketAddr).getD 0

/-- A round in which every peer reports that there are no coins, the asked one as of `low` and
the others as of their own peaks.
-/
def lowRound (entries : List PeerEntry) (nextIdx : UInt64) (low : UInt32)
    : QueryRound 0 entries nextIdx [] where
  askedReplies _ := onePage low
  corroboratorReplies peer := onePage (ownPeak entries peer)
  readAsked peer := onePageSet entries peer low
  readCorroborator peer := onePageSet entries peer (ownPeak entries peer)
  asked_returns _ _ _ := ⟨1, rfl⟩
  corroborators_return _ _ _ _ _ := ⟨1, rfl⟩

/-- A peer that has spoken answers with its one empty page as of a height its peak supports. -/
theorem onePageSet_ok (keyed : PeerPool.KeyedEntries entries) {entry : PeerEntry}
    (held : entry ∈ entries) (spoken : 0 < entry.lastPeak) {height : UInt32}
    (supported : entry.lastPeak.toNat ≤ height.toNat + peakLagEviction.toNat)
    : onePageSet entries entry.peer height = .ok (noCoins height) := by
  have supports : asOfIsSupported (some entry.lastPeak) height = true :=
    asOfIsSupported_iff.mpr supported
  simp only [onePageSet, keyed.announcedPeak_eq held, spoken, if_true, supportedSet, supports]
  rfl

/-- As of its own peak a peer that has spoken always answers. -/
theorem onePageSet_ownPeak (keyed : PeerPool.KeyedEntries entries) {entry : PeerEntry}
    (held : entry ∈ entries) (spoken : 0 < entry.lastPeak)
    : onePageSet entries entry.peer (ownPeak entries entry.peer)
      = .ok (noCoins entry.lastPeak) := by
  have peak : ownPeak entries entry.peer = entry.lastPeak := by
    simp [ownPeak, keyed.announcedPeak_eq held, spoken]
  rw [peak]
  exact onePageSet_ok keyed held spoken (Nat.le_add_right _ _)

/-- What answers in the round of empty pages, answers with no coins as of its own peak. -/
theorem lowRound_answered (keyed : PeerPool.KeyedEntries entries) {low : UInt32}
    {asked source : SocketAddr} {set : HeightedSet CoinRecord}
    (collected
      : (source, set)
          ∈ (askCorroborators (.steady entries nextIdx) asked
              (lowRound entries nextIdx low).readCorroborator).answered)
    : set.items = []
      ∧ ∃ voice ∈ PeerPool.corroborators entries asked,
          0 < voice.lastPeak ∧ set.asOfHeight = voice.lastPeak := by
  obtain ⟨voice, selected, -, read⟩ := mem_answered_askCorroborators.mp collected
  have held := (PeerPool.mem_corroborators selected).1
  have returns : Loop.Returns
      (queryPeer 0 entries [] (lowRound entries nextIdx low).corroboratorReplies voice.peer)
      ((lowRound entries nextIdx low).readCorroborator voice.peer) := ⟨1, rfl⟩
  obtain ⟨spoken, -⟩ := answered_near_peak keyed held (read ▸ returns)
  have answer := onePageSet_ownPeak keyed held spoken
  have same := read.symm.trans answer
  cases same
  exact ⟨rfl, voice, selected, spoken, rfl⟩

/-- In the round of empty pages as many answer as have spoken. -/
theorem lowRound_answers (keyed : PeerPool.KeyedEntries entries) (low : UInt32)
    (asked : SocketAddr)
    : PeerPool.spokenCorroborators entries asked
      ≤ (askCorroborators (.steady entries nextIdx) asked
          (lowRound entries nextIdx low).readCorroborator).answered.length := by
  rw [length_answered_askCorroborators, ← List.countP_eq_length_filter]
  apply List.countP_mono_left
  intro voice selected spoken
  have held := (PeerPool.mem_corroborators selected).1
  have answer := onePageSet_ownPeak keyed held (by simpa using spoken)
  have read : (lowRound entries nextIdx low).readCorroborator voice.peer = _ := answer
  rw [read]
  rfl

/-- Peers that report no coins agree at every height. -/
theorem claimsAt_of_empty {set : HeightedSet CoinRecord} (empty : set.items = [])
    (low height : UInt32)
    : claimsAt set height = claimsAt (noCoins low) height := by
  simp [claimsAt, normaliseAt, empty, noCoins]

/-- The sources of the round of empty pages that answer, when `asked` is asked. -/
def lowSources (entries : List PeerEntry) (nextIdx : UInt64) (low : UInt32)
    (asked : SocketAddr)
    : List (SocketAddr × HeightedSet CoinRecord) :=
  (askCorroborators (.steady entries nextIdx) asked
    (lowRound entries nextIdx low).readCorroborator).answered

/-- Where all have something settled, the round of empty pages has a height, which lies the
settled lag below the lowest that was stated.
-/
theorem lowRound_height (keyed : PeerPool.KeyedEntries entries) (nextIdx : UInt64)
    {low : UInt32} {asked : SocketAddr} (lowSettled : settledLag ≤ low)
    (othersSettled
      : ∀ voice ∈ PeerPool.corroborators entries asked,
          0 < voice.lastPeak → settledLag ≤ voice.lastPeak)
    : ∃ height,
        roundHeight (noCoins low) (lowSources entries nextIdx low asked) {} = some height
        ∧ height.toNat + settledLag.toNat ≤ low.toNat := by
  have settled : ∀ source ∈ low :: (lowSources entries nextIdx low asked).map
      (fun other => other.2.asOfHeight), settledLag ≤ source := by
    intro source member
    rcases List.mem_cons.mp member with rfl | other
    · exact lowSettled
    · obtain ⟨⟨address, set⟩, collected, rfl⟩ := List.mem_map.mp other
      obtain ⟨-, voice, selected, spoken, same⟩ := lowRound_answered keyed collected
      exact same ▸ othersSettled voice selected spoken
  obtain ⟨height, common⟩ := exists_commonHeight (List.cons_ne_nil _ _) settled
  obtain ⟨lowest, -, lag, least⟩ := commonHeight_spec common
  refine ⟨height, common, ?_⟩
  have below := UInt32.le_iff_toNat_le.mp (least low List.mem_cons_self)
  omega

/-- The emptiness that one supported low height leaves is corroborated, as of a height below
it.
-/
theorem lowRound_corroborated (keyed : PeerPool.KeyedEntries entries) {low : UInt32}
    {asked : PeerEntry} (turn : entries[nextIdx.toNat % entries.length]? = some asked)
    (spoken : 0 < asked.lastPeak)
    (supported : asked.lastPeak.toNat ≤ low.toNat + peakLagEviction.toNat)
    (enough : corroborationFloor ≤ PeerPool.spokenCorroborators entries asked.address)
    (lowSettled : settledLag ≤ low)
    (othersSettled
      : ∀ voice ∈ PeerPool.corroborators entries asked.address,
          0 < voice.lastPeak → settledLag ≤ voice.lastPeak)
    : ∃ asOfHeight,
        (lowRound entries nextIdx low).result {} = .ok (.corroborated [] asOfHeight)
        ∧ asOfHeight.toNat + settledLag.toNat ≤ low.toNat := by
  have picked : pick (.steady entries nextIdx) = .ok (asked.peer, asked.address) :=
    pick_steady.mpr ⟨asked, turn, rfl, rfl⟩
  have answered : (lowRound entries nextIdx low).readAsked asked.peer = .ok (noCoins low) :=
    onePageSet_ok keyed (List.mem_of_getElem? turn) spoken supported
  set sources := lowSources entries nextIdx low asked.address
  obtain ⟨height, common, below⟩ := lowRound_height keyed nextIdx lowSettled othersSettled
  have agreement : ∀ source ∈ sources,
      claimsAt source.2 height = claimsAt (noCoins low) height :=
    fun source collected => claimsAt_of_empty (lowRound_answered keyed collected).1 low height
  have everyone : agreeing (noCoins low) sources height = sources.length :=
    List.countP_eq_length.mpr
      (fun source collected => decide_eq_true (agreement source collected))
  have armed : IsArmed entries asked.address := Nat.le_trans enough List.countP_le_length
  have agreed : corroborationFloor ≤ agreeing (noCoins low) sources height :=
    everyone ▸ Nat.le_trans enough (lowRound_answers keyed low asked.address)
  have supportedRound := PeerPool.corroborated_iff.mpr ⟨armed, agreed⟩
  refine ⟨height, ?_, below⟩
  rw [QueryRound.result, readSetCorroborated_of_answer picked answered]
  refine (settleSources_of_agreement common agreement).trans ?_
  have graded : corroborated (readiness (.steady entries nextIdx) asked.address)
      (agreeing (noCoins low) sources height) = true := supportedRound
  rw [graded]
  rfl

/-- Under a peak that trails the reference lies a height that the peak still supports, with
something settled below it, and more than twice the bar behind the reference.
-/
theorem exists_low_height {peak : UInt32}
    (trails : peak.toNat + peakLagEviction.toNat < reference.toNat)
    (high : 2 * peakLagEviction.toNat + settledLag.toNat < reference.toNat)
    : ∃ low : UInt32,
        settledLag ≤ low ∧ peak.toNat ≤ low.toNat + peakLagEviction.toNat
        ∧ low.toNat + 2 * peakLagEviction.toNat < reference.toNat := by
  have fits := reference.toNat_lt
  set low := max (peak.toNat - peakLagEviction.toNat) settledLag.toNat with hlow
  have number : (UInt32.ofNat low).toNat = low := by
    rw [UInt32.toNat_ofNat']
    exact Nat.mod_eq_of_lt (by omega)
  refine ⟨UInt32.ofNat low, UInt32.le_iff_toNat_le.mpr ?_, ?_, ?_⟩
  all_goals
    rw [number]
    omega

/-- Where the asked peer trails the reference and enough corroborators have spoken, the asked
peer's low height is corroborated.
-/
theorem keepsUp_of_staysNear {before : List PeerEntry} (keyed : PeerPool.KeyedEntries before)
    (judged : PeerPool.lagReference before = some reference)
    (near : StaysNear (PeerPool.evictLaggingPeers before).1 nextIdx reference)
    : AskedKeepsUp (PeerPool.evictLaggingPeers before).1 nextIdx reference := by
  have keyed := keyed.sublist (PeerPool.evictLaggingPeers_sublist before)
  intro asked turn
  by_contra behind
  simp only [not_or, Nat.not_le, Nat.not_lt] at behind
  obtain ⟨silent, trails, enough, high⟩ := behind
  have spoken : 0 < asked.lastPeak := UInt32.pos_iff_ne_zero.mpr silent
  have othersSettled : ∀ voice
      ∈ PeerPool.corroborators (PeerPool.evictLaggingPeers before).1 asked.address,
      0 < voice.lastPeak → settledLag ≤ voice.lastPeak := by
    intro voice selected voiceSpoken
    obtain ⟨held, -, discovered⟩ := PeerPool.mem_corroborators selected
    have close := PeerPool.discovered_near_reference judged held discovered voiceSpoken
    exact UInt32.le_iff_toNat_le.mpr (by omega)
  obtain ⟨low, lowSettled, supported, far⟩ := exists_low_height trails high
  obtain ⟨asOfHeight, corroborated, below⟩ :=
    lowRound_corroborated keyed turn spoken supported enough lowSettled othersSettled
  have bound := near 0 [] _ {} [] asOfHeight rfl corroborated
  omega

/-- Directly after a lag pass, every corroborated puzzle-hash answer without an end height stays
near the pass's reference exactly when the peer that is asked does, or is silent, or the pool
could not corroborate its answer.
-/
theorem corroborated_stays_near_iff {before : List PeerEntry}
    (keyed : PeerPool.KeyedEntries before)
    (judged : PeerPool.lagReference before = some reference) (nextIdx : UInt64)
    : StaysNear (PeerPool.evictLaggingPeers before).1 nextIdx reference
      ↔ AskedKeepsUp (PeerPool.evictLaggingPeers before).1 nextIdx reference :=
  ⟨keepsUp_of_staysNear keyed judged, staysNear_of_keepsUp keyed judged⟩

/-- A trusted peer at the height `peak`, and two discovered ones at the height 100. -/
def trustedPool (peak : UInt32) : List PeerEntry :=
  [
    { sampleEntry 1 with origin := .priority, lastPeak := peak },
    sampleEntry 2,
    sampleEntry 3
  ]

theorem trustedPool_keyed (peak : UInt32) : PeerPool.KeyedEntries (trustedPool peak) where
  distinct :=
    have addresses : [(sampleEntry 1).address, (sampleEntry 2).address,
        (sampleEntry 3).address].Nodup := by decide
    addresses
  dialled := by
    unfold trustedPool
    simp [sampleEntry]

theorem trustedPool_judged (peak : UInt32)
    : PeerPool.lagReference (trustedPool peak) = some 100 := by
  have nonempty : ([100, 100] : List UInt32) ≠ [] := List.cons_ne_nil _ _
  obtain ⟨median, found⟩ := exists_lowerMedian nonempty
  have same : median = 100 := by simpa using lowerMedian_mem found
  exact same ▸ found

theorem trustedPool_kept (peak : UInt32)
    : (PeerPool.evictLaggingPeers (trustedPool peak)).1 = trustedPool peak := by
  rw [PeerPool.evictLaggingPeers_of_reference (trustedPool_judged peak)]
  simp [trustedPool, PeerPool.isLagging, sampleEntry, saturatingSub, peakLagEviction]

theorem corroborated_stays_near_sample
    : StaysNear (PeerPool.evictLaggingPeers (trustedPool 94)).1 0 100 := by
  refine (corroborated_stays_near_iff (trustedPool_keyed 94) (trustedPool_judged 94) 0).mpr ?_
  rw [trustedPool_kept]
  intro asked turn
  cases turn
  exact Or.inr (Or.inl (by decide))

/-- A trusted peer that trails far behind drags a corroborated answer down to its height. -/
theorem trailing_trusted_peer_drags
    : ¬ ∀ (before : List PeerEntry) (reference : UInt32) (nextIdx : UInt64),
        PeerPool.KeyedEntries before → PeerPool.lagReference before = some reference
        → StaysNear (PeerPool.evictLaggingPeers before).1 nextIdx reference := by
  intro claim
  have near := claim (trustedPool 20) 100 0 (trustedPool_keyed 20) (trustedPool_judged 20)
  have keepsUp := keepsUp_of_staysNear (trustedPool_keyed 20) (trustedPool_judged 20) near
  rw [trustedPool_kept] at keepsUp
  rcases keepsUp _ rfl with silent | close | few | low
  · exact absurd silent (by decide)
  · exact absurd close (by decide)
  · exact absurd few (by decide +kernel)
  · exact absurd low (by decide)

end PeerBackend

end ChiaQuery
