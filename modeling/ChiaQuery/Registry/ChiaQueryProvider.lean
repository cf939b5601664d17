import ChiaQuery.Library.FaultDomains
import ChiaQuery.Registry.CoinsetSource
import ChiaQuery.Router.BlockRanges
import ChiaQuery.Router.GradedReads

/-! The chain source that is served by the router over its peers and coinset.org. Where no more
hosts lie than the floor of corroborators counts and coinset.org does not, its scalar reads tell
the truth or fail.
-/

namespace ChiaQuery.Registry

open ChiaQuery.Library ChiaQuery.Coinset ChiaQuery.LightClient

/-- What one peer attempt of a read finds: the pool, and what each request comes to, for the peer
it asks and for the corroborators it asks afterwards.
-/
structure Attempt (crates : ChiaCrates) (blocks : BlockCrates) where
  views : PoolViews
  asked : PeerWire crates
  others : PeerWire crates
  askedBlocks : BlockWire blocks
  othersBlocks : BlockWire blocks

/-- `ChiaQuery`, as the rounds of one of its reads find it: what a first attempt and a retry meet
in each round, and the entries the pool holds as its peak is read and as its peers are counted.
-/
structure ChiaQueryClient (crates : ChiaCrates) (blocks : BlockCrates) where
  coinsetFallbackEnabled : Bool
  coinset : CoinsetClient
  first : Nat → Attempt crates blocks
  retry : Nat → Attempt crates blocks
  atPeak : List PeerEntry
  atCount : List PeerEntry
  runPuzzleConditions : CoinSpend → List Condition

variable {crates : ChiaCrates} {blocks : BlockCrates}

namespace Attempt

variable (attempt : Attempt crates blocks)

/-- `try_get_coin_record_by_name_opt`. -/
def coinRecord (name : String) : Except ChiaQueryError (OptAnswer CoinRecord) :=
  (PeerBackend.tryGetCoinRecordByNameOpt attempt.views attempt.asked attempt.others name).result

/-- `try_get_coin_spend_opt`. -/
def coinSpend (coinId : String) : Except ChiaQueryError (OptAnswer CoinSpend) :=
  (PeerBackend.tryGetCoinSpendOpt attempt.views attempt.asked attempt.others coinId).result

/-- `try_get_puzzle_and_solution`. -/
def puzzleAndSolution (coinId : String) (height : UInt32)
    : Except ChiaQueryError (OptAnswer CoinSpend) :=
  (PeerBackend.tryGetPuzzleAndSolution attempt.views attempt.asked attempt.others coinId
    height).result

/-- The record of a header, with the fields that its claim reads. -/
def blockRecordOf (wire : BlockWire blocks) (height : UInt32) (peer : Peer)
    : Except ChiaQueryError (Option BlockRecord) :=
  (PeerBackend.doGetBlockRecordByHeightOpt wire peer height).map
    (fun record => record.map (·.toBlockRecord))

/-- `try_get_block_record_by_height_opt`. -/
def blockRecord (height : UInt32) : Except ChiaQueryError (OptAnswer BlockRecord) :=
  (PeerBackend.readOptCorroborated attempt.views (blockRecordOf attempt.askedBlocks height)
    (blockRecordOf attempt.othersBlocks height)).result

/-- The peer tier's read of a population. -/
def set (question : SetQuestion) (projection : SetProjection)
    : Except ChiaQueryError (SetAnswer CoinRecord) :=
  let { views, asked, others, .. } := attempt
  match question with
  | .hint hint =>
      (PeerBackend.tryGetCoinRecordsByHint views asked others hint projection).result
  | .hints hints =>
      (PeerBackend.tryGetCoinRecordsByHints views asked others hints projection).result
  | .names names =>
      (PeerBackend.tryGetCoinRecordsByNames views asked others names projection).result
  | .puzzleHash puzzleHash =>
      (PeerBackend.tryGetCoinRecordsByPuzzleHash views asked others puzzleHash
        projection).result
  | .puzzleHashes puzzleHashes =>
      (PeerBackend.tryGetCoinRecordsByPuzzleHashes views asked others puzzleHashes
        projection).result
  | .children parentId =>
      (PeerBackend.tryGetChildren views asked others parentId projection).result

end Attempt

namespace ChiaQueryClient

variable (client : ChiaQueryClient crates blocks)

/-- The coinset tier's read of a population, without a window. -/
def coinsetSet : SetQuestion → Except ChiaQueryError (List CoinRecord)
  | .hint hint => client.coinset.getCoinRecordsByHint hint none none true
  | .hints hints => client.coinset.getCoinRecordsByHints hints none none true
  | .names names => client.coinset.getCoinRecordsByNames names none none true
  | .puzzleHash puzzleHash =>
      client.coinset.getCoinRecordsByPuzzleHash puzzleHash none none true
  | .puzzleHashes puzzleHashes =>
      client.coinset.getCoinRecordsByPuzzleHashes puzzleHashes none none true
  | .children parentId => client.coinset.getCoinRecordsByParentIds [parentId] none none true

/-- The height of the peak that coinset states. -/
def coinsetPeak : Except ChiaQueryError (Option UInt32) :=
  client.coinset.getBlockchainState.map (fun state => state.peak.map (fun peak => peak.height))

/-- What the tiers answer to the router of this client. -/
def sources : Sources Condition where
  coinRecord name :=
    {
      first := (client.first 0).coinRecord name,
      retry := (client.retry 0).coinRecord name,
      coinset := client.coinset.getCoinRecordByNameOpt name
    }
  coinSpend coinId :=
    {
      first := (client.first 0).coinSpend coinId,
      retry := (client.retry 0).coinSpend coinId,
      coinset := client.coinset.getPuzzleAndSolutionOpt coinId none
    }
  puzzleAndSolution coinId height :=
    {
      first := (client.first 0).puzzleAndSolution coinId height,
      retry := (client.retry 0).puzzleAndSolution coinId height,
      coinset := client.coinset.getPuzzleAndSolutionOpt coinId (some height)
    }
  puzzleAndSolutionWithConditions coinId height :=
    client.coinset.getPuzzleAndSolutionWithConditions coinId height
  runPuzzleConditions := client.runPuzzleConditions
  blockRecord height :=
    {
      first := (client.first 0).blockRecord height,
      retry := (client.retry 0).blockRecord height,
      coinset :=
        (client.coinset.getBlockRecordByHeightOpt height).map
          (fun record => record.map (·.toBlockRecord))
    }
  sets question projection round :=
    {
      first := (client.first round).set question projection,
      retry := (client.retry round).set question projection,
      coinsetPeak := client.coinsetPeak,
      coinsetRaw := client.coinsetSet question
    }

/-- `peak_height_opt`. -/
def peakHeightOpt : Except ChiaQueryError (Option UInt32) :=
  (getBlockchainState client.coinsetFallbackEnabled
    (client.coinset.getBlockchainState.map (fun state =>
      { peak := state.peak.map (·.toBlockRecord), sync := state.sync }))
    client.atPeak client.atCount).map
    (fun state => state.peak.map (fun peak => peak.height))

end ChiaQueryClient

/-- `ChiaQueryProvider`, with where its reads are called from. `walk` is the walk along a
singleton's lineage, which reads through the provider itself.
-/
structure ChiaQueryProvider (crates : ChiaCrates) (blocks : BlockCrates) (SingletonLineage : Type)
    where
  inner : ChiaQueryClient crates blocks
  caller : Caller
  walk : Bytes32 → Except ChainSourceError (Option SingletonLineage)

namespace ChiaQueryProvider

variable {SingletonLineage : Type} (provider : ChiaQueryProvider crates blocks SingletonLineage)

/-- `coin_record`. -/
def coinRecord (coinId : Bytes32) : Except ChainSourceError (Option IfaceCoinRecord) := do
  let record ← provider.caller.blockOn
    (QueryRouter.getCoinRecordByNameOpt provider.inner.coinsetFallbackEnabled
      provider.inner.sources (hex32 coinId))
  transposed coinRecordFromChq record

/-- `coin_records_by_puzzle_hash`. -/
def coinRecordsByPuzzleHash (puzzleHash : Bytes32) (includeSpent : Bool)
    : Except ChainSourceError (List IfaceCoinRecord) := do
  let records ← provider.caller.blockOn
    (SetRead.ungraded provider.inner.coinsetFallbackEnabled provider.inner.sources
      (.byPuzzleHash (hex32 puzzleHash)) { startHeight := none, endHeight := none, includeSpent })
  records.mapM coinRecordFromChq

/-- `coin_records_by_parent`. -/
def coinRecordsByParent (parentCoinId : Bytes32)
    : Except ChainSourceError (List IfaceCoinRecord) := do
  let records ← provider.caller.blockOn
    (SetRead.ungraded provider.inner.coinsetFallbackEnabled provider.inner.sources
      (.byParentIds [hex32 parentCoinId])
      { startHeight := none, endHeight := none, includeSpent := true })
  records.mapM coinRecordFromChq

/-- `coin_spend`. -/
def coinSpend (coinId : Bytes32) : Except ChainSourceError (Option ProtocolCoinSpend) := do
  let spend ← provider.caller.blockOn
    (QueryRouter.getCoinSpendOpt provider.inner.coinsetFallbackEnabled provider.inner.sources
      (hex32 coinId))
  transposed coinSpendFromChq spend

/-- `peak_height`. -/
def peakHeight : Except ChainSourceError (Option UInt32) :=
  provider.caller.blockOn provider.inner.peakHeightOpt

/-- `block_timestamp`. -/
def blockTimestamp (height : UInt32) : Except ChainSourceError (Option UInt64) :=
  provider.caller.blockOn
    (QueryRouter.blockTimestampOpt provider.inner.coinsetFallbackEnabled provider.inner.sources
      height)

/-- The reads of the provider, as the interface has them. -/
def toChainSource : ChainSource SingletonLineage where
  coinRecord := provider.coinRecord
  coinRecordsByPuzzleHash := provider.coinRecordsByPuzzleHash
  coinRecordsByParent := provider.coinRecordsByParent
  coinSpend := provider.coinSpend
  resolveSingletonLineage := provider.walk
  peakHeight := provider.peakHeight
  blockTimestamp := provider.blockTimestamp

end ChiaQueryProvider

------------------------------------------------------------------------------------------
-- Sources that tell the truth
------------------------------------------------------------------------------------------

/-- A read fails or makes the claim that is true, `none` where the thing is not there. -/
def TellsTruth {α : Type*} [ChainClaim α] (truth : Option String)
    (read : Except ChiaQueryError (Option α))
    : Prop :=
  ∀ answer, read = .ok answer → answer.map chainClaim = truth

/-- The true claims about the chain, while a read runs. -/
structure ChainTruth where
  coinRecord : String → Option String
  coinSpend : String → Option String
  blockRecord : UInt32 → Option String

/-- One connection fails or tells the truth. -/
structure HonestPeer (chain : ChainTruth) (wire : PeerWire crates) (headers : BlockWire blocks)
    (peer : Peer)
    : Prop where
  coinRecord
    : ∀ name,
        TellsTruth (chain.coinRecord name) (PeerBackend.doGetCoinRecordByNameOpt wire peer name)
  coinSpend
    : ∀ coinId, TellsTruth (chain.coinSpend coinId) (PeerBackend.doGetCoinSpendOpt wire peer coinId)
  blockRecord
    : ∀ height, TellsTruth (chain.blockRecord height) (Attempt.blockRecordOf headers height peer)

/-- coinset.org fails or tells the truth. -/
structure HonestCoinset (chain : ChainTruth) (client : CoinsetClient) : Prop where
  coinRecord
    : ∀ name, TellsTruth (chain.coinRecord name) (client.getCoinRecordByNameOpt name)
  coinSpend
    : ∀ coinId, TellsTruth (chain.coinSpend coinId) (client.getPuzzleAndSolutionOpt coinId none)
  blockRecord
    : ∀ height,
        TellsTruth (chain.blockRecord height)
          ((client.getBlockRecordByHeightOpt height).map
            (fun record => record.map (·.toBlockRecord)))

/-- No more hosts than the floor of corroborators counts may lie in an attempt: the peers on
every other host are honest.
-/
def Attempt.FewLiars (chain : ChainTruth) (attempt : Attempt crates blocks) : Prop :=
  ∃ liars : Finset IpAddr,
    liars.card ≤ corroborationFloor
    ∧ (∀ entry ∈ attempt.views.atPick,
        entry.address.ip ∉ liars
        → HonestPeer chain attempt.asked attempt.askedBlocks entry.peer)
    ∧ (∀ entry ∈ attempt.views.atSelection,
        entry.address.ip ∉ liars
        → HonestPeer chain attempt.others attempt.othersBlocks entry.peer)

/-- The sources of a client, of which few enough lie. -/
structure ChiaQueryClient.Sound (chain : ChainTruth) (client : ChiaQueryClient crates blocks)
    : Prop where
  first : (client.first 0).FewLiars chain
  retry : (client.retry 0).FewLiars chain
  coinset : client.coinsetFallbackEnabled = true → HonestCoinset chain client.coinset

------------------------------------------------------------------------------------------
-- A settled answer is backed by different hosts
------------------------------------------------------------------------------------------

section Rounds

variable {α : Type*} [ChainClaim α] {views : PoolViews}
  {readAsked readCorroborator : Peer → Except ChiaQueryError (Option α)}

/-- A host makes a claim in a round, by the peer that is asked or by a corroborator. -/
inductive HostStates (views : PoolViews)
    (readAsked readCorroborator : Peer → Except ChiaQueryError (Option α))
    : IpAddr → Option String → Prop
  | asked {entry answer} (held : entry ∈ views.atPick) (read : readAsked entry.peer = .ok answer)
    : HostStates views readAsked readCorroborator entry.address.ip (answer.map chainClaim)
  | corroborator {entry answer} (held : entry ∈ views.atSelection)
    (read : readCorroborator entry.peer = .ok answer)
    : HostStates views readAsked readCorroborator entry.address.ip (answer.map chainClaim)

theorem of_seconds {first : Option α} {answer : Except ChiaQueryError (Option α)}
    (seconded : PeerBackend.seconds first answer = true)
    : ∃ other, answer = .ok other ∧ other.map chainClaim = first.map chainClaim := by
  cases answer with
  | error failure => cases seconded
  | ok other => exact ⟨other, rfl, of_decide_eq_true seconded⟩

/-- The asked peer and the corroborators that second it are on as many hosts. -/
theorem backed_of_settled {first : Option α}
    (settled
      : (PeerBackend.readOptCorroborated views readAsked readCorroborator).result
        = .ok (PeerBackend.settledGrade first))
    : Backed (HostStates views readAsked readCorroborator) (corroborationFloor + 1)
        (first.map chainClaim) := by
  obtain ⟨peer, asked, picked, read, round⟩ :=
    (PeerBackend.readOptCorroborated_settled_iff first).mp settled
  obtain ⟨entry, held, rfl, rfl⟩ := PeerBackend.mem_of_pick picked
  let seconding := (PeerPool.corroborators views.atSelection entry.address).filter
    (fun other => PeerBackend.seconds first (readCorroborator other.peer))
  have chosen : seconding.Sublist (PeerPool.corroborators views.atSelection entry.address) :=
    List.filter_sublist
  refine ⟨entry.address.ip :: seconding.map (·.address.ip), ?_, ?_, ?_⟩
  · rw [List.nodup_cons]
    constructor
    · intro again
      obtain ⟨other, member, same⟩ := List.mem_map.mp again
      exact (PeerPool.mem_corroborators (chosen.subset member)).2.1 same
    · exact (PeerPool.corroborators_hosts_nodup _ _).sublist (chosen.map _)
  · have enough := round.seconded
    rw [PeerBackend.askCorroborators, PeerPool.selectCorroboratingPeers, List.map_map,
      List.countP_map, List.countP_eq_length_filter] at enough
    rw [List.length_cons, List.length_map]
    exact Nat.succ_le_succ enough
  · intro host member
    rcases List.mem_cons.mp member with rfl | member
    · exact .asked held read
    · obtain ⟨other, chosenOther, rfl⟩ := List.mem_map.mp member
      obtain ⟨drawn, seconded⟩ := List.mem_filter.mp chosenOther
      obtain ⟨answer, answered, same⟩ := of_seconds seconded
      rw [← same]
      exact .corroborator (PeerPool.mem_corroborators drawn).1 answered

/-- With few liars what a round settles is the truth. -/
theorem settled_tellsTruth {truth : Option String} {liars : Finset IpAddr}
    (few : liars.card ≤ corroborationFloor)
    (askedHonest
      : ∀ entry ∈ views.atPick,
          entry.address.ip ∉ liars → TellsTruth truth (readAsked entry.peer))
    (othersHonest
      : ∀ entry ∈ views.atSelection,
          entry.address.ip ∉ liars → TellsTruth truth (readCorroborator entry.peer))
    {first : Option α}
    (settled
      : (PeerBackend.readOptCorroborated views readAsked readCorroborator).result
        = .ok (PeerBackend.settledGrade first))
    : first.map chainClaim = truth := by
  apply (backed_of_settled settled).holds (Nat.lt_succ_of_le few) (· = truth)
  intro host honest claim stated
  cases stated with
  | asked held read => exact askedHonest _ held honest _ read
  | corroborator held read => exact othersHonest _ held honest _ read

/-- What an attempt settles is the truth. -/
def SettlesTruth (truth : Option String) (attempt : Except ChiaQueryError (OptAnswer α)) : Prop :=
  ∀ first, attempt = .ok (PeerBackend.settledGrade first) → first.map chainClaim = truth

variable {fallback : Bool} {truth : Option String}

/-- A graded answer that stands is settled, or coinset seconds it. -/
theorem settlePeerAnswer_tellsTruth {graded : OptAnswer α}
    {coinset : Except ChiaQueryError (Option α)} (settles : SettlesTruth truth (.ok graded))
    (honest : fallback = true → TellsTruth truth coinset)
    : TellsTruth truth (QueryRouter.settlePeerAnswer fallback graded coinset) := by
  intro answer answered
  cases graded with
  | found value =>
      cases answered
      exact settles (some value) rfl
  | corroboratedAbsent =>
      cases answered
      exact settles none rfl
  | uncorroboratedFound value =>
      cases fallback with
      | false => cases answered
      | true =>
          rcases coinset with failure | (_ | other)
          · cases answered
          · cases answered
          · simp only [QueryRouter.settlePeerAnswer, QueryRouter.consult, if_true,
              settleUncorroboratedPresence] at answered
            split at answered
            · rename_i same
              cases answered
              exact (congrArg some same.symm).trans (honest rfl _ rfl)
            · cases answered
  | uncorroboratedAbsent =>
      cases fallback with
      | false => cases answered
      | true =>
          rcases coinset with failure | (_ | other)
          · cases answered
          · cases answered
            exact honest rfl _ rfl
          · cases answered

/-- A ladder over attempts that settle the truth and a coinset that tells it. -/
theorem peerThenCoinsetOpt_tellsTruth {attempts : OptAttempts α}
    (first : SettlesTruth truth attempts.first) (retry : SettlesTruth truth attempts.retry)
    (honest : fallback = true → TellsTruth truth attempts.coinset)
    : TellsTruth truth (QueryRouter.peerThenCoinsetOpt fallback attempts) := by
  obtain ⟨firstRead, retryRead, coinset⟩ := attempts
  cases firstRead with
  | ok graded => exact settlePeerAnswer_tellsTruth first honest
  | error failure =>
      cases retryRead with
      | ok graded => exact settlePeerAnswer_tellsTruth retry honest
      | error peerError =>
          intro answer answered
          cases fallback with
          | false => cases answered
          | true => exact honest rfl answer (mapError_eq_ok_iff.mp answered)

end Rounds

------------------------------------------------------------------------------------------
-- The chain sources over honest fabrics
------------------------------------------------------------------------------------------

/-- Nothing where nothing is, else what a record with the true claim converts to. -/
inductive ConvertsTruth {α β : Type} [ChainClaim α] (convert : α → Except ChainSourceError β)
    : Option String → Option β → Prop
  | absent : ConvertsTruth convert none none
  | present {value found} (converted : convert value = .ok found)
    : ConvertsTruth convert (some (chainClaim value)) (some found)

/-- The timestamp of a block record with the true claim, if there is one and it has one. -/
def IsTrueTimestamp (truth : Option String) (timestamp : Option UInt64) : Prop :=
  ∃ record : Option BlockRecord,
    record.map chainClaim = truth ∧ timestamp = record.bind (·.timestamp)

/-- The scalar reads of a source fail or tell the truth. -/
structure TellsChain {SingletonLineage : Type} (chain : ChainTruth)
    (source : ChainSource SingletonLineage)
    : Prop where
  coinRecord
    : ∀ coinId found,
        source.coinRecord coinId = .ok found
        → ConvertsTruth coinRecordFromChq (chain.coinRecord (hex32 coinId)) found
  coinSpend
    : ∀ coinId found,
        source.coinSpend coinId = .ok found
        → ConvertsTruth coinSpendFromChq (chain.coinSpend (hex32 coinId)) found
  blockTimestamp
    : ∀ height found,
        source.blockTimestamp height = .ok found
        → IsTrueTimestamp (chain.blockRecord height) found

section Sources

variable {chain : ChainTruth}

theorem ConvertsTruth.of_transposed {α β : Type} [ChainClaim α]
    {convert : α → Except ChainSourceError β} {truth : Option String} {value : Option α}
    {found : Option β} (claimed : value.map chainClaim = truth)
    (converted : transposed convert value = .ok found)
    : ConvertsTruth convert truth found := by
  subst claimed
  cases found with
  | none =>
      rw [transposed_eq_none_iff.mp converted]
      exact .absent
  | some found =>
      obtain ⟨stated, rfl, read⟩ := transposed_eq_some_iff.mp converted
      exact .present read

variable {attempt : Attempt crates blocks}

theorem Attempt.FewLiars.coinRecord (few : attempt.FewLiars chain) (name : String)
    : SettlesTruth (chain.coinRecord name) (attempt.coinRecord name) := by
  obtain ⟨liars, bound, asked, others⟩ := few
  exact fun _ settled => settled_tellsTruth bound
    (fun entry held honest => (asked entry held honest).coinRecord name)
    (fun entry held honest => (others entry held honest).coinRecord name) settled

theorem Attempt.FewLiars.coinSpend (few : attempt.FewLiars chain) (coinId : String)
    : SettlesTruth (chain.coinSpend coinId) (attempt.coinSpend coinId) := by
  obtain ⟨liars, bound, asked, others⟩ := few
  exact fun _ settled => settled_tellsTruth bound
    (fun entry held honest => (asked entry held honest).coinSpend coinId)
    (fun entry held honest => (others entry held honest).coinSpend coinId) settled

theorem Attempt.FewLiars.blockRecord (few : attempt.FewLiars chain) (height : UInt32)
    : SettlesTruth (chain.blockRecord height) (attempt.blockRecord height) := by
  obtain ⟨liars, bound, asked, others⟩ := few
  exact fun _ settled => settled_tellsTruth bound
    (fun entry held honest => (asked entry held honest).blockRecord height)
    (fun entry held honest => (others entry held honest).blockRecord height) settled

/-- The provider over peers of which few lie, and a coinset that does not where it is asked. -/
theorem ChiaQueryProvider.tellsChain {SingletonLineage : Type}
    {provider : ChiaQueryProvider crates blocks SingletonLineage}
    (sound : provider.inner.Sound chain)
    : TellsChain chain provider.toChainSource where
  coinRecord := by
    intro coinId found answered
    obtain ⟨value, read, converted⟩ := bind_eq_ok_iff.mp answered
    apply ConvertsTruth.of_transposed _ converted
    exact peerThenCoinsetOpt_tellsTruth (sound.first.coinRecord _) (sound.retry.coinRecord _)
      (fun enabled => (sound.coinset enabled).coinRecord _) value
      (Caller.blockOn_eq_ok_iff.mp read).2
  coinSpend := by
    intro coinId found answered
    obtain ⟨value, read, converted⟩ := bind_eq_ok_iff.mp answered
    apply ConvertsTruth.of_transposed _ converted
    exact peerThenCoinsetOpt_tellsTruth (sound.first.coinSpend _) (sound.retry.coinSpend _)
      (fun enabled => (sound.coinset enabled).coinSpend _) value
      (Caller.blockOn_eq_ok_iff.mp read).2
  blockTimestamp := by
    intro height found answered
    have read := (Caller.blockOn_eq_ok_iff.mp answered).2
    unfold QueryRouter.blockTimestampOpt at read
    cases recorded : QueryRouter.getBlockRecordByHeightOpt provider.inner.coinsetFallbackEnabled
        provider.inner.sources height with
    | error failure =>
        rw [recorded] at read
        cases read
    | ok record =>
        rw [recorded] at read
        cases read
        refine ⟨record, ?_, rfl⟩
        exact peerThenCoinsetOpt_tellsTruth (sound.first.blockRecord _) (sound.retry.blockRecord _)
          (fun enabled => (sound.coinset enabled).blockRecord _) record recorded

/-- The source over coinset.org, where it does not lie. -/
theorem CoinsetChainSource.tellsChain {source : CoinsetChainSource}
    (honest : HonestCoinset chain source.client) (SingletonLineage : Type)
    : TellsChain chain (source.toChainSource SingletonLineage) where
  coinRecord := by
    intro coinId found answered
    obtain ⟨value, read, converted⟩ := bind_eq_ok_iff.mp answered
    apply ConvertsTruth.of_transposed _ converted
    exact honest.coinRecord _ value (blockOn_eq_ok_iff.mp read).2
  coinSpend := by
    intro coinId found answered
    obtain ⟨value, read, converted⟩ := bind_eq_ok_iff.mp answered
    apply ConvertsTruth.of_transposed _ converted
    exact honest.coinSpend _ value (blockOn_eq_ok_iff.mp read).2
  blockTimestamp := by
    intro height found answered
    obtain ⟨record, read, returned⟩ := bind_eq_ok_iff.mp answered
    cases returned
    have stated := (blockOn_eq_ok_iff.mp read).2
    refine ⟨record.map (·.toBlockRecord), ?_, ?_⟩
    · apply honest.blockRecord height
      rw [stated]
      rfl
    · cases record <;> rfl

end Sources

end ChiaQuery.Registry
