import ChiaQuery.LightClient.ClampedReads
import ChiaQuery.LightClient.PagedAnswers
import ChiaQuery.Library.DistinctKeys

/-! The records that a puzzle-hash read makes of its pages. The pages are joined as they came, so
a coin that is mentioned again is listed again.
-/

namespace ChiaQuery.LightClient

open ChiaQuery.Library ChiaQuery.Registry LightClientProvider

/-- `coin_records_by_puzzle_hash`, after a number of the page requests of its read. -/
def recordsByPuzzleHash (fromCoinState : CoinState → IfaceCoinRecord)
    (session : Except LightClientError Peer) (genesisChallenge : Bytes32)
    (requestPuzzleState : Peer → Nat → Reply PuzzleStatePage)
    (peak : Blocking (Option (UInt32 × Bytes32))) (requests : Nat)
    : Loop PuzzleWalk (Except ChainSourceError (List IfaceCoinRecord)) :=
  (PooledFetcher.puzzleStates session genesisChallenge requestPuzzleState requests).andThen
    (fun fetched => coinRecordsByPuzzleHash fromCoinState (.ran fetched) peak)

/-- The state of the last mention of a coin. -/
def lastMention (coinId : ProtocolCoin → Bytes32) (states : List CoinState) (id : Bytes32)
    : Option CoinState :=
  (states.filter (fun state => coinId state.coin = id)).getLast?

/-- There is one record for each coin that is mentioned, of the last state that mentions it. -/
def OneRecordEach (coinId : ProtocolCoin → Bytes32)
    (fromCoinState : CoinState → IfaceCoinRecord) (peak : Option UInt32)
    (states : List CoinState) (records : List IfaceCoinRecord)
    : Prop :=
  ∀ id,
    records.filter (fun record => coinId record.coin = id)
    = ((lastMention coinId states id).map (reported fromCoinState peak)).toList

/-- Whatever the peak, the records that are returned are one for each coin that the pages of
the read mention.
-/
def ReturnsOneEach (coinId : ProtocolCoin → Bytes32)
    (fromCoinState : CoinState → IfaceCoinRecord) (session : Except LightClientError Peer)
    (genesisChallenge : Bytes32) (requestPuzzleState : Peer → Nat → Reply PuzzleStatePage)
    : Prop :=
  ∀ peak records,
    Loop.Returns
      (recordsByPuzzleHash fromCoinState session genesisChallenge requestPuzzleState peak)
      (.ok records)
    → ∃ peer last height,
        session = .ok peer ∧ FinishesAt (requestPuzzleState peer) last
        ∧ peakHeight peak = .ok height
        ∧ OneRecordEach coinId fromCoinState height
            (collected (requestPuzzleState peer) (last + 1)) records

/-- No two of the coin states of a finished read are of one coin. -/
def MentionsOnce (coinId : ProtocolCoin → Bytes32) (session : Except LightClientError Peer)
    (requestPuzzleState : Peer → Nat → Reply PuzzleStatePage)
    : Prop :=
  ∀ peer last,
    session = .ok peer → FinishesAt (requestPuzzleState peer) last
    → ((collected (requestPuzzleState peer) (last + 1)).map
        (fun state => coinId state.coin)).Nodup

variable {coinId : ProtocolCoin → Bytes32} {fromCoinState : CoinState → IfaceCoinRecord}
  {session : Except LightClientError Peer} {genesisChallenge : Bytes32}
  {requestPuzzleState : Peer → Nat → Reply PuzzleStatePage}
  {peak : Blocking (Option (UInt32 × Bytes32))}

------------------------------------------------------------------------------------------
-- What is returned
------------------------------------------------------------------------------------------

/-- A read has the pages of a stream that its session finishes in time. -/
theorem puzzleStates_returns_iff {states : List CoinState}
    : Loop.Returns (PooledFetcher.puzzleStates session genesisChallenge requestPuzzleState)
        (.ok states)
      ↔ ∃ peer last,
          session = .ok peer ∧ FinishesAt (requestPuzzleState peer) last
          ∧ states = collected (requestPuzzleState peer) (last + 1) := by
  cases session with
  | error failure =>
      constructor
      · intro h
        obtain ⟨requests, returned⟩ := h
        cases returned
      · intro h
        obtain ⟨peer, last, drawn, -⟩ := h
        cases drawn
  | ok peer =>
      have walked
          : Loop.Returns (collectPaged genesisChallenge (requestPuzzleState peer)) (.ok states)
            ↔ ∃ last,
                FinishesAt (requestPuzzleState peer) last
                ∧ states = collected (requestPuzzleState peer) (last + 1) :=
        collectPaged_returns_iff
      exact walked.trans (by simp)

theorem runFetch_ran_eq_ok_iff {α : Type*} {fetched : Except LightClientError α} {found : α}
    : runFetch (.ran fetched) = .ok found ↔ fetched = .ok found := by
  cases fetched <;> simp [runFetch, runBlocking, Except.mapError, bind, Except.bind]

/-- The reads of lists return what they fetched, held to the peak. -/
theorem coinRecords_ok_iff {fetched : Except LightClientError (List CoinState)}
    {records : List IfaceCoinRecord}
    : coinRecords fromCoinState (.ran fetched) peak = .ok records
      ↔ ∃ states height,
          fetched = .ok states ∧ peakHeight peak = .ok height
          ∧ records = states.map (reported fromCoinState height) := by
  simp only [coinRecords, bind, bind_eq_ok_iff, runFetch_ran_eq_ok_iff]
  constructor
  · intro h
    obtain ⟨states, got, height, known, made⟩ := h
    cases made
    exact ⟨states, height, got, known, rfl⟩
  · intro h
    obtain ⟨states, height, got, known, rfl⟩ := h
    exact ⟨states, got, height, known, rfl⟩

/-- The records that are returned are those of the finished pages, held to the peak. -/
theorem recordsByPuzzleHash_returns_iff {records : List IfaceCoinRecord}
    : Loop.Returns
        (recordsByPuzzleHash fromCoinState session genesisChallenge requestPuzzleState peak)
        (.ok records)
      ↔ ∃ peer last height,
          session = .ok peer ∧ FinishesAt (requestPuzzleState peer) last
          ∧ peakHeight peak = .ok height
          ∧ records
            = (collected (requestPuzzleState peer) (last + 1)).map
                (reported fromCoinState height) := by
  constructor
  · intro h
    obtain ⟨requests, returned⟩ := h
    obtain ⟨fetched, ended, made⟩ := Loop.andThen_returned returned
    obtain ⟨states, height, rfl, known, rfl⟩ := coinRecords_ok_iff.mp made
    obtain ⟨peer, last, drawn, finishes, rfl⟩ :=
      puzzleStates_returns_iff.mp (⟨requests, ended⟩ : Loop.Returns _ _)
    exact ⟨peer, last, height, drawn, finishes, known, rfl⟩
  · intro h
    obtain ⟨peer, last, height, drawn, finishes, known, rfl⟩ := h
    obtain ⟨requests, ended⟩ :
        Loop.Returns (PooledFetcher.puzzleStates session genesisChallenge requestPuzzleState)
          (.ok (collected (requestPuzzleState peer) (last + 1))) :=
      puzzleStates_returns_iff.mpr ⟨peer, last, drawn, finishes, rfl⟩
    refine ⟨requests, ?_⟩
    rw [recordsByPuzzleHash, ended, Loop.andThen, coinRecordsByPuzzleHash]
    exact congrArg Loop.returned (coinRecords_ok_iff.mpr ⟨_, height, rfl, known, rfl⟩)

------------------------------------------------------------------------------------------
-- One record for each coin
------------------------------------------------------------------------------------------

/-- A state is reported under its own coin where records are. -/
theorem reported_coin (keepsCoin : ∀ state, (fromCoinState state).coin = state.coin)
    (height : Option UInt32) (state : CoinState)
    : (reported fromCoinState height state).coin = state.coin := by
  rw [← keepsCoin state]
  cases height <;> rfl

/-- The records of a list of states are one for each coin exactly when no coin is mentioned
twice.
-/
theorem oneRecordEach_iff (keepsCoin : ∀ state, (fromCoinState state).coin = state.coin)
    {height : Option UInt32} {states : List CoinState}
    : OneRecordEach coinId fromCoinState height states
        (states.map (reported fromCoinState height))
      ↔ (states.map (fun state => coinId state.coin)).Nodup := by
  rw [nodup_keys_iff]
  refine forall_congr' (fun id => ?_)
  simp only [List.filter_map, Function.comp_def, reported_coin keepsCoin]
  exact map_eq_toList_getLast?_iff

/-- A puzzle-hash read returns one record for each coin exactly when no coin is mentioned twice in
the pages of a read that finishes.
-/
theorem records_are_one_each_iff (coinId : ProtocolCoin → Bytes32)
    (fromCoinState : CoinState → IfaceCoinRecord)
    (keepsCoin : ∀ state, (fromCoinState state).coin = state.coin)
    (session : Except LightClientError Peer) (genesisChallenge : Bytes32)
    (requestPuzzleState : Peer → Nat → Reply PuzzleStatePage)
    : ReturnsOneEach coinId fromCoinState session genesisChallenge requestPuzzleState
      ↔ MentionsOnce coinId session requestPuzzleState := by
  constructor
  · intro oneEach peer last drawn finishes
    have returned
        : Loop.Returns
            (recordsByPuzzleHash fromCoinState session genesisChallenge requestPuzzleState
              (.ran none))
            (.ok
              ((collected (requestPuzzleState peer) (last + 1)).map
                (reported fromCoinState none))) :=
      recordsByPuzzleHash_returns_iff.mpr ⟨peer, last, none, drawn, finishes, rfl, rfl⟩
    obtain ⟨other, otherLast, height, otherDrawn, otherFinishes, known, each⟩ :=
      oneEach _ _ returned
    cases drawn.symm.trans otherDrawn
    obtain rfl := finishes.last_eq otherFinishes
    cases known
    exact (oneRecordEach_iff keepsCoin).mp each
  · intro once peak records returned
    obtain ⟨peer, last, height, drawn, finishes, known, rfl⟩ :=
      recordsByPuzzleHash_returns_iff.mp returned
    exact ⟨peer, last, height, drawn, finishes, known,
      (oneRecordEach_iff keepsCoin).mpr (once peer last drawn finishes)⟩

/-- A first page that mentions two coins, and a second one that mentions another, which was created
and spent since.
-/
def distinctPages (_ : Peer) : Nat → Reply PuzzleStatePage
  | 0 =>
      .answered
        {
          coinStates :=
            [{ coin := sampleCoin, createdHeight := some 9, spentHeight := none },
              { coin := sampleCoinOf 2, createdHeight := some 8, spentHeight := some 10 }],
          height := 10,
          headerHash := 1,
          isFinished := false
        }
  | _ =>
      .answered
        {
          coinStates :=
            [{ coin := sampleCoinOf 3, createdHeight := some 11, spentHeight := some 12 }],
          height := 12,
          headerHash := 2,
          isFinished := true
        }

/-- Coins that are mentioned once, on whichever page, have one record each. -/
theorem records_of_distinct_pages_are_one_each
    : ReturnsOneEach sampleCoinIdOf sampleRecord (.ok (sampleEntry 1).peer) 0 distinctPages := by
  have once : MentionsOnce sampleCoinIdOf (.ok (sampleEntry 1).peer) distinctPages := by
    intro peer last drawn finishes
    have second : FinishesAt (distinctPages peer) 1 := by
      have few : 3 ≤ maxAccumulatedCoinStates := by decide
      refine ⟨by decide, ?_, ⟨_, rfl, rfl⟩, few, ?_⟩
      · intro index bound
        obtain rfl := Nat.lt_one_iff.mp bound
        exact ⟨_, rfl, rfl⟩
      · exact fun index earlier later bound =>
          absurd (Nat.lt_of_succ_lt_succ bound) (Nat.not_lt_zero index)
    obtain rfl := second.last_eq finishes
    have ids : (collected (distinctPages peer) 2).map (fun state => sampleCoinIdOf state.coin)
        = [sampleId, sampleCoinIdOf (sampleCoinOf 2), sampleCoinIdOf (sampleCoinOf 3)] :=
      rfl
    rw [ids]
    decide
  exact (records_are_one_each_iff sampleCoinIdOf sampleRecord (fun _ => rfl) _ _ _).mpr once

/-- A coin is spent between the first page of a read and the second. -/
def movingPages (_ : Peer) : Nat → Reply PuzzleStatePage
  | 0 =>
      .answered
        {
          coinStates := [{ coin := sampleCoin, createdHeight := some 9, spentHeight := none }],
          height := 10,
          headerHash := 1,
          isFinished := false
        }
  | _ =>
      .answered
        {
          coinStates :=
            [{ coin := sampleCoin, createdHeight := some 9, spentHeight := some 12 }],
          height := 12,
          headerHash := 2,
          isFinished := true
        }

/-- A coin that is spent during a read is listed both as unspent and as spent. -/
theorem moving_coin_is_listed_twice
    : ¬ ∀ (coinId : ProtocolCoin → Bytes32) (fromCoinState : CoinState → IfaceCoinRecord)
        (session : Except LightClientError Peer) (genesisChallenge : Bytes32)
        (requestPuzzleState : Peer → Nat → Reply PuzzleStatePage),
        (∀ state, (fromCoinState state).coin = state.coin)
        → ReturnsOneEach coinId fromCoinState session genesisChallenge requestPuzzleState := by
  intro claim
  have oneEach :=
    claim sampleCoinId sampleRecord (.ok (sampleEntry 1).peer) 0 movingPages (fun _ => rfl)
  have returned
      : recordsByPuzzleHash sampleRecord (.ok (sampleEntry 1).peer) 0 movingPages (.ran none) 2
        = .returned
            (.ok
              [
                sampleRecord
                  { coin := sampleCoin, createdHeight := some 9, spentHeight := none },
                sampleRecord
                  { coin := sampleCoin, createdHeight := some 9, spentHeight := some 12 }
              ]) := by
    decide +kernel
  obtain ⟨peer, last, height, -, -, -, each⟩ := oneEach _ _ ⟨2, returned⟩
  have listed := congrArg List.length (each sampleId)
  rw [Option.length_toList] at listed
  split at listed <;> simp [sampleRecord, sampleCoinId] at listed

end ChiaQuery.LightClient
