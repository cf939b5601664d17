import ChiaQuery.LightClient.RepeatedCoins
import ChiaQuery.LightClient.UpdateEffects
import ChiaQuery.Peer.LocalErrors

/-! Whom the single-coin reads of the provider answer about. The cache files every state under
the id of its own coin, whatever the operations on it carried, so that a read is about the asked
coin whether the cache answers it or a peer does; and a spend that is returned reveals the puzzle
of that coin.
-/

namespace ChiaQuery.LightClient

open Std ChiaQuery.Library ChiaQuery.Registry

/-- Every cached state is filed under the id of its coin. -/
def CoinStateCache.Keyed (coinId : ProtocolCoin → Bytes32) (cache : CoinStateCache) : Prop :=
  ∀ id state, cache.get id = some state → coinId state.coin = id

/-- What a single-coin read of the provider meets: the cache and the peak as it reads them, the
sessions its two requests draw, and what they come to there.
-/
structure ReadMoment (crates : ChiaCrates) where
  cache : CoinStateCache
  peak : Blocking (Option (UInt32 × Bytes32))
  session : Except LightClientError Peer
  revealSession : Except LightClientError Peer
  wire : PeerWire crates

namespace ReadMoment

variable {crates : ChiaCrates} (coinId : ProtocolCoin → Bytes32) (moment : ReadMoment crates)

/-- `coin_state`. -/
def coinState (id : Bytes32) : Except LightClientError (Option CoinState) :=
  LightClient.coinState coinId moment.cache
    (fun ids _ => PooledFetcher.coinStates moment.session moment.wire.requestCoinState ids) id

/-- `puzzle_and_solution`. -/
def puzzleAndSolution (id : Bytes32) (height : UInt32)
    : Except LightClientError (List UInt8 × List UInt8) :=
  PooledFetcher.puzzleAndSolution moment.revealSession moment.wire.requestPuzzleAndSolution id
    height

/-- `coin_record`. -/
def coinRecord (fromCoinState : CoinState → IfaceCoinRecord) (id : Bytes32)
    : Except ChainSourceError (Option IfaceCoinRecord) :=
  LightClientProvider.coinRecord fromCoinState moment.peak (.ran (moment.coinState coinId id))

/-- `coin_spend`. -/
def coinSpend (id : Bytes32) : Except ChainSourceError (Option Registry.ProtocolCoinSpend) :=
  LightClientProvider.coinSpend crates (.ran (moment.coinState coinId id))
    (fun height => .ran (moment.puzzleAndSolution id height))

/-- Where a coin's state comes from: the cache, while the coin is subscribed to, or else the
session that was asked for it.
-/
inductive Reports (id : Bytes32) (state : CoinState) : Prop
  | cached (hit : moment.cache.cachedAnswer id = some state)
  | fetched {peer states} (missed : moment.cache.cachedAnswer id = none)
    (drawn : moment.session = .ok peer)
    (answered : moment.wire.requestCoinState peer [id] = .answered states)
    (member : state ∈ states)

/-- The coin is not in the cache, and the session that was asked mentions it in no state. -/
def Denies (id : Bytes32) : Prop :=
  moment.cache.cachedAnswer id = none
  ∧ ∃ peer states,
      moment.session = .ok peer
      ∧ moment.wire.requestCoinState peer [id] = .answered states
      ∧ ∀ state ∈ states, coinId state.coin ≠ id

/-- The single-coin reads are about the asked coin. A record is of a reported state of it; a spend
is of its coin, reveals that coin's puzzle, and was served at the height it is reported spent at;
nothing is found only where the coin is denied, or no spend of it is reported.
-/
structure AnswersAsked (fromCoinState : CoinState → IfaceCoinRecord) (id : Bytes32) : Prop where
  recorded :
    ∀ record,
      moment.coinRecord coinId fromCoinState id = .ok (some record)
      → coinId record.coin = id
        ∧ ∃ state peak,
            moment.Reports id state ∧ LightClientProvider.peakHeight moment.peak = .ok peak
            ∧ record = LightClientProvider.reported fromCoinState peak state
  unrecorded :
    moment.coinRecord coinId fromCoinState id = .ok none → moment.Denies coinId id
  spent :
    ∀ spend,
      moment.coinSpend coinId id = .ok (some spend)
      → coinId spend.coin = id
        ∧ crates.treeHashFromBytes spend.puzzleReveal = .ok spend.coin.puzzleHash
        ∧ ∃ state height,
            moment.Reports id state ∧ state.coin = spend.coin ∧ state.spentHeight = some height
            ∧ moment.puzzleAndSolution id height = .ok (spend.puzzleReveal, spend.solution)
  unspent :
    moment.coinSpend coinId id = .ok none
    → moment.Denies coinId id
      ∨ ∃ state,
          moment.Reports id state ∧ coinId state.coin = id ∧ state.spentHeight = none

end ReadMoment

variable {coinId : ProtocolCoin → Bytes32} {cache : CoinStateCache}

------------------------------------------------------------------------------------------
-- Every operation files states under their own ids
------------------------------------------------------------------------------------------

namespace CoinStateCache

variable {height forkHeight : UInt32} {headerHash peakHash id : Bytes32} {allowLower : Bool}
variable {items states : List CoinState}

theorem keyed_empty : CoinStateCache.empty.Keyed coinId := by
  intro id state found
  simp [get, empty] at found

theorem Keyed.seed (keyed : cache.Keyed coinId) : (cache.seed coinId states).Keyed coinId := by
  intro id state found
  rcases get_seed_inv found with held | ⟨-, same⟩
  · exact keyed id state held
  · exact same

theorem Keyed.updatePeak (keyed : cache.Keyed coinId)
    : (cache.updatePeak height headerHash allowLower).Keyed coinId := by
  intro id state found
  rw [get_updatePeak] at found
  split at found
  · exact keyed id state (Option.filter_eq_some_iff.mp found).1
  · exact keyed id state found

/-- A fork leaves the coin of a state as it was. -/
theorem coin_of_rollBack {reasserted : Finset Bytes32} {held found : CoinState}
    (left : rollBack reasserted forkHeight id held = some found)
    : found.coin = held.coin := by
  unfold rollBack at left
  split_ifs at left
  all_goals
    cases left
    rfl

theorem Keyed.applyUpdate (keyed : cache.Keyed coinId)
    : (cache.applyUpdate coinId items height forkHeight peakHash).Keyed coinId := by
  rw [applyUpdate_eq_seed]
  apply Keyed.seed
  intro id state found
  obtain ⟨held, before, left⟩ := Option.bind_eq_some_iff.mp (rolledBack_of_get_afterFork found)
  rw [coin_of_rollBack left]
  exact keyed id held before

/-- Tracking and untracking leave the states alone; the other operations keep them keyed. -/
theorem Keyed.perform (keyed : cache.Keyed coinId) (operation : CacheOperation)
    : (cache.perform coinId operation).Keyed coinId := by
  cases operation with
  | trackCoins | trackPuzzleHashes | untrackCoins => exact keyed
  | seed states => exact keyed.seed
  | setPeak height headerHash => exact keyed.updatePeak
  | applyUpdate items height forkHeight peakHash => exact keyed.applyUpdate

theorem keyed_of_run {operations : List CacheOperation}
    (reached : (cacheHistory coinId).run operations = some cache)
    : cache.Keyed coinId :=
  Machine.reachable_invariant keyed_empty
    (fun kept stepped => Option.some.inj stepped ▸ kept.perform _) reached

theorem Keyed.cachedAnswer (keyed : cache.Keyed coinId) {state : CoinState}
    (hit : cache.cachedAnswer id = some state)
    : coinId state.coin = id := by
  unfold CoinStateCache.cachedAnswer at hit
  split at hit
  · exact keyed id state hit
  · cases hit

end CoinStateCache

------------------------------------------------------------------------------------------
-- What the reads make of it
------------------------------------------------------------------------------------------

namespace ReadMoment

variable {crates : ChiaCrates} {moment : ReadMoment crates} {id : Bytes32}

theorem coinStates_eq_ok_iff {session : Except LightClientError Peer}
    {requestCoinState : Peer → List Bytes32 → Reply (List CoinState)} {ids : List Bytes32}
    {states : List CoinState}
    : PooledFetcher.coinStates session requestCoinState ids = .ok states
      ↔ ∃ peer, session = .ok peer ∧ requestCoinState peer ids = .answered states := by
  rw [PooledFetcher.coinStates]
  cases session with
  | error failure => simp [bind, Except.bind]
  | ok peer =>
      simp only [bind, Except.bind, Except.ok.injEq, exists_eq_left']
      cases requestCoinState peer ids <;> simp [PooledFetcher.orError]

/-- A state that was found is reported and of the asked coin; a coin without one is denied. -/
theorem coinState_cases (keyed : moment.cache.Keyed coinId) {found : Option CoinState}
    (read : moment.coinState coinId id = .ok found)
    : (∃ state, found = some state ∧ moment.Reports id state ∧ coinId state.coin = id)
      ∨ found = none ∧ moment.Denies coinId id := by
  cases answer : moment.cache.cachedAnswer id with
  | some state =>
      rw [coinState, LightClient.coinState, answer] at read
      cases read
      exact Or.inl ⟨state, rfl, .cached answer, keyed.cachedAnswer answer⟩
  | none =>
      rw [coinState, coinState_of_miss answer] at read
      obtain ⟨states, fetched, same⟩ : ∃ states,
          PooledFetcher.coinStates moment.session moment.wire.requestCoinState [id] = .ok states
          ∧ states.find? (fun state => coinId state.coin = id) = found := by
        cases fetched : PooledFetcher.coinStates moment.session moment.wire.requestCoinState [id]
          with
        | error failure =>
            rw [fetched] at read
            cases read
        | ok states =>
            rw [fetched] at read
            exact ⟨states, rfl, Except.ok.inj read⟩
      obtain ⟨peer, drawn, answered⟩ := coinStates_eq_ok_iff.mp fetched
      cases found with
      | some state =>
          left
          refine ⟨state, rfl, .fetched answer drawn answered (List.mem_of_find?_eq_some same), ?_⟩
          simpa using List.find?_some same
      | none =>
          right
          refine ⟨rfl, answer, peer, states, drawn, answered, ?_⟩
          simpa using List.find?_eq_none.mp same

theorem verifyRevealMatches_eq_ok_iff {puzzle : List UInt8} {expected : Bytes32}
    : verifyRevealMatches crates puzzle expected = .ok ()
      ↔ crates.treeHashFromBytes puzzle = .ok expected := by
  unfold verifyRevealMatches
  cases crates.treeHashFromBytes puzzle with
  | error failure => simp
  | ok actual =>
      by_cases same : actual = expected
      · simp [same]
      · simp [same]

/-- What a read of a spend comes to, by what was found of the coin. -/
theorem coinSpend_cases {found : Option Registry.ProtocolCoinSpend}
    (read : moment.coinSpend coinId id = .ok found)
    : ∃ state, moment.coinState coinId id = .ok state
      ∧ (state.bind CoinState.spentHeight = none ∧ found = none
        ∨ ∃ held height spend,
            state = some held ∧ held.spentHeight = some height ∧ found = some spend
            ∧ spend.coin = held.coin
            ∧ moment.puzzleAndSolution id height = .ok (spend.puzzleReveal, spend.solution)
            ∧ crates.treeHashFromBytes spend.puzzleReveal = .ok held.coin.puzzleHash) := by
  rw [coinSpend, LightClientProvider.coinSpend] at read
  obtain ⟨state, stated, read⟩ := bind_eq_ok_iff.mp read
  refine ⟨state, runFetch_ran_eq_ok_iff.mp stated, ?_⟩
  cases state with
  | none =>
      cases read
      exact Or.inl ⟨rfl, rfl⟩
  | some held =>
      cases height : held.spentHeight with
      | none =>
          simp only [height] at read
          cases read
          exact Or.inl ⟨height, rfl⟩
      | some spentHeight =>
          simp only [height] at read
          obtain ⟨⟨puzzle, solution⟩, fetched, read⟩ := bind_eq_ok_iff.mp read
          obtain ⟨checked, verified, read⟩ := bind_eq_ok_iff.mp read
          cases read
          exact Or.inr ⟨held, spentHeight, _, rfl, height, rfl, rfl,
            runFetch_ran_eq_ok_iff.mp fetched, verifyRevealMatches_eq_ok_iff.mp verified⟩

/-- What a read of a record comes to, by what was found of the coin. -/
theorem coinRecord_cases {fromCoinState : CoinState → IfaceCoinRecord}
    {found : Option IfaceCoinRecord}
    (read : moment.coinRecord coinId fromCoinState id = .ok found)
    : ∃ peak state,
        LightClientProvider.peakHeight moment.peak = .ok peak
        ∧ moment.coinState coinId id = .ok state
        ∧ found = state.map (LightClientProvider.reported fromCoinState peak) := by
  rw [coinRecord, LightClientProvider.coinRecord] at read
  obtain ⟨peak, known, read⟩ := bind_eq_ok_iff.mp read
  obtain ⟨state, stated, read⟩ := bind_eq_ok_iff.mp read
  exact ⟨peak, state, known, runFetch_ran_eq_ok_iff.mp stated, (Except.ok.inj read).symm⟩

/-- Over the cache of any run of its operations, whatever they carried, and whatever the peers
reply, every single-coin read of the provider is about the asked coin.
-/
theorem single_coin_reads_answer_asked {fromCoinState : CoinState → IfaceCoinRecord}
    (keepsCoin : ∀ state, (fromCoinState state).coin = state.coin)
    {operations : List CacheOperation}
    (reached : (cacheHistory coinId).run operations = some moment.cache) (id : Bytes32)
    : moment.AnswersAsked coinId fromCoinState id where
  recorded := by
    intro record read
    obtain ⟨peak, found, known, stated, same⟩ := coinRecord_cases read
    rcases coinState_cases (CoinStateCache.keyed_of_run reached) stated with
      ⟨state, rfl, reports, asked⟩ | ⟨rfl, -⟩
    · cases same
      refine ⟨?_, state, peak, reports, known, rfl⟩
      rw [reported_coin keepsCoin]
      exact asked
    · cases same
  unrecorded := by
    intro read
    obtain ⟨peak, found, known, stated, same⟩ := coinRecord_cases read
    rcases coinState_cases (CoinStateCache.keyed_of_run reached) stated with
      ⟨state, rfl, -⟩ | ⟨-, denied⟩
    · cases same
    · exact denied
  spent := by
    intro spend read
    obtain ⟨found, stated, ⟨-, absent⟩ | ⟨held, height, served, rfl, spent, whole, same, rest⟩⟩ :=
      coinSpend_cases read
    · cases absent
    · cases whole
      obtain ⟨revealed, hashed⟩ := rest
      rcases coinState_cases (CoinStateCache.keyed_of_run reached) stated with
        ⟨state, found, reports, asked⟩ | ⟨absent, -⟩
      · cases found
        rw [same]
        exact ⟨asked, hashed, held, height, reports, rfl, spent, revealed⟩
      · cases absent
  unspent := by
    intro read
    obtain ⟨found, stated, ⟨unspent, -⟩ | ⟨_, _, _, _, _, absurd, _⟩⟩ := coinSpend_cases read
    · rcases coinState_cases (CoinStateCache.keyed_of_run reached) stated with
        ⟨state, rfl, reports, asked⟩ | ⟨-, denied⟩
      · exact Or.inr ⟨state, reports, asked, unspent⟩
      · exact Or.inl denied
    · cases absurd

/-- A coin is subscribed to and its state seeded, before the first peak. -/
def sampleOperations : List CacheOperation :=
  [.trackCoins [sampleId],
    .seed [{ coin := sampleCoin, createdHeight := some 5, spentHeight := none }],
    .setPeak 7 1]

/-- The coin is read while no session answers. -/
def sampleMoment (cache : CoinStateCache) : ReadMoment PeerRequest.sampleCrates where
  cache := cache
  peak := .ran cache.peak
  session := .error .notConnected
  revealSession := .error .notConnected
  wire := PeerRequest.silentWire

theorem single_coin_reads_answer_asked_sample
    : ∃ cache, (cacheHistory sampleCoinId).run sampleOperations = some cache
        ∧ (∃ record,
            (sampleMoment cache).coinRecord sampleCoinId sampleRecord sampleId = .ok (some record))
        ∧ (sampleMoment cache).AnswersAsked sampleCoinId sampleRecord sampleId := by
  have reached
      : ((cacheHistory sampleCoinId).run sampleOperations).any (fun cache =>
          decide ((sampleMoment cache).coinRecord sampleCoinId sampleRecord sampleId
            = .ok (some (sampleRecord
                { coin := sampleCoin, createdHeight := some 5, spentHeight := none }))))
        = true := by
    decide +kernel
  obtain ⟨cache, reached, recorded⟩ := (Option.any_eq_true _ _).mp reached
  have answers : (sampleMoment cache).AnswersAsked sampleCoinId sampleRecord sampleId :=
    single_coin_reads_answer_asked (fun _ => rfl) reached sampleId
  exact ⟨cache, reached, ⟨_, of_decide_eq_true recorded⟩, answers⟩

end ReadMoment

end ChiaQuery.LightClient
