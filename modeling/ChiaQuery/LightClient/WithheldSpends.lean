import ChiaQuery.LightClient.Provider
import ChiaQuery.Peer.BoundAnswers

/-! The two tiers over one peer's replies about a spent coin. The provider fails when the peer
rejects the request for the spend; the backend takes that rejection for an absence.
-/

namespace ChiaQuery

open LightClient PeerBackend

variable {crates : ChiaCrates}

/-- A peer reports the coin that a name asks for as spent at a height. -/
structure ReportsSpent (coinId : ProtocolCoin → Bytes32) (wire : PeerWire crates) (peer : Peer)
    (name : String) (id : Bytes32) (states : List CoinState) (height : UInt32)
    : Prop where
  parsed : parseBytes32 name = .ok id
  answered : wire.requestCoinState peer [id] = .answered states
  found :
    ∃ state,
      states.find? (fun state => coinId state.coin = id) = some state
      ∧ state.spentHeight = some height

/-- A peer reports the coin that a name asks for as unknown or unspent. -/
def ReportsAbsent (coinId : ProtocolCoin → Bytes32) (wire : PeerWire crates) (peer : Peer)
    (name : String)
    : Prop :=
  ∃ id states,
    parseBytes32 name = .ok id ∧ wire.requestCoinState peer [id] = .answered states
    ∧ ∀ state ∈ states.find? (fun state => coinId state.coin = id), state.spentHeight = none

/-- `LightClientProvider::coin_spend` over the replies of one peer. -/
def providerCoinSpend (coinId : ProtocolCoin → Bytes32) (cache : CoinStateCache)
    (wire : PeerWire crates) (peer : Peer) (id : Bytes32)
    : Except Registry.ChainSourceError (Option Registry.ProtocolCoinSpend) :=
  LightClientProvider.coinSpend crates
    (.ran
      (coinState coinId cache
        (fun ids _ => PooledFetcher.coinStates (.ok peer) wire.requestCoinState ids) id))
    (fun height =>
      .ran
        (PooledFetcher.puzzleAndSolution (.ok peer) wire.requestPuzzleAndSolution id height))

/-- The backend finds no spend only where the peer reports none, and both tiers fail where the
spend of a coin reported as spent is rejected.
-/
structure FailsOnWithheld (coinId : ProtocolCoin → Bytes32) (wire : PeerWire crates)
    (peer : Peer) (name : String)
    : Prop where
  absent : doGetCoinSpendOpt wire peer name = .ok none → ReportsAbsent coinId wire peer name
  backend :
    ∀ id states height,
      ReportsSpent coinId wire peer name id states height
      → wire.requestPuzzleAndSolution peer id height = .rejected
      → ∃ failure, doGetCoinSpendOpt wire peer name = .error failure
  provider :
    ∀ id states height cache,
      ReportsSpent coinId wire peer name id states height
      → wire.requestPuzzleAndSolution peer id height = .rejected
      → cache.cachedAnswer id = none
      → ∃ failure, providerCoinSpend coinId cache wire peer id = .error failure

/-- A peer that reports the asked coin as spent has a spent coin in its first state, does not
reject the request for the spend of that one, and does not reveal its puzzle either where it
rejects the spend of the asked coin.
-/
def ServesSpent (coinId : ProtocolCoin → Bytes32) (wire : PeerWire crates) (peer : Peer)
    (name : String)
    : Prop :=
  ∀ id states spentHeight,
    ReportsSpent coinId wire peer name id states spentHeight
    → ∃ first height,
        states.head? = some first ∧ first.spentHeight = some height
        ∧ wire.requestPuzzleAndSolution peer id height ≠ .rejected
        ∧ (wire.requestPuzzleAndSolution peer id spentHeight = .rejected
          → ∀ response, ¬ Reveals wire peer id height first.coin response)

variable {wire : PeerWire crates} {peer : Peer} {name : String} {id : Bytes32}
  {height : UInt32} {coin : ProtocolCoin} {coinId : ProtocolCoin → Bytes32}
  {states : List CoinState}

------------------------------------------------------------------------------------------
-- Where the backend finds no spend
------------------------------------------------------------------------------------------

/-- The spend of a coin is taken for absent exactly when the peer rejects the request for it. -/
theorem doGetSpendOf_eq_none_iff
    : doGetSpendOf wire peer name coin height = .ok none
      ↔ ∃ id,
          parseBytes32 name = .ok id
          ∧ wire.requestPuzzleAndSolution peer id height = .rejected := by
  simp only [doGetSpendOf, doGetPuzzleAndSolutionRaw, bind, bind_eq_ok_iff,
    Reply.orAbsent_eq_ok_iff]
  constructor
  · intro h
    obtain ⟨found, ⟨id, parsed, response, replied, named⟩, made⟩ := h
    rcases replied with ⟨rejected, rfl⟩ | ⟨answer, answered, rfl⟩
    · exact ⟨id, parsed, rejected⟩
    · -- A spend that was served is either checked and returned or refused.
      cases found with
      | none =>
          simp only at named
          split at named <;> cases named
      | some raw =>
          obtain ⟨_, _, returned⟩ := bind_eq_ok_iff.mp made
          cases returned
  · intro h
    obtain ⟨id, parsed, rejected⟩ := h
    exact ⟨none, ⟨id, parsed, none, Or.inl ⟨rejected, rfl⟩, rfl⟩, rfl⟩

/-- Only a reply that was sent is made anything of. -/
theorem exists_answered_of_ok {found : Option CoinSpend}
    (h : doGetCoinSpendOpt wire peer name = .ok found)
    : ∃ id states,
        parseBytes32 name = .ok id ∧ wire.requestCoinState peer [id] = .answered states := by
  simp only [doGetCoinSpendOpt, bind, bind_eq_ok_iff, Reply.orError_eq_ok_iff] at h
  obtain ⟨id, parsed, states, answered, -⟩ := h
  exact ⟨id, states, parsed, answered⟩

/-- The backend goes by the first state of a reply. -/
theorem doGetCoinSpendOpt_of_answered {first : CoinState} (parsed : parseBytes32 name = .ok id)
    (answered : wire.requestCoinState peer [id] = .answered states)
    (leads : states.head? = some first)
    : doGetCoinSpendOpt wire peer name
      = match first.spentHeight with
        | none => .ok none
        | some height => doGetSpendOf wire peer name first.coin height := by
  simp only [doGetCoinSpendOpt, parsed, answered, leads, bind, Except.bind, Reply.orError]
  rfl

theorem ReportsSpent.exists_first
    (h : ReportsSpent coinId wire peer name id states height)
    : ∃ first, states.head? = some first := by
  obtain ⟨state, found, -⟩ := h.found
  cases states with
  | nil => cases found
  | cons first later => exact ⟨first, rfl⟩

/-- A coin is not reported both as spent and as absent. -/
theorem ReportsSpent.not_absent (h : ReportsSpent coinId wire peer name id states height)
    : ¬ ReportsAbsent coinId wire peer name := by
  intro absent
  obtain ⟨other, otherStates, parsed, answered, unspent⟩ := absent
  obtain ⟨state, found, spent⟩ := h.found
  cases h.parsed.symm.trans parsed
  cases h.answered.symm.trans answered
  rw [unspent state found] at spent
  cases spent

/-- What is not served and not taken for absent is refused. -/
theorem exists_error_of_not_ok {α : Type} {outcome : Except ChiaQueryError (Option α)}
    (present : outcome ≠ .ok none) (unserved : ∀ value, outcome ≠ .ok (some value))
    : ∃ failure, outcome = .error failure := by
  cases outcome with
  | error failure => exact ⟨failure, rfl⟩
  | ok found =>
      cases found with
      | none => exact absurd rfl present
      | some value => exact absurd rfl (unserved value)

------------------------------------------------------------------------------------------
-- Both tiers
------------------------------------------------------------------------------------------

/-- The provider fails where the spend of a coin reported as spent is rejected. -/
theorem providerCoinSpend_of_rejected {cache : CoinStateCache}
    (reports : ReportsSpent coinId wire peer name id states height)
    (rejected : wire.requestPuzzleAndSolution peer id height = .rejected)
    (missed : cache.cachedAnswer id = none)
    : ∃ failure, providerCoinSpend coinId cache wire peer id = .error failure := by
  obtain ⟨state, found, spent⟩ := reports.found
  have looked
      : coinState coinId cache
          (fun ids _ => PooledFetcher.coinStates (.ok peer) wire.requestCoinState ids) id
        = .ok (some state) := by
    rw [coinState_of_miss missed]
    simp only [PooledFetcher.coinStates, reports.answered, bind, Except.bind,
      PooledFetcher.orError, Except.map, found]
  unfold providerCoinSpend LightClientProvider.coinSpend
  simp only [looked, runFetch, runBlocking, Except.mapError, bind, Except.bind, spent,
    PooledFetcher.puzzleAndSolution, PooledFetcher.orError, rejected]
  exact ⟨_, rfl⟩

/-- A coin reported as spent has its spend served, where neither tier takes it for absent. -/
theorem ReportsSpent.serves (reports : ReportsSpent coinId wire peer name id states height)
    (fails : FailsOnWithheld coinId wire peer name)
    : ∃ first firstHeight,
        states.head? = some first ∧ first.spentHeight = some firstHeight
        ∧ wire.requestPuzzleAndSolution peer id firstHeight ≠ .rejected
        ∧ (wire.requestPuzzleAndSolution peer id height = .rejected
          → ∀ response, ¬ Reveals wire peer id firstHeight first.coin response) := by
  obtain ⟨first, leads⟩ := reports.exists_first
  have goesBy := doGetCoinSpendOpt_of_answered reports.parsed reports.answered leads
  have present : doGetCoinSpendOpt wire peer name ≠ .ok none :=
    fun none => reports.not_absent (fails.absent none)
  cases spent : first.spentHeight with
  | none =>
      rw [spent] at goesBy
      exact absurd goesBy present
  | some firstHeight =>
      rw [spent] at goesBy
      simp only at goesBy
      refine ⟨first, firstHeight, leads, spent, ?_, ?_⟩
      · intro rejected
        rw [goesBy] at present
        exact present (doGetSpendOf_eq_none_iff.mpr ⟨id, reports.parsed, rejected⟩)
      · intro rejected response reveals
        obtain ⟨failure, failed⟩ := fails.backend id states height reports rejected
        have served :=
          doGetSpendOf_eq_some_iff.mpr ⟨id, response, reports.parsed, reveals, rfl⟩
        cases failed.symm.trans (goesBy.trans served)

/-- Over every sequence of replies, the backend fails as the provider does where a spend is
withheld exactly when a peer that reports the asked coin as spent serves it.
-/
theorem withheld_spends_fail_iff (crates : ChiaCrates) (coinId : ProtocolCoin → Bytes32)
    (wire : PeerWire crates) (peer : Peer) (name : String)
    : FailsOnWithheld coinId wire peer name ↔ ServesSpent coinId wire peer name := by
  constructor
  · intro fails id states spentHeight reports
    exact reports.serves fails
  · intro serves
    refine ⟨?_, ?_, ?_⟩
    · intro taken
      obtain ⟨id, states, parsed, answered⟩ := exists_answered_of_ok taken
      refine ⟨id, states, parsed, answered, ?_⟩
      intro state found
      by_contra spent
      obtain ⟨spentHeight, spent⟩ := Option.ne_none_iff_exists'.mp spent
      obtain ⟨first, height, leads, firstSpent, kept, -⟩ :=
        serves id states spentHeight ⟨parsed, answered, state, found, spent⟩
      have goesBy := doGetCoinSpendOpt_of_answered parsed answered leads
      rw [taken, firstSpent] at goesBy
      obtain ⟨other, same, rejected⟩ := doGetSpendOf_eq_none_iff.mp goesBy.symm
      cases parsed.symm.trans same
      exact kept rejected
    · intro id states spentHeight reports rejected
      obtain ⟨first, height, leads, firstSpent, kept, unrevealed⟩ :=
        serves id states spentHeight reports
      have goesBy := doGetCoinSpendOpt_of_answered reports.parsed reports.answered leads
      rw [firstSpent] at goesBy
      rw [goesBy]
      refine exists_error_of_not_ok ?_ ?_
      · intro taken
        obtain ⟨other, same, firstRejected⟩ := doGetSpendOf_eq_none_iff.mp taken
        cases reports.parsed.symm.trans same
        exact kept firstRejected
      · intro spend served
        obtain ⟨other, response, same, reveals, -⟩ := doGetSpendOf_eq_some_iff.mp served
        cases reports.parsed.symm.trans same
        exact unrevealed rejected response reveals
    · intro id states height cache reports rejected missed
      exact providerCoinSpend_of_rejected reports rejected missed

/-- Connections on which a coin is reported as spent and its spend is rejected. -/
def withholdingWire : PeerWire PeerRequest.sampleCrates :=
  {
    PeerRequest.silentWire with
    requestCoinState := fun _ _ =>
      .answered [{ coin := sampleCoin, createdHeight := some 9, spentHeight := some 12 }],
    requestPuzzleAndSolution := fun _ _ _ => .rejected
  }

/-- A spend that is withheld is taken for absent. -/
theorem withheld_spend_is_absent
    : ¬ ∀ (crates : ChiaCrates) (coinId : ProtocolCoin → Bytes32) (wire : PeerWire crates)
        (peer : Peer) (name : String),
        FailsOnWithheld coinId wire peer name := by
  intro claim
  have fails :=
    claim PeerRequest.sampleCrates sampleCoinId withholdingWire (sampleEntry 1).peer
      (hex32 sampleId)
  have reports
      : ReportsSpent sampleCoinId withholdingWire (sampleEntry 1).peer (hex32 sampleId) sampleId
          [{ coin := sampleCoin, createdHeight := some 9, spentHeight := some 12 }] 12 :=
    ⟨parseBytes32_hex32 sampleId, rfl, _, rfl, rfl⟩
  obtain ⟨first, height, -, -, kept, -⟩ := reports.serves fails
  exact kept rfl

end ChiaQuery
