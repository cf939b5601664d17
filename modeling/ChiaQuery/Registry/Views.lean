import ChiaQuery.Library.KeyedSort
import ChiaQuery.Library.FirstAnswers
import ChiaQuery.Types.Records

/-! The provider registry and its custody view. A read for custody is answered by a provider
the operator trusts, or else, where the operator has opted in, by as many independent groups
of public providers as the threshold asks for.
-/

namespace ChiaQuery.Registry

open ChiaQuery.Library

/-- `ChainSourceError`: why a provider could not answer. -/
inductive ChainSourceError where
  | transport (text : String)
  | malformed (text : String)
  | timeout
  | unsupported (text : String)
  | noProvider
  | tooManyRecords (count limit : Nat)
  deriving DecidableEq, Repr

/-- `ProviderKind`. -/
inductive ProviderKind where
  | localNode
  | publicOracle
  | digPeers
  | custom
  deriving DecidableEq, Repr

/-- `ProviderInfo`, with the fields the registry reads. -/
structure ProviderInfo where
  kind : ProviderKind
  priority : Int
  deriving DecidableEq, Repr

/-- `TrustLevel`. -/
inductive TrustLevel where
  | trusted
  | untrusted
  deriving DecidableEq, Repr

/-- `TrustLevel::default_for`. -/
def TrustLevel.defaultFor : ProviderKind → TrustLevel
  | .localNode => .trusted
  | .publicOracle | .digPeers | .custom => .untrusted

/-- `PUBLIC_QUORUM_THRESHOLD`. -/
def publicQuorumThreshold : Nat := 2

/-- `MAX_QUORUM_RECORDS`. -/
def maxQuorumRecords : Nat := 100000

variable {Provider α : Type*}

/-- `Registration`. -/
structure Registration (Provider : Type*) where
  provider : Provider
  info : ProviderInfo
  trust : TrustLevel
  independenceGroup : String

/-- `ProviderRegistry`. -/
structure ProviderRegistry (Provider : Type*) where
  providers : List (Registration Provider)
  allowPublicQuorumCustody : Bool

/-- How the answers of a quorum are compared and bounded: `QuorumComparable`. -/
structure QuorumComparable (α : Type*) where
  quorumEq : α → α → Bool
  validateBound : α → Except ChainSourceError Unit
  equivalence : Equivalence (fun left right => quorumEq left right = true)

namespace ProviderRegistry

/-- `ProviderRegistry::new`. -/
def new : ProviderRegistry Provider where
  providers := []
  allowPublicQuorumCustody := false

/-- `register`. -/
def register (registry : ProviderRegistry Provider) (provider : Provider)
    (info : ProviderInfo) (trustOverride : Option TrustLevel) (independenceGroup : String)
    : ProviderRegistry Provider :=
  { registry with
    providers := registry.providers
      ++ [{
        provider,
        info,
        trust := trustOverride.getD (TrustLevel.defaultFor info.kind),
        independenceGroup
      }] }

/-- `by_priority`. -/
def byPriority (registry : ProviderRegistry Provider) : List (Registration Provider) :=
  sortByKey (fun registration => registration.info.priority) registry.providers

end ProviderRegistry

/-- The loop over the trusted providers: the first value, or else the last error. -/
def firstValue (query : Provider → Except ChainSourceError α)
    : ChainSourceError → List (Registration Provider) → Except ChainSourceError α
  | lastError, [] => .error lastError
  | _, registration :: rest =>
      match query registration.provider with
      | .ok value => .ok value
      | .error failure => firstValue query failure rest

/-- What a provider contributes to a quorum: an answer within the bound. -/
def inBoundAnswer (comparable : QuorumComparable α)
    (query : Provider → Except ChainSourceError α) (registration : Registration Provider)
    : Option α :=
  match query registration.provider with
  | .error _ => none
  | .ok answer =>
      match comparable.validateBound answer with
      | .error _ => none
      | .ok () => some answer

/-- The representative answers of the independence groups. -/
def perGroup (comparable : QuorumComparable α)
    (query : Provider → Except ChainSourceError α)
    (providers : List (Registration Provider))
    : List (String × α) :=
  gather Registration.independenceGroup (inBoundAnswer comparable query) providers

/-- How many representatives agree with a candidate. -/
def agreeing (comparable : QuorumComparable α) (representatives : List (String × α))
    (candidate : α)
    : Nat :=
  (representatives.filter (fun entry => comparable.quorumEq entry.2 candidate)).length

/-- `quorum_read`: the first representative that enough groups agree with. -/
def quorumRead (comparable : QuorumComparable α) (providers : List (Registration Provider))
    (threshold : Nat) (query : Provider → Except ChainSourceError α)
    : Except ChainSourceError α :=
  let representatives := perGroup comparable query providers
  match representatives.find? (fun candidate =>
      threshold ≤ agreeing comparable representatives candidate.2) with
  | some candidate => .ok candidate.2
  | none => .error .noProvider

/-- `custody_read`. -/
def custodyRead (registry : ProviderRegistry Provider) (comparable : QuorumComparable α)
    (query : Provider → Except ChainSourceError α)
    : Except ChainSourceError α :=
  let trusted :=
    registry.byPriority.filter (fun registration => registration.trust = .trusted)
  if !trusted.isEmpty then
    -- However they fail, no other provider is asked.
    firstValue query .noProvider trusted
  else if !registry.allowPublicQuorumCustody then .error .noProvider
  else quorumRead comparable registry.providers publicQuorumThreshold query

/-- Answers without an inner order agree when they are equal. -/
def quorumEqViaPartialEq (α : Type*) [DecidableEq α] : QuorumComparable α where
  quorumEq left right := decide (left = right)
  validateBound _ := .ok ()
  equivalence := by simpa using eq_equivalence

/-- The interface's `CoinRecord`. -/
structure IfaceCoinRecord where
  coin : ProtocolCoin
  confirmedHeight : Option UInt32
  spentHeight : Option UInt32
  timestamp : Option UInt64
  coinbase : Bool
  deriving DecidableEq, Repr

/-- The protocol's `CoinSpend`: a coin with its serialized puzzle and solution. -/
structure ProtocolCoinSpend where
  coin : ProtocolCoin
  puzzleReveal : List UInt8
  solution : List UInt8
  deriving DecidableEq, Repr

section Lists

variable (coinId : ProtocolCoin → Bytes32)

/-- `canonical_order`: records by coin id, records of one coin as they came. -/
def canonicalOrder (records : List IfaceCoinRecord) : List (Bytes32 × IfaceCoinRecord) :=
  sortByKey (fun entry => entry.1.toNat)
    (records.map (fun record => (coinId record.coin, record)))

/-- The comparison of `Vec<CoinRecord>`: in canonical order, within the bound. -/
def recordsComparable : QuorumComparable (List IfaceCoinRecord) where
  quorumEq left right := decide (canonicalOrder coinId left = canonicalOrder coinId right)
  validateBound records :=
    if maxQuorumRecords < records.length then
      .error (.tooManyRecords records.length maxQuorumRecords)
    else .ok ()
  equivalence := by
    simp only [decide_eq_true_eq]
    exact ⟨fun _ => rfl, fun same => same.symm, fun first second => first.trans second⟩

end Lists

/-- `ChainSource`: the reads of a provider and of a view. -/
structure ChainSource (SingletonLineage : Type*) where
  coinRecord : Bytes32 → Except ChainSourceError (Option IfaceCoinRecord)
  coinRecordsByPuzzleHash
    : Bytes32 → Bool → Except ChainSourceError (List IfaceCoinRecord)
  coinRecordsByParent : Bytes32 → Except ChainSourceError (List IfaceCoinRecord)
  coinSpend : Bytes32 → Except ChainSourceError (Option ProtocolCoinSpend)
  resolveSingletonLineage : Bytes32 → Except ChainSourceError (Option SingletonLineage)
  peakHeight : Except ChainSourceError (Option UInt32)
  blockTimestamp : UInt32 → Except ChainSourceError (Option UInt64)

/-- `trusted`: every read under the custody rule. -/
def ProviderRegistry.trusted {SingletonLineage : Type*} [DecidableEq SingletonLineage]
    (coinId : ProtocolCoin → Bytes32)
    (registry : ProviderRegistry (ChainSource SingletonLineage))
    : ChainSource SingletonLineage where
  coinRecord id :=
    custodyRead registry (quorumEqViaPartialEq _) (fun source => source.coinRecord id)
  coinRecordsByPuzzleHash puzzleHash includeSpent :=
    custodyRead registry (recordsComparable coinId) (fun source =>
      source.coinRecordsByPuzzleHash puzzleHash includeSpent)
  coinRecordsByParent parent :=
    custodyRead registry (recordsComparable coinId) (fun source =>
      source.coinRecordsByParent parent)
  coinSpend id :=
    custodyRead registry (quorumEqViaPartialEq _) (fun source => source.coinSpend id)
  resolveSingletonLineage launcher :=
    custodyRead registry (quorumEqViaPartialEq _) (fun source =>
      source.resolveSingletonLineage launcher)
  peakHeight := custodyRead registry (quorumEqViaPartialEq _) (fun source => source.peakHeight)
  blockTimestamp height :=
    custodyRead registry (quorumEqViaPartialEq _) (fun source => source.blockTimestamp height)

end ChiaQuery.Registry
