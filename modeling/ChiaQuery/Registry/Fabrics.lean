import ChiaQuery.Registry.ChiaQueryProvider
import ChiaQuery.Registry.Custody

/-! A registry of sources in the independence groups that what they can reach puts them in. An
answer for custody is then the truth as long as one of the two fabrics, coinset.org and the peers
of those who do not reach it, does not lie beyond its bounds.
-/

namespace ChiaQuery.Registry

open ChiaQuery.Library ChiaQuery.Coinset

/-- `COINSET_INDEPENDENCE_GROUP`. -/
def coinsetIndependenceGroup : String := "coinset.org"

/-- `CHIA_PEERS_INDEPENDENCE_GROUP`. -/
def chiaPeersIndependenceGroup : String := "chia-peers"

/-- `independence_group_for`. -/
def independenceGroupFor (coinsetReachable : Bool) : String :=
  if coinsetReachable then coinsetIndependenceGroup else chiaPeersIndependenceGroup

/-- `RegisteredProvider`. -/
structure RegisteredProvider where
  kind : ProviderKind
  trust : TrustLevel
  independenceGroup : String
  deriving DecidableEq, Repr

namespace ProviderRegistry

variable {Provider : Type*} (registry : ProviderRegistry Provider)

/-- `allow_public_quorum_custody`. -/
def setPublicQuorumCustody (allow : Bool) : ProviderRegistry Provider :=
  { registry with allowPublicQuorumCustody := allow }

/-- `registrations`. -/
def registrations : List RegisteredProvider :=
  registry.providers.map (fun registration =>
    {
      kind := registration.info.kind,
      trust := registration.trust,
      independenceGroup := registration.independenceGroup
    })

/-- `independence_groups`, with its duplicates. -/
def independenceGroups : List String :=
  registry.providers.map (·.independenceGroup)

end ProviderRegistry

/-- `independence_group` of a client. -/
def ChiaQueryClient.independenceGroup {crates : ChiaCrates} {blocks : BlockCrates}
    (client : ChiaQueryClient crates blocks)
    : String :=
  independenceGroupFor client.coinsetFallbackEnabled

variable {crates : ChiaCrates} {blocks : BlockCrates} {SingletonLineage : Type}

/-- `independence_group` of a provider. -/
def ChiaQueryProvider.independenceGroup
    (provider : ChiaQueryProvider crates blocks SingletonLineage)
    : String :=
  provider.inner.independenceGroup

/-- A source of this crate. -/
inductive Fabric (crates : ChiaCrates) (blocks : BlockCrates) (SingletonLineage : Type) where
  | chiaQuery (provider : ChiaQueryProvider crates blocks SingletonLineage)
  | coinset (source : CoinsetChainSource)

namespace Fabric

/-- The source can answer from coinset.org. -/
def coinsetReachable : Fabric crates blocks SingletonLineage → Bool
  | chiaQuery provider => provider.inner.coinsetFallbackEnabled
  | coinset _ => true

/-- The group the source is registered in. -/
def independenceGroup : Fabric crates blocks SingletonLineage → String
  | chiaQuery provider => provider.independenceGroup
  | coinset _ => independenceGroupFor true

def toChainSource : Fabric crates blocks SingletonLineage → ChainSource SingletonLineage
  | chiaQuery provider => provider.toChainSource
  | coinset source => source.toChainSource SingletonLineage

/-- Few enough lie of those the source asks. -/
def Sound (chain : ChainTruth) : Fabric crates blocks SingletonLineage → Prop
  | chiaQuery provider => provider.inner.Sound chain
  | coinset source => HonestCoinset chain source.client

theorem independenceGroup_eq (fabric : Fabric crates blocks SingletonLineage)
    : fabric.independenceGroup = independenceGroupFor fabric.coinsetReachable := by
  cases fabric with
  | chiaQuery provider => rfl
  | coinset source => rfl

theorem Sound.tellsChain {chain : ChainTruth} {fabric : Fabric crates blocks SingletonLineage}
    (sound : fabric.Sound chain)
    : TellsChain chain fabric.toChainSource := by
  cases fabric with
  | chiaQuery provider => exact ChiaQueryProvider.tellsChain sound
  | coinset source => exact CoinsetChainSource.tellsChain sound SingletonLineage

end Fabric

/-- The sources registered one after another, each in its group, with the trust of its kind. -/
def registerFabrics (fabrics : List (Fabric crates blocks SingletonLineage × ProviderInfo))
    : ProviderRegistry (ChainSource SingletonLineage) :=
  fabrics.foldl (fun registry (fabric, info) =>
    registry.register fabric.toChainSource info none fabric.independenceGroup) .new

/-- What custody reads tell over public sources in their groups: the truth, as long as the sources
of all groups but one are sound, and nothing over sources that all reach coinset.org or that all
do not, or where the operator has not opted in.
-/
structure SurvivesOneFabric (coinId : ProtocolCoin → Bytes32) (chain : ChainTruth)
    [DecidableEq SingletonLineage]
    (fabrics : List (Fabric crates blocks SingletonLineage × ProviderInfo))
    : Prop where
  tellsChain
    : ∀ corrupt : String,
        (∀ entry ∈ fabrics, entry.1.independenceGroup ≠ corrupt → entry.1.Sound chain)
        → ∀ allow,
          TellsChain chain (((registerFabrics fabrics).setPublicQuorumCustody allow).trusted coinId)
  alone
    : (∀ entry ∈ fabrics, ∀ other ∈ fabrics,
        entry.1.coinsetReachable = other.1.coinsetReachable)
      → ∀ {α : Type} (comparable : QuorumComparable α) query allow,
          custodyRead ((registerFabrics fabrics).setPublicQuorumCustody allow) comparable query
          = .error .noProvider
  optedOut
    : ∀ {α : Type} (comparable : QuorumComparable α) query,
        custodyRead (registerFabrics fabrics) comparable query = .error .noProvider

------------------------------------------------------------------------------------------
-- Quorums of groups
------------------------------------------------------------------------------------------

section Quorums

variable {Provider α : Type*} {registry : ProviderRegistry Provider}
  {comparable : QuorumComparable α} {query : Provider → Except ChainSourceError α}

/-- The representative of a group agrees with a value. -/
def GroupStates (registry : ProviderRegistry Provider) (comparable : QuorumComparable α)
    (query : Provider → Except ChainSourceError α) (group : String) (value : α)
    : Prop :=
  ∃ answer,
    representative comparable query group registry.providers = some answer
    ∧ comparable.quorumEq answer value = true

/-- A representative is the answer of a provider of its group. -/
theorem exists_of_representative {group : String} {answer : α}
    (first : representative comparable query group registry.providers = some answer)
    : ∃ registration ∈ registry.providers,
        registration.independenceGroup = group ∧ query registration.provider = .ok answer := by
  obtain ⟨registration, member, given⟩ := List.exists_of_findSome?_eq_some first
  obtain ⟨registered, same⟩ := List.mem_filter.mp member
  refine ⟨registration, registered, of_decide_eq_true same, ?_⟩
  unfold inBoundAnswer at given
  split at given
  · cases given
  · rename_i value answered
    split at given
    · cases given
    · cases given
      exact answered

/-- Without a trusted provider an accepted value is backed by the threshold of groups. -/
theorem backed_of_custodyRead (untrusted : ¬ registry.HasTrusted) {value : α}
    (found : custodyRead registry comparable query = .ok value)
    : Backed (GroupStates registry comparable query) publicQuorumThreshold value := by
  rw [custodyRead_of_untrusted untrusted] at found
  split at found
  · exact quorumAnswer_of_quorumRead found
  · cases found

theorem GroupStates.registered {group : String} {value : α}
    (stated : GroupStates registry comparable query group value)
    : group ∈ registry.independenceGroups := by
  obtain ⟨answer, first, -⟩ := stated
  obtain ⟨registration, held, rfl, -⟩ := exists_of_representative first
  exact List.mem_map_of_mem held

/-- A failing quorum fails for want of a provider. -/
theorem custodyRead_error (untrusted : ¬ registry.HasTrusted) {failure : ChainSourceError}
    (failed : custodyRead registry comparable query = .error failure)
    : failure = .noProvider := by
  rw [custodyRead_of_untrusted untrusted] at failed
  split at failed
  · unfold quorumRead at failed
    dsimp only at failed
    split at failed
    · cases failed
    · exact (Except.error.inj failed).symm
  · exact (Except.error.inj failed).symm

/-- Sources of one group never make a quorum, whatever they answer. -/
theorem custodyRead_of_one_group (untrusted : ¬ registry.HasTrusted)
    (one
      : ∀ left ∈ registry.independenceGroups,
          ∀ right ∈ registry.independenceGroups, left = right)
    : custodyRead registry comparable query = .error .noProvider := by
  cases outcome : custodyRead registry comparable query with
  | error failure => rw [custodyRead_error untrusted outcome]
  | ok value =>
      have backed := backed_of_custodyRead untrusted outcome
      obtain ⟨left, -, stated⟩ := backed.exists_sound (Finset.card_empty.trans_lt Nat.zero_lt_two)
      have few : ({left} : Finset String).card < publicQuorumThreshold := Nat.one_lt_two
      obtain ⟨right, different, statedToo⟩ := backed.exists_sound few
      have same := one right statedToo.registered left stated.registered
      exact absurd (Finset.mem_singleton.mpr same) different

/-- One group may lie: what the providers of all the others answer truly is accepted truly. -/
theorem custodyRead_of_sound_groups (untrusted : ¬ registry.HasTrusted) {corrupt : String}
    (sound : α → Prop)
    (congr : ∀ left right, comparable.quorumEq left right = true → sound left → sound right)
    (honest
      : ∀ registration ∈ registry.providers,
          registration.independenceGroup ≠ corrupt
          → ∀ answer, query registration.provider = .ok answer → sound answer)
    {value : α} (found : custodyRead registry comparable query = .ok value)
    : sound value := by
  have few : ({corrupt} : Finset String).card < publicQuorumThreshold := Nat.one_lt_two
  apply (backed_of_custodyRead untrusted found).holds few sound
  intro group outside value stated
  obtain ⟨answer, first, agrees⟩ := stated
  obtain ⟨registration, held, rfl, answered⟩ := exists_of_representative first
  apply congr answer value agrees
  exact honest registration held (fun same => outside (Finset.mem_singleton.mpr same)) answer
    answered

end Quorums

------------------------------------------------------------------------------------------
-- Registered fabrics
------------------------------------------------------------------------------------------

section Fabrics

variable {fabrics : List (Fabric crates blocks SingletonLineage × ProviderInfo)}

/-- The registration of a source. -/
def Fabric.registration (entry : Fabric crates blocks SingletonLineage × ProviderInfo)
    : Registration (ChainSource SingletonLineage) where
  provider := entry.1.toChainSource
  info := entry.2
  trust := .defaultFor entry.2.kind
  independenceGroup := entry.1.independenceGroup

/-- By induction on the sources, from any registry. -/
theorem foldl_register (registry : ProviderRegistry (ChainSource SingletonLineage))
    : fabrics.foldl (fun registry (fabric, info) =>
          registry.register fabric.toChainSource info none fabric.independenceGroup) registry
      = { registry with providers := registry.providers ++ fabrics.map Fabric.registration } := by
  induction fabrics generalizing registry with
  | nil => simp
  | cons entry rest ih =>
      rw [List.foldl_cons, ih, List.map_cons]
      simp [ProviderRegistry.register, Fabric.registration]

theorem registerFabrics_eq
    : registerFabrics fabrics
      = { providers := fabrics.map Fabric.registration, allowPublicQuorumCustody := false } :=
  foldl_register .new

theorem untrusted_registerFabrics (unvouched : ∀ entry ∈ fabrics, entry.2.kind ≠ .localNode)
    (allow : Bool)
    : ¬ ((registerFabrics fabrics).setPublicQuorumCustody allow).HasTrusted := by
  rw [registerFabrics_eq]
  rintro ⟨registration, member, trusted⟩
  obtain ⟨entry, held, rfl⟩ := List.mem_map.mp member
  have kind := unvouched entry held
  cases shown : entry.2.kind with
  | localNode => exact kind shown
  | publicOracle => simp [Fabric.registration, shown, TrustLevel.defaultFor] at trusted
  | digPeers => simp [Fabric.registration, shown, TrustLevel.defaultFor] at trusted
  | custom => simp [Fabric.registration, shown, TrustLevel.defaultFor] at trusted

theorem independenceGroup_of_mem_registerFabrics {allow : Bool} {group : String}
    (member
      : group ∈ ((registerFabrics fabrics).setPublicQuorumCustody allow).independenceGroups)
    : ∃ entry ∈ fabrics, entry.1.independenceGroup = group := by
  rw [registerFabrics_eq] at member
  obtain ⟨registration, held, rfl⟩ := List.mem_map.mp member
  obtain ⟨entry, listed, rfl⟩ := List.mem_map.mp held
  exact ⟨entry, listed, rfl⟩

/-- A custody read over fabrics of which all but one group tell the truth tells it too. -/
theorem custodyRead_of_sound_fabrics {β : Type} {comparable : QuorumComparable β}
    {query : ChainSource SingletonLineage → Except ChainSourceError β} {allow : Bool}
    (unvouched : ∀ entry ∈ fabrics, entry.2.kind ≠ .localNode) {corrupt : String}
    (sound : β → Prop)
    (congr : ∀ left right, comparable.quorumEq left right = true → sound left → sound right)
    (honest
      : ∀ entry ∈ fabrics,
          entry.1.independenceGroup ≠ corrupt
          → ∀ answer, query entry.1.toChainSource = .ok answer → sound answer)
    {value : β}
    (found
      : custodyRead ((registerFabrics fabrics).setPublicQuorumCustody allow) comparable query
        = .ok value)
    : sound value := by
  apply custodyRead_of_sound_groups (untrusted_registerFabrics unvouched allow) sound congr _ found
  · exact corrupt
  · intro registration held outside answer answered
    rw [registerFabrics_eq] at held
    obtain ⟨entry, listed, rfl⟩ := List.mem_map.mp held
    exact honest entry listed outside answer answered

/-- Answers that are compared as they are. -/
theorem sound_of_partialEq {β : Type} [DecidableEq β] (sound : β → Prop) (left right : β)
    (same : (quorumEqViaPartialEq β).quorumEq left right = true) (holds : sound left)
    : sound right := by
  rwa [← of_decide_eq_true same]

end Fabrics

------------------------------------------------------------------------------------------
-- Honest peers beside a coinset that lies
------------------------------------------------------------------------------------------

/-- A chain without coins and blocks. -/
def emptyChain : ChainTruth where
  coinRecord _ := none
  coinSpend _ := none
  blockRecord _ := none

/-- Peers that report no coin. -/
def emptyWire : PeerWire PeerRequest.sampleCrates :=
  { PeerRequest.silentWire with requestCoinState := fun _ _ => .answered [] }

abbrev emptyBlocks : BlockCrates where
  FullBlock := Unit
  toValue _ := .ok .null

/-- Peers that reject every height. -/
def emptyHeaders : BlockWire emptyBlocks where
  requestBlockHeader _ _ := .rejected
  requestBlock _ _ := .rejected

def emptyAttempt : Attempt PeerRequest.sampleCrates emptyBlocks where
  views := .steady samplePool 0
  asked := emptyWire
  others := emptyWire
  askedBlocks := emptyHeaders
  othersBlocks := emptyHeaders

/-- A coinset that states a coin record for every name. -/
def lyingCoinset : CoinsetClient :=
  .withTransport defaultCoinsetUrl
    (fun _ _ =>
      .ok (.object [
        ("success", .bool true),
        ("coin_record",
          CoinRecord.format.write
            (coinStateToRecord
              { coin := ⟨0, 0, 1⟩, createdHeight := some 5, spentHeight := none }))
      ]))
    (fun _ _ => "invalid type")

/-- A client of these peers that does not reach the coinset. -/
def emptyClient : ChiaQueryClient PeerRequest.sampleCrates emptyBlocks where
  coinsetFallbackEnabled := false
  coinset := lyingCoinset
  first _ := emptyAttempt
  retry _ := emptyAttempt
  atPeak := samplePool
  atCount := samplePool
  runPuzzleConditions _ := []

theorem honest_emptyWire (peer : Peer) : HonestPeer emptyChain emptyWire emptyHeaders peer where
  coinRecord := by
    intro name answer read
    obtain ⟨coinId, -, read⟩ := bind_eq_ok_iff.mp read
    cases read
    rfl
  coinSpend := by
    intro coinId answer read
    obtain ⟨id, -, read⟩ := bind_eq_ok_iff.mp read
    cases read
    rfl
  blockRecord := by
    intro height answer read
    cases read
    rfl

theorem fewLiars_emptyAttempt : emptyAttempt.FewLiars emptyChain :=
  ⟨∅, Nat.zero_le _, fun entry _ _ => honest_emptyWire entry.peer,
    fun entry _ _ => honest_emptyWire entry.peer⟩

def sampleFabrics
    : List (Fabric PeerRequest.sampleCrates emptyBlocks Unit × ProviderInfo) :=
  [
    (.coinset { client := lyingCoinset, caller := .blocking },
      { kind := .publicOracle, priority := 10 }),
    (.chiaQuery { inner := emptyClient, caller := .blocking, walk := fun _ => .ok none },
      { kind := .digPeers, priority := 20 })
  ]

end ChiaQuery.Registry
