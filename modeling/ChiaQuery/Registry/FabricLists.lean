import ChiaQuery.Registry.Fabrics
import ChiaQuery.Registry.ListQuorum
import ChiaQuery.Router.SetTruth

/-! The lists of coin records that registered sources give. A list that is accepted for custody is
one of the chain at some height, with no coin left out and none made up, as long as one of the two
fabrics does not lie beyond its bounds.
-/

namespace ChiaQuery.Registry

open ChiaQuery.Library ChiaQuery.Coinset

variable {crates : ChiaCrates} {blocks : BlockCrates} {SingletonLineage : Type}

/-- The inputs of an attempt at a population. -/
def Attempt.round (attempt : Attempt crates blocks) (question : SetQuestion) : PeerRound where
  views := attempt.views
  readAsked := PeerBackend.readSet attempt.asked question
  readCorroborator := PeerBackend.readSet attempt.others question

/-- What the sources of a client answer in one round of a population read. -/
def ChiaQueryClient.exchange (client : ChiaQueryClient crates blocks) (question : SetQuestion)
    (round : Nat)
    : Exchange where
  first := (client.first round).round question
  retry := (client.retry round).round question
  coinsetPeak := client.coinsetPeak
  coinsetRaw := client.coinsetSet question

/-- The coins that a node at a height lists of a history, the spent ones where they are asked for.
-/
structure Lists (history : History) (includeSpent : Bool) (height : UInt32) (known : ChainCoin)
    : Prop where
  listed : known ∈ history.coins
  created : known.created ≤ height
  unspent : includeSpent = false → known.spent.filter (fun spent => spent ≤ height) = none

/-- A record says of a coin what is true at a height. -/
structure StatesCoin (known : ChainCoin) (height : UInt32) (record : IfaceCoinRecord) : Prop where
  coin : record.coin = known.coin
  confirmed : record.confirmedHeight = noneIfZeroU32 known.created
  spent : record.spentHeight = known.spent.filter (fun spent => spent ≤ height)

/-- A list of records is one of the chain at a height: no coin is left out and none is made up, and
where the spent coins are asked for as well, what is said last about each coin is true.
-/
structure TellsRecords (history : History) (includeSpent : Bool) (height : UInt32)
    (records : List IfaceCoinRecord)
    : Prop where
  complete
    : ∀ known,
        Lists history includeSpent height known
        → ∃ record ∈ records, StatesCoin known height record
  real
    : ∀ record ∈ records,
        ∃ known ∈ history.coins, known.created ≤ height ∧ record.coin = known.coin
  last
    : includeSpent = true
      → ∀ earlier record later,
          records = earlier ++ record :: later
          → (∀ other ∈ later, other.coin ≠ record.coin)
          → ∃ known ∈ history.coins, known.created ≤ height ∧ StatesCoin known height record

/-- The list reads of a source fail or tell the chain at some height. -/
structure TellsLists (histories : SetQuestion → History) (source : ChainSource SingletonLineage)
    : Prop where
  byPuzzleHash
    : ∀ puzzleHash includeSpent records,
        source.coinRecordsByPuzzleHash puzzleHash includeSpent = .ok records
        → ∃ height,
            TellsRecords (histories (.puzzleHash (hex32 puzzleHash))) includeSpent height records
  byParent
    : ∀ parent records,
        source.coinRecordsByParent parent = .ok records
        → ∃ height, TellsRecords (histories (.children (hex32 parent))) true height records

/-- The projection that the interface's list reads ask for. -/
def listProjection (includeSpent : Bool) : SetProjection where
  startHeight := none
  endHeight := none
  includeSpent

/-- coinset.org fails or lists the chain at some height. -/
structure HonestLists (histories : SetQuestion → History) (client : CoinsetClient) : Prop where
  byPuzzleHash
    : ∀ puzzleHash includeSpent raw,
        client.getCoinRecordsByPuzzleHash puzzleHash none none includeSpent = .ok raw
        → ∃ height,
            DescribeSame raw
              (project ((histories (.puzzleHash puzzleHash)).snapshot height)
                (listProjection includeSpent))
  byParent
    : ∀ parentId raw,
        client.getCoinRecordsByParentIds [parentId] none none true = .ok raw
        → ∃ height,
            DescribeSame raw
              (project ((histories (.children parentId)).snapshot height) (listProjection true))

/-- No more hosts than the floor of corroborators counts may lie in an attempt: the peers on every
other host are honest nodes.
-/
def Attempt.FewDishonest (histories : SetQuestion → History) (attempt : Attempt crates blocks)
    : Prop :=
  ∃ liars : Finset IpAddr,
    liars.card ≤ corroborationFloor
    ∧ (∀ entry ∈ attempt.views.atPick,
        entry.address.ip ∉ liars → HonestNode histories attempt.asked entry.peer)
    ∧ ∀ entry ∈ attempt.views.atSelection,
        entry.address.ip ∉ liars → HonestNode histories attempt.others entry.peer

/-- Few enough lie of those that a client asks for lists. -/
structure ChiaQueryClient.SoundLists (histories : SetQuestion → History)
    (client : ChiaQueryClient crates blocks)
    : Prop where
  first : ∀ round, (client.first round).FewDishonest histories
  retry : ∀ round, (client.retry round).FewDishonest histories
  coinset
    : client.coinsetFallbackEnabled = true
      → ∀ question raw,
          client.coinsetSet question = .ok raw → ∃ tip, (histories question).DescribedBy tip raw

/-- Few enough lie of those the source asks for lists. -/
def Fabric.SoundLists (histories : SetQuestion → History)
    : Fabric crates blocks SingletonLineage → Prop
  | chiaQuery provider => provider.inner.SoundLists histories
  | coinset source => HonestLists histories source.client

------------------------------------------------------------------------------------------
-- Records that are converted and records that agree
------------------------------------------------------------------------------------------

section Records

variable {history : History} {includeSpent : Bool} {height : UInt32}
  {items : List CoinRecord} {records others : List IfaceCoinRecord}

theorem exists_of_mem_left {α β : Type*} {related : α → β → Prop} {left : List α} {right : List β}
    (each : List.Forall₂ related left right) {one : α} (member : one ∈ left)
    : ∃ other ∈ right, related one other := by
  induction each with
  | nil => cases member
  | cons head tail ih =>
      rcases List.mem_cons.mp member with rfl | member
      · exact ⟨_, List.mem_cons_self, head⟩
      · obtain ⟨other, held, same⟩ := ih member
        exact ⟨other, List.mem_cons_of_mem _ held, same⟩

theorem exists_split_left {α β : Type*} {related : α → β → Prop} {left : List α}
    {earlier later : List β} {other : β}
    (each : List.Forall₂ related left (earlier ++ other :: later))
    : ∃ before one after,
        left = before ++ one :: after
        ∧ related one other
        ∧ List.Forall₂ related after later := by
  have rest := List.forall₂_drop_append _ _ _ each
  obtain ⟨one, after, same, behind, front⟩ := List.forall₂_cons_right_iff.mp rest
  refine ⟨left.take earlier.length, one, after, ?_, same, behind⟩
  rw [← front, List.take_append_drop]

/-- A record with the claim of a coin converts to one that states the coin. -/
theorem statesCoin_of_sameClaim {known : ChainCoin} {item : CoinRecord}
    {record : IfaceCoinRecord} (claimed : chainClaim item = chainClaim (known.recordAt height))
    (converted : coinRecordFromChq item = .ok record)
    : StatesCoin known height record := by
  have same := coinRecordFromChq_of_sameClaim claimed
  rw [converted] at same
  cases same
  exact ⟨rfl, rfl, rfl⟩

/-- A converted record keeps its coin. -/
theorem coin_of_converted {item : CoinRecord} {record : IfaceCoinRecord}
    (converted : coinRecordFromChq item = .ok record)
    : coinFromChq item.coin = .ok record.coin := by
  obtain ⟨coin, parsed, converted⟩ := bind_eq_ok_iff.mp converted
  cases converted
  exact parsed

/-- A record with the identity of a coin's record names the coin. -/
theorem coin_of_sameIdentity {known : ChainCoin} {item : CoinRecord} {record : IfaceCoinRecord}
    (named : identity (known.recordAt height) = identity item)
    (converted : coinRecordFromChq item = .ok record)
    : record.coin = known.coin := by
  have parsed := coin_of_converted converted
  have knownParsed : coinFromChq (known.recordAt height).coin = .ok known.coin :=
    coinFromChq_fromProtocol known.coin
  have same := (identity_record_iff knownParsed parsed).mp named
  rw [same, parsed] at knownParsed
  exact Except.ok.inj knownParsed

theorem wanted_recordAt {known : ChainCoin} (lists : Lists history includeSpent height known)
    : wanted (listProjection includeSpent) (known.recordAt height) = true := by
  cases includeSpent with
  | true => rfl
  | false => simp [wanted, listProjection, spentHeight_recordAt, lists.unspent rfl]

/-- What a set tells, its converted records tell. -/
theorem TellsRecords.of_set
    (told : TellsSet history (listProjection includeSpent) height items)
    (converted : items.mapM coinRecordFromChq = .ok records)
    : TellsRecords history includeSpent height records := by
  have each := mapM_eq_ok_iff.mp converted
  constructor
  · intro known lists
    have snapshot : known.recordAt height ∈ history.snapshot height :=
      mem_snapshot.mpr ⟨known, lists.listed, lists.created, rfl⟩
    have asked : known.recordAt height
        ∈ project (history.snapshot height) (listProjection includeSpent) :=
      List.mem_filter.mpr ⟨snapshot, wanted_recordAt lists⟩
    obtain ⟨item, member, -, claimed⟩ :=
      mem_claimsOf.mp (told.complete _ (mem_claimsOf.mpr ⟨_, asked, rfl, rfl⟩))
    obtain ⟨record, held, read⟩ := exists_of_mem_left each member
    exact ⟨record, held, statesCoin_of_sameClaim claimed read⟩
  · intro record member
    obtain ⟨item, listed, read⟩ := exists_of_mem_left each.flip member
    obtain ⟨stated, known, named⟩ := told.real item listed
    obtain ⟨coin, listed, created, rfl⟩ := mem_snapshot.mp known
    exact ⟨coin, listed, created, coin_of_sameIdentity named read⟩
  · rintro rfl earlier record later rfl silent
    obtain ⟨before, item, after, rfl, read, behind⟩ := exists_split_left each
    have silentItems : ∀ other ∈ after, identity other ≠ identity item := by
      intro other member same
      obtain ⟨stated, held, otherRead⟩ := exists_of_mem_left behind member
      apply silent stated held
      have coins := (identity_record_iff (coin_of_converted otherRead)
        (coin_of_converted read)).mp same
      have parsed := coin_of_converted otherRead
      rw [coins, coin_of_converted read] at parsed
      exact (Except.ok.inj parsed).symm
    obtain ⟨stated, known, -, claimed⟩ :=
      mem_claimsOf.mp ((told.seconded ⟨rfl, rfl⟩).claims before item after rfl silentItems)
    obtain ⟨coin, listed, created, rfl⟩ := mem_snapshot.mp known
    exact ⟨coin, listed, created, statesCoin_of_sameClaim claimed.symm read⟩

/-- The last record of each coin is the same in lists that agree. -/
theorem last_of_quorumEq {coinId : ProtocolCoin → Bytes32}
    (agree : (recordsComparable coinId).quorumEq records others = true)
    {earlier later : List IfaceCoinRecord} {record : IfaceCoinRecord}
    (split : others = earlier ++ record :: later)
    (silent : ∀ other ∈ later, other.coin ≠ record.coin)
    : ∃ before after,
        records = before ++ record :: after ∧ ∀ other ∈ after, other.coin ≠ record.coin := by
  have buckets := congrFun (quorumEq_iff_buckets.mp agree) (coinId record.coin)
  have ofCoin (list : List IfaceCoinRecord)
      : (bucketOf (fun record => coinId record.coin) list (coinId record.coin)).filter
            (fun other => other.coin = record.coin)
        = list.filter (fun other => other.coin = record.coin) := by
    rw [bucketOf, List.filter_filter]
    refine List.filter_congr (fun other _ => ?_)
    by_cases same : other.coin = record.coin <;> simp [same]
  have same := congrArg (List.filter (fun other => other.coin = record.coin)) buckets
  have none_later : later.filter (fun other => other.coin = record.coin) = [] := by
    simpa using silent
  rw [ofCoin, ofCoin, split, List.filter_append, List.filter_cons_of_pos (by simp), none_later]
    at same
  obtain ⟨front, back, rfl, -, last⟩ := List.filter_eq_append_iff.mp same
  obtain ⟨before, after, rfl, -, -, none_after⟩ := List.filter_eq_cons_iff.mp last
  refine ⟨front ++ before, after, (List.append_assoc _ _ _).symm, ?_⟩
  simpa using none_after

/-- What one of two lists that agree tells, the other one tells. -/
theorem TellsRecords.of_quorumEq {coinId : ProtocolCoin → Bytes32}
    (agree : (recordsComparable coinId).quorumEq records others = true)
    (told : TellsRecords history includeSpent height records)
    : TellsRecords history includeSpent height others := by
  have same := perm_of_quorumEq agree
  constructor
  · intro known lists
    obtain ⟨record, held, states⟩ := told.complete known lists
    exact ⟨record, same.mem_iff.mp held, states⟩
  · exact fun record member => told.real record (same.mem_iff.mpr member)
  · intro all earlier record later split silent
    obtain ⟨before, after, splits, silentToo⟩ := last_of_quorumEq agree split silent
    exact told.last all before record after splits silentToo

end Records

------------------------------------------------------------------------------------------
-- The list reads of the sources
------------------------------------------------------------------------------------------

section Sources

variable {histories : SetQuestion → History}

/-- The peer tier is asked for a population in the rounds of its exchanges. -/
theorem sources_sets (client : ChiaQueryClient crates blocks) (question : SetQuestion)
    (projection : SetProjection) (round : Nat)
    : client.sources.sets question projection round
      = (client.exchange question round).attempts projection := by
  cases question <;> rfl

/-- What honest nodes answer on every host but a few tells the chain. -/
theorem Attempt.FewDishonest.fewLiars {attempt : Attempt crates blocks}
    (few : attempt.FewDishonest histories) (question : SetQuestion)
    : (attempt.round question).FewLiars (histories question) := by
  obtain ⟨liars, within, asked, others⟩ := few
  exact ⟨liars, within,
    fun entry held honest => (asked entry held honest).tellsHistory question,
    fun entry held honest => (others entry held honest).tellsHistory question⟩

theorem ChiaQueryClient.SoundLists.exchange {client : ChiaQueryClient crates blocks}
    (sound : client.SoundLists histories) (question : SetQuestion) (round : Nat)
    : (client.exchange question round).Sound client.coinsetFallbackEnabled
        (histories question) where
  first := (sound.first round).fewLiars question
  retry := (sound.retry round).fewLiars question
  coinset enabled := sound.coinset enabled question

/-- A list read of one question, over sources of which few enough lie. -/
theorem ChiaQueryClient.ungraded_tells {client : ChiaQueryClient crates blocks}
    (sound : client.SoundLists histories) {read : SetRead} {question : SetQuestion}
    (one : read.questions = [question]) {projection : SetProjection} {items : List CoinRecord}
    (returned
      : read.ungraded client.coinsetFallbackEnabled client.sources projection = .ok items)
    : ∃ height, TellsSet (histories question) projection height items := by
  unfold SetRead.ungraded at returned
  cases graded : read.graded client.coinsetFallbackEnabled client.sources projection with
  | error failure =>
      rw [graded] at returned
      cases returned
  | ok set =>
      rw [graded] at returned
      cases returned
      obtain ⟨answers, told⟩ := tellsRead_of_graded
        (fun question round => sources_sets client question projection round) sound.exchange
        read graded
      exact told.one one

theorem ChiaQueryProvider.tellsLists
    {provider : ChiaQueryProvider crates blocks SingletonLineage}
    (sound : provider.inner.SoundLists histories)
    : TellsLists histories provider.toChainSource where
  byPuzzleHash := by
    intro puzzleHash includeSpent records answered
    obtain ⟨items, read, converted⟩ := bind_eq_ok_iff.mp answered
    obtain ⟨height, told⟩ :=
      ChiaQueryClient.ungraded_tells sound rfl (Caller.blockOn_eq_ok_iff.mp read).2
    exact ⟨height, .of_set told converted⟩
  byParent := by
    intro parent records answered
    obtain ⟨items, read, converted⟩ := bind_eq_ok_iff.mp answered
    obtain ⟨height, told⟩ :=
      ChiaQueryClient.ungraded_tells sound rfl (Caller.blockOn_eq_ok_iff.mp read).2
    exact ⟨height, .of_set told converted⟩

/-- A list of coinset.org that describes the chain, converted. -/
theorem tellsRecords_of_converted {history : History} {includeSpent : Bool} {height : UInt32}
    {raw : List CoinRecord} {records : List IfaceCoinRecord}
    (described
      : DescribeSame raw (project (history.snapshot height) (listProjection includeSpent)))
    (converted : convertRecords raw = .ok records)
    : TellsRecords history includeSpent height records := by
  unfold convertRecords at converted
  split at converted
  · cases converted
  · refine .of_set (tellsSet_of_projected ?_) converted
    exact fingerprint_of_describeSame described
      (claimsOnce_project (snapshot_claimsOnce history height) _)

theorem CoinsetChainSource.tellsLists {source : CoinsetChainSource}
    (honest : HonestLists histories source.client)
    : TellsLists histories (source.toChainSource SingletonLineage) where
  byPuzzleHash := by
    intro puzzleHash includeSpent records answered
    obtain ⟨raw, read, converted⟩ := bind_eq_ok_iff.mp answered
    obtain ⟨height, described⟩ := honest.byPuzzleHash _ _ raw (blockOn_eq_ok_iff.mp read).2
    exact ⟨height, tellsRecords_of_converted described converted⟩
  byParent := by
    intro parent records answered
    obtain ⟨raw, read, converted⟩ := bind_eq_ok_iff.mp answered
    obtain ⟨height, described⟩ := honest.byParent _ raw (blockOn_eq_ok_iff.mp read).2
    exact ⟨height, tellsRecords_of_converted described converted⟩

theorem Fabric.SoundLists.tellsLists {fabric : Fabric crates blocks SingletonLineage}
    (sound : fabric.SoundLists histories)
    : TellsLists histories fabric.toChainSource := by
  cases fabric with
  | chiaQuery provider => exact ChiaQueryProvider.tellsLists sound
  | coinset source => exact CoinsetChainSource.tellsLists sound

end Sources

------------------------------------------------------------------------------------------
-- A list that both fabrics give
------------------------------------------------------------------------------------------

/-- Peers at height 100 that answer for the children of a coin with the sample chain. -/
def listingWire : PeerWire PeerRequest.sampleCrates :=
  { PeerRequest.silentWire with
    announcedPeak := fun _ => some 100,
    requestChildren := fun _ _ =>
      .ok (PeerBackend.sampleHistory.coins.map (fun known =>
        { coin := known.coin, createdHeight := some known.created, spentHeight := none })) }

def listingAttempt : Attempt PeerRequest.sampleCrates emptyBlocks :=
  { emptyAttempt with asked := listingWire, others := listingWire }

/-- A client of these peers that does not reach the coinset. -/
def listingClient : ChiaQueryClient PeerRequest.sampleCrates emptyBlocks :=
  { emptyClient with first := fun _ => listingAttempt, retry := fun _ => listingAttempt }

/-- A coinset that lists the coins which the chain had at height 98. -/
def listingCoinset : CoinsetClient :=
  .withTransport defaultCoinsetUrl
    (fun _ _ =>
      .ok (.object [
        ("success", .bool true),
        ("coin_records",
          (JsonFormat.list CoinRecord.format).write (PeerBackend.sampleHistory.snapshot 98))
      ]))
    (fun _ _ => "invalid type")

def listingFabrics
    : List (Fabric PeerRequest.sampleCrates emptyBlocks Unit × ProviderInfo) :=
  [
    (.coinset { client := listingCoinset, caller := .blocking },
      { kind := .publicOracle, priority := 10 }),
    (.chiaQuery { inner := listingClient, caller := .blocking, walk := fun _ => .ok none },
      { kind := .digPeers, priority := 20 })
  ]

/-- Only the requests for children come to an answer, which is all that the chain has at 100. -/
theorem honest_listingWire (peer : Peer)
    : HonestNode (fun _ => PeerBackend.sampleHistory) listingWire peer where
  pages := by
    intro question hashes hinted puzzleHashes paged parsed
    refine ⟨0, fun _ => .timedOut, fun _ => 0, ⟨fun index => Std.le_refl _, ?_⟩, 1, rfl⟩
    exact fun index walk page running answered => nomatch answered
  names _ _ _ _ answered := nomatch answered
  children := by
    intro parentId coinName states parsed answered
    cases answered
    have whole : coinStatesToRecords (PeerBackend.sampleHistory.coins.map (fun known =>
          { coin := known.coin, createdHeight := some known.created, spentHeight := none }))
        = PeerBackend.sampleHistory.snapshot 100 := by
      decide +kernel
    refine ⟨100, fun peak announced => ?_, ?_⟩
    · cases announced
      exact Std.le_refl _
    · unfold History.DescribedBy
      rw [whole]
      exact fun _ => Iff.rfl

theorem fewDishonest_listingAttempt
    : listingAttempt.FewDishonest (fun _ => PeerBackend.sampleHistory) :=
  ⟨∅, Nat.zero_le _, fun entry _ _ => honest_listingWire entry.peer,
    fun entry _ _ => honest_listingWire entry.peer⟩

end ChiaQuery.Registry
