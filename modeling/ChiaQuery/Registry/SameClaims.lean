import ChiaQuery.Registry.Convert

/-! Two notions of one chain fact. The corroboration of the peers compares the claims of two
records; a quorum compares the converted records whole, with the timestamp and the coinbase
flag that a claim leaves out and a peer cannot report.
-/

namespace ChiaQuery.Registry

open ChiaQuery.Library

/-- A record says of the chain what a peer's coin state says. -/
def SameClaim (state : CoinState) (record : CoinRecord) : Prop :=
  chainClaim record = chainClaim (coinStateToRecord state)

instance (state : CoinState) (record : CoinRecord) : Decidable (SameClaim state record) :=
  inferInstanceAs (Decidable (_ = _))

/-- A record has nothing beside its claim that a peer could not report. -/
def Colourless (record : CoinRecord) : Prop :=
  record.timestamp = 0 ∧ record.coinbase = false

instance (record : CoinRecord) : Decidable (Colourless record) :=
  inferInstanceAs (Decidable (_ ∧ _))

/-- Two answers list the same claims, in any order. -/
def SameFacts (states : List CoinState) (records : List CoinRecord) : Prop :=
  ∃ reordered : List CoinState,
    reordered.Perm states ∧ List.Forall₂ SameClaim reordered records

variable (coinId : ProtocolCoin → Bytes32)

/-- The id of the coin that a record names, if it names one. -/
def recordId (record : CoinRecord) : Option Bytes32 :=
  (coinFromChq record.coin).toOption.map coinId

/-- The claims of each coin are listed in the same order. -/
def SameOrder (states : List CoinState) (records : List CoinRecord) : Prop :=
  ∀ id,
    (states.filter (fun state => coinId state.coin = id)).map (fun state =>
      chainClaim (coinStateToRecord state))
    = (records.filter (fun record => recordId coinId record = some id)).map chainClaim

variable {coinId}

------------------------------------------------------------------------------------------
-- A record with a peer's claim converts to the peer's record and its own colour
------------------------------------------------------------------------------------------

/-- A peer's record with the timestamp and the flag of another record. -/
def coloured (state : CoinState) (record : CoinRecord) : IfaceCoinRecord :=
  { peerRecord state with
    timestamp := noneIfZeroU64 record.timestamp,
    coinbase := record.coinbase }

theorem coinRecordFromChq_of_sameClaim {state : CoinState} {record : CoinRecord}
    (same : SameClaim state record)
    : coinRecordFromChq record = .ok (coloured state record) := by
  obtain ⟨coin, created, spent⟩ := sameClaim_inv same
  simp only [coinRecordFromChq, coin, coinFromChq_fromProtocol, created, spent]
  rfl

theorem recordId_of_sameClaim {state : CoinState} {record : CoinRecord}
    (same : SameClaim state record)
    : recordId coinId record = some (coinId state.coin) := by
  rw [recordId, (sameClaim_inv same).1, coinFromChq_fromProtocol]
  rfl

theorem colourless_iff {state : CoinState} {record : CoinRecord}
    : coloured state record = peerRecord state ↔ Colourless record := by
  simp [coloured, peerRecord, noneIfZeroU64, Colourless]

/-- Peers' records are the same exactly when their claims are. -/
theorem peerRecord_eq_iff {left right : CoinState}
    : peerRecord left = peerRecord right
      ↔ chainClaim (coinStateToRecord left) = chainClaim (coinStateToRecord right) := by
  constructor
  · intro same
    have coin : left.coin = right.coin := congrArg IfaceCoinRecord.coin same
    have spent : left.spentHeight = right.spentHeight :=
      congrArg IfaceCoinRecord.spentHeight same
    have height : noneIfZeroU32 (left.createdHeight.getD 0)
        = noneIfZeroU32 (right.createdHeight.getD 0) :=
      congrArg IfaceCoinRecord.confirmedHeight same
    have created : left.createdHeight.getD 0 = right.createdHeight.getD 0 := by
      unfold noneIfZeroU32 at height
      split_ifs at height <;> simp_all
    simp only [coinStateToRecord, coin, spent, created]
  · intro same
    have converted := coinRecordFromChq_of_sameClaim (show SameClaim right _ from same)
    rw [coinRecordFromChq_of_state] at converted
    have plain : Colourless (coinStateToRecord left) := ⟨rfl, rfl⟩
    exact (Except.ok.inj converted).trans (colourless_iff.mpr plain)

theorem mapM_states (states : List CoinState)
    : (coinStatesToRecords states).mapM coinRecordFromChq = .ok (states.map peerRecord) := by
  induction states with
  | nil => rfl
  | cons state rest ih =>
      rw [coinStatesToRecords, List.map_cons, ← coinStatesToRecords, List.mapM_cons, ih,
        coinRecordFromChq_of_state]
      rfl

theorem mapM_of_sameClaims {states : List CoinState} {records : List CoinRecord}
    (same : List.Forall₂ SameClaim states records)
    : records.mapM coinRecordFromChq = .ok (List.zipWith coloured states records) := by
  induction same with
  | nil => rfl
  | cons first _ ih =>
      rw [List.mapM_cons, ih, coinRecordFromChq_of_sameClaim first]
      rfl

------------------------------------------------------------------------------------------
-- Lists agree when they agree coin by coin
------------------------------------------------------------------------------------------

/-- The entries of one key in the list that is sorted are those of one coin id. -/
theorem filter_keyed (records : List IfaceCoinRecord) (value : Nat)
    : (records.map (fun record => (coinId record.coin, record))).filter (fun entry =>
        entry.1.toNat = value)
      = (records.filter (fun record => (coinId record.coin).toNat = value)).map (fun record =>
          (coinId record.coin, record)) := by
  rw [List.filter_map]
  rfl

/-- Records have the same canonical order exactly when each coin has the same records in the
same order.
-/
theorem canonicalOrder_eq_iff {left right : List IfaceCoinRecord}
    : canonicalOrder coinId left = canonicalOrder coinId right
      ↔ ∀ id,
          left.filter (fun record => coinId record.coin = id)
          = right.filter (fun record => coinId record.coin = id) := by
  have asNat (records : List IfaceCoinRecord) (id : Bytes32)
      : records.filter (fun record => coinId record.coin = id)
        = records.filter (fun record => (coinId record.coin).toNat = id.toNat) :=
    List.filter_congr (fun record _ => decide_eq_decide.mpr BitVec.toNat_inj.symm)
  rw [canonicalOrder, canonicalOrder, sortByKey_eq_iff]
  constructor
  · intro same id
    have entries := congrArg (List.map Prod.snd) (same id.toNat)
    rw [filter_keyed, filter_keyed, List.map_map, List.map_map] at entries
    have whole
        : (Prod.snd ∘ fun record : IfaceCoinRecord => (coinId record.coin, record)) = fun r => r :=
      rfl
    rw [whole, List.map_id', List.map_id'] at entries
    rw [asNat, asNat, entries]
  · intro same value
    rw [filter_keyed, filter_keyed]
    by_cases fits : value < 2 ^ 256
    · have mine := same (BitVec.ofNat 256 value)
      rw [asNat, asNat, BitVec.toNat_ofNat, Nat.mod_eq_of_lt fits] at mine
      rw [mine]
    · have empty (records : List IfaceCoinRecord)
          : records.filter (fun record => (coinId record.coin).toNat = value) = [] := by
        refine List.filter_eq_nil_iff.mpr (fun record _ same => fits ?_)
        rw [← of_decide_eq_true same]
        exact (coinId record.coin).isLt
      rw [empty, empty]

/-- Two renderings that tell the same things apart agree on the same pairs of lists. -/
theorem map_eq_map_iff {α β γ : Type*} {first : α → β} {second : α → γ}
    (together : ∀ left right, first left = first right ↔ second left = second right)
    {lefts rights : List α}
    : lefts.map first = rights.map first ↔ lefts.map second = rights.map second := by
  induction lefts generalizing rights with
  | nil => cases rights <;> simp
  | cons left lefts ih =>
      cases rights with
      | nil => simp
      | cons right rights => simp only [List.map_cons, List.cons.injEq, together, ih]

/-- Peers' records agree as lists exactly when each coin's claims come in the same order. -/
theorem canonicalOrder_peerRecord_iff {left right : List CoinState}
    : canonicalOrder coinId (left.map peerRecord) = canonicalOrder coinId (right.map peerRecord)
      ↔ ∀ id,
          (left.filter (fun state => coinId state.coin = id)).map (fun state =>
            chainClaim (coinStateToRecord state))
          = (right.filter (fun state => coinId state.coin = id)).map (fun state =>
              chainClaim (coinStateToRecord state)) := by
  rw [canonicalOrder_eq_iff]
  refine forall_congr' (fun id => ?_)
  rw [List.filter_map, List.filter_map]
  exact map_eq_map_iff (fun one other => peerRecord_eq_iff)

/-- The claims of a coin, read off the records or off the states with the same claims. -/
theorem claims_of_sameClaims {states : List CoinState} {records : List CoinRecord}
    (same : List.Forall₂ SameClaim states records) (id : Bytes32)
    : (records.filter (fun record => recordId coinId record = some id)).map chainClaim
      = (states.filter (fun state => coinId state.coin = id)).map (fun state =>
          chainClaim (coinStateToRecord state)) := by
  induction same with
  | nil => rfl
  | @cons state record _ _ first _ ih =>
      by_cases mine : coinId state.coin = id
      · rw [List.filter_cons_of_pos (by simpa [recordId_of_sameClaim first] using mine),
          List.filter_cons_of_pos (by simpa using mine), List.map_cons, List.map_cons, ih, first]
      · rw [List.filter_cons_of_neg (by simpa [recordId_of_sameClaim first] using mine),
          List.filter_cons_of_neg (by simpa using mine), ih]

/-- Records that carry nothing beside their claims are the peers' records. -/
theorem zipWith_coloured_of_colourless {states : List CoinState} {records : List CoinRecord}
    (same : List.Forall₂ SameClaim states records)
    (plain : ∀ record ∈ records, Colourless record)
    : List.zipWith coloured states records = states.map peerRecord := by
  induction same with
  | nil => rfl
  | cons first _ ih =>
      rw [List.zipWith_cons_cons, List.map_cons,
        colourless_iff.mpr (plain _ List.mem_cons_self),
        ih (fun record member => plain record (List.mem_cons_of_mem _ member))]

/-- Records that are all peers' records carry nothing beside their claims. -/
theorem colourless_of_peerRecords {states : List CoinState} {records : List CoinRecord}
    (same : List.Forall₂ SameClaim states records)
    (peers
      : ∀ converted ∈ List.zipWith coloured states records,
          converted.timestamp = none ∧ converted.coinbase = false)
    : ∀ record ∈ records, Colourless record := by
  induction same with
  | nil => simp
  | cons first _ ih =>
      intro record member
      rw [List.zipWith_cons_cons] at peers
      rcases List.mem_cons.mp member with rfl | later
      · have mine := peers _ List.mem_cons_self
        simpa [coloured, noneIfZeroU64, Colourless] using mine
      · exact ih (fun converted other => peers converted (List.mem_cons_of_mem _ other)) record
          later

/-- What the quorum compares, against what the claims say: records, and lists of records. -/
structure QuorumMeetsClaims (coinId : ProtocolCoin → Bytes32) : Prop where
  single
    : ∀ state record, SameClaim state record
        → ∃ peer coinset,
            coinRecordFromChq (coinStateToRecord state) = .ok peer
            ∧ coinRecordFromChq record = .ok coinset
            ∧ ((quorumEqViaPartialEq (Option IfaceCoinRecord)).quorumEq
                (some peer) (some coinset) = true
              ↔ Colourless record)
  lists
    : ∀ states records, SameFacts states records
        → ∃ peers coinsets,
            (coinStatesToRecords states).mapM coinRecordFromChq = .ok peers
            ∧ records.mapM coinRecordFromChq = .ok coinsets
            ∧ ((recordsComparable coinId).quorumEq peers coinsets = true
              ↔ (∀ record ∈ records, Colourless record) ∧ SameOrder coinId states records)

/-- A list that is compared equal to peers' records holds no timestamp and no coinbase flag. -/
theorem plain_of_canonicalOrder_eq {states : List CoinState} {records : List IfaceCoinRecord}
    (same : canonicalOrder coinId (states.map peerRecord) = canonicalOrder coinId records)
    : ∀ converted ∈ records, converted.timestamp = none ∧ converted.coinbase = false := by
  intro converted member
  have entry : (coinId converted.coin, converted) ∈ canonicalOrder coinId records :=
    mem_sortByKey.mpr (List.mem_map_of_mem member)
  rw [← same, canonicalOrder, mem_sortByKey] at entry
  obtain ⟨peer, peerMember, pair⟩ := List.mem_map.mp entry
  obtain ⟨state, -, rfl⟩ := List.mem_map.mp peerMember
  rw [← (Prod.mk.inj pair).2]
  exact ⟨rfl, rfl⟩

/-- The records of a coin state and of a coinset record with its claim are equal to a quorum
exactly when the coinset record carries neither timestamp nor coinbase flag; and lists of them
exactly when none does and each coin's claims come in the same order.
-/
theorem quorum_meets_claims_iff (coinId : ProtocolCoin → Bytes32)
    : QuorumMeetsClaims coinId where
  single state record same := by
    refine ⟨peerRecord state, coloured state record, coinRecordFromChq_of_state state,
      coinRecordFromChq_of_sameClaim same, ?_⟩
    rw [quorumEqViaPartialEq, decide_eq_true_iff, Option.some_inj, eq_comm, colourless_iff]
  lists states records facts := by
    obtain ⟨reordered, permuted, same⟩ := facts
    refine ⟨states.map peerRecord, List.zipWith coloured reordered records, mapM_states states,
      mapM_of_sameClaims same, ?_⟩
    rw [recordsComparable, decide_eq_true_iff]
    have inOrder : SameOrder coinId states records
        ↔ canonicalOrder coinId (states.map peerRecord)
          = canonicalOrder coinId (reordered.map peerRecord) := by
      rw [canonicalOrder_peerRecord_iff]
      exact forall_congr' (fun id => by rw [claims_of_sameClaims same id])
    constructor
    · intro equal
      have plain := colourless_of_peerRecords same (plain_of_canonicalOrder_eq equal)
      rw [zipWith_coloured_of_colourless same plain] at equal
      exact ⟨plain, inOrder.mpr equal⟩
    · rintro ⟨plain, order⟩
      rw [zipWith_coloured_of_colourless same plain]
      exact inOrder.mp order

/-- A coin created at height 5. -/
def createdState : CoinState where
  coin := { parentCoinInfo := 1, puzzleHash := 2, amount := 1 }
  createdHeight := some 5
  spentHeight := none

/-- The coin as coinset reports it, with the timestamp of its block. -/
def timestampedRecord : CoinRecord :=
  { coinStateToRecord createdState with timestamp := 1700000000 }

/-- The two make the same claim, and no quorum of a peer and coinset forms on it. -/
theorem timestamp_parts_same_claims
    : ¬ ∀ state record, SameClaim state record
        → ∃ peer coinset,
            coinRecordFromChq (coinStateToRecord state) = .ok peer
            ∧ coinRecordFromChq record = .ok coinset
            ∧ (quorumEqViaPartialEq (Option IfaceCoinRecord)).quorumEq
                (some peer) (some coinset) = true := by
  intro claim
  have same : SameClaim createdState timestampedRecord := rfl
  obtain ⟨peer, coinset, fromState, fromRecord, equal⟩ := claim _ _ same
  rw [coinRecordFromChq_of_state] at fromState
  rw [coinRecordFromChq_of_sameClaim same] at fromRecord
  cases fromState
  cases fromRecord
  rw [quorumEqViaPartialEq, decide_eq_true_iff, Option.some_inj] at equal
  have plain := colourless_iff.mp equal.symm
  exact absurd plain.1 (by decide)

end ChiaQuery.Registry
