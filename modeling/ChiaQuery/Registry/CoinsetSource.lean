import ChiaQuery.Coinset.Client
import ChiaQuery.LightClient.Provider
import ChiaQuery.Registry.Conversions

/-! The chain source that is served by coinset.org alone. Its answers are exactly what the API
states and can be converted: an absence is never made of a failure, nor a list of a part of it.
-/

namespace ChiaQuery.Registry

open ChiaQuery.Library ChiaQuery.Coinset ChiaQuery.LightClient

/-- `is_timeout`. -/
def isTimeout (message : String) : Bool :=
  looksLikeTimeout message

/-- `map_query_error`. -/
def mapQueryError : ChiaQueryError → ChainSourceError
  | .peerConnection text => if isTimeout text then .timeout else .transport text
  | .peerRejection text => .transport text
  | .peerDiscoveryFailed => .transport "peer discovery failed"
  | .tlsError text => .transport s!"TLS: {text}"
  | .coinsetHttp text => .transport text
  | .coinsetApiError text => .transport text
  | .allSourcesFailed peer _ => .transport s!"all sources failed: {peer.display}"
  | .invalidRequest text => .malformed text
  | .unsupportedWithoutCoinset _ => .unsupported "operation requires the coinset fallback"
  | .uncorroboratedAbsence text => .transport text
  | .uncorroboratedPresence text => .transport text
  | .sourcesDisagree text => .transport s!"sources disagree: {text}"

/-- `MAX_COIN_RECORDS`. -/
def maxCoinRecords : Nat := 100000

/-- `DEFAULT_COINSET_URL`. -/
def defaultCoinsetUrl : String := "https://api.coinset.org"

/-- `coinset_url_from_env`, from the value of the variable where it is set. -/
def coinsetUrlFromEnv (setting : Option String) : String :=
  ((setting.map (fun url => String.ofList (trim url))).filter (fun url => url ≠ "")).getD
    defaultCoinsetUrl

/-- Where a synchronous read is called from, and whether blocking there panics. -/
inductive Caller where
  | blocking
  | currentThread
  | panicking
  deriving DecidableEq, Repr

/-- What becomes of a future that comes to an output. -/
def Caller.block {α : Type} (caller : Caller) (output : α) : Blocking α :=
  match caller with
  | .blocking => .ran output
  | .currentThread => .currentThread
  | .panicking => .panicked

/-- A read that is blocked on, whose failure is an error of the interface. -/
def Caller.blockOn {α : Type} (caller : Caller) (read : Except ChiaQueryError α)
    : Except ChainSourceError α := do
  let result ← runBlocking (caller.block read)
  result.mapError mapQueryError

/-- `CoinsetChainSource`, with where its reads are called from. -/
structure CoinsetChainSource where
  client : CoinsetClient
  caller : Caller

/-- `convert_records`. -/
def convertRecords (records : List CoinRecord)
    : Except ChainSourceError (List IfaceCoinRecord) :=
  if maxCoinRecords < records.length then
    .error (.tooManyRecords records.length maxCoinRecords)
  else records.mapM coinRecordFromChq

/-- `as_ref().map(convert).transpose()`. -/
def transposed {α β : Type} (convert : α → Except ChainSourceError β)
    : Option α → Except ChainSourceError (Option β)
  | none => .ok none
  | some value => (convert value).map some

namespace CoinsetChainSource

variable (source : CoinsetChainSource)

/-- `block_on`. -/
def blockOn {α : Type} (read : Except ChiaQueryError α) : Except ChainSourceError α :=
  source.caller.blockOn read

/-- `coin_record`. -/
def coinRecord (coinId : Bytes32) : Except ChainSourceError (Option IfaceCoinRecord) := do
  let record ← source.blockOn (source.client.getCoinRecordByNameOpt (hex32 coinId))
  transposed coinRecordFromChq record

/-- `coin_records_by_puzzle_hash`. -/
def coinRecordsByPuzzleHash (puzzleHash : Bytes32) (includeSpent : Bool)
    : Except ChainSourceError (List IfaceCoinRecord) := do
  let records ← source.blockOn
    (source.client.getCoinRecordsByPuzzleHash (hex32 puzzleHash) none none includeSpent)
  convertRecords records

/-- `coin_records_by_parent`. -/
def coinRecordsByParent (parentCoinId : Bytes32)
    : Except ChainSourceError (List IfaceCoinRecord) := do
  let records ← source.blockOn
    (source.client.getCoinRecordsByParentIds [hex32 parentCoinId] none none true)
  convertRecords records

/-- `coin_spend`. -/
def coinSpend (coinId : Bytes32) : Except ChainSourceError (Option ProtocolCoinSpend) := do
  let spend ← source.blockOn (source.client.getPuzzleAndSolutionOpt (hex32 coinId) none)
  transposed coinSpendFromChq spend

/-- `peak_height`. -/
def peakHeight : Except ChainSourceError (Option UInt32) := do
  let state ← source.blockOn source.client.getBlockchainState
  return state.peak.map (fun peak => peak.height)

/-- `block_timestamp`. -/
def blockTimestamp (height : UInt32) : Except ChainSourceError (Option UInt64) := do
  let record ← source.blockOn (source.client.getBlockRecordByHeightOpt height)
  return record.bind (fun record => record.timestamp)

/-- The reads of the source, as the interface has them. -/
def toChainSource (SingletonLineage : Type) : ChainSource SingletonLineage where
  coinRecord := source.coinRecord
  coinRecordsByPuzzleHash := source.coinRecordsByPuzzleHash
  coinRecordsByParent := source.coinRecordsByParent
  coinSpend := source.coinSpend
  resolveSingletonLineage _ :=
    .error
      (.unsupported
        ("resolve_singleton_lineage is not served by the lightweight coinset source; use "
          ++ "ChiaQueryProvider or walk parent_spend"))
  peakHeight := source.peakHeight
  blockTimestamp := source.blockTimestamp

end CoinsetChainSource

/-- An optional read tells what the API states: nothing exactly when the API answers with success
and states nothing, and a value exactly when what it states can be read and converted to it.
-/
structure TellsStated {β α : Type} (source : CoinsetChainSource) (endpoint : String) (body : Json)
    (key : String) (format : JsonFormat β) (convert : β → Except ChainSourceError α)
    (answer : Except ChainSourceError (Option α))
    : Prop where
  absent_iff
    : answer = .ok none
      ↔ source.caller = .blocking
        ∧ ∃ envelope, source.client.Answers endpoint body envelope
          ∧ StatesNothing envelope key
  present_iff
    : ∀ found,
        answer = .ok (some found)
        ↔ source.caller = .blocking
          ∧ ∃ envelope, source.client.Answers endpoint body envelope
            ∧ ∃ value, States envelope key value
              ∧ ∃ stated, format.read value = some stated ∧ convert stated = .ok found

/-- A read of a list tells the whole list the API states, in its order: it has a list exactly when
all that is stated can be read and converted and is not too much.
-/
structure ListsStated (source : CoinsetChainSource) (endpoint : String) (body : Json)
    (answer : Except ChainSourceError (List IfaceCoinRecord))
    : Prop where
  listed_iff
    : ∀ records,
        answer = .ok records
        ↔ source.caller = .blocking
          ∧ ∃ envelope, source.client.Answers endpoint body envelope
            ∧ ∃ stated, (JsonFormat.list CoinRecord.format).read (valueAt envelope "coin_records")
                = some stated
              ∧ stated.length ≤ maxCoinRecords
              ∧ List.Forall₂ (fun record found => coinRecordFromChq record = .ok found) stated
                records
  capped
    : ∀ envelope stated,
        source.caller = .blocking
        → source.client.Answers endpoint body envelope
        → (JsonFormat.list CoinRecord.format).read (valueAt envelope "coin_records")
          = some stated
        → maxCoinRecords < stated.length
        → answer = .error (.tooManyRecords stated.length maxCoinRecords)

/-- The bodies of the source's requests. -/
def nameBody (coinId : Bytes32) : Json :=
  .object [("name", .string (hex32 coinId))]

def recordsBody (key : String) (value : Json) (includeSpent : Bool) : Json :=
  .object [
    (key, value),
    ("start_height", .null),
    ("end_height", .null),
    ("include_spent_coins", .bool includeSpent)
  ]

def heightBody (height : UInt32) : Json :=
  .object [("height", JsonFormat.uint32.write height)]

/-- A value that the API states in the JSON of a type, and maybe more beside it, is the answer. -/
def AnswersWritten {β α : Type} (source : CoinsetChainSource) (endpoint : String) (body : Json)
    (key : String) (format : JsonFormat β) (convert : β → Except ChainSourceError α)
    (answer : Except ChainSourceError (Option α))
    : Prop :=
  ∀ envelope stated found entries more,
    source.caller = .blocking
    → source.client.Answers endpoint body envelope
    → format.write stated = .object entries
    → get envelope key = some (.object (entries ++ more))
    → convert stated = .ok found
    → answer = .ok (some found)

/-- Every read of the source keeps to what the API states. -/
structure KeepsToStated (source : CoinsetChainSource) : Prop where
  coinRecord
    : ∀ coinId,
        TellsStated source "get_coin_record_by_name" (nameBody coinId) "coin_record"
          CoinRecord.format coinRecordFromChq (source.coinRecord coinId)
  coinSpend
    : ∀ coinId,
        TellsStated source "get_puzzle_and_solution" (CoinsetClient.spendBody (hex32 coinId) none)
          "coin_solution" CoinSpend.format coinSpendFromChq (source.coinSpend coinId)
  recordWritten
    : ∀ coinId,
        AnswersWritten source "get_coin_record_by_name" (nameBody coinId) "coin_record"
          CoinRecord.format coinRecordFromChq (source.coinRecord coinId)
  spendWritten
    : ∀ coinId,
        AnswersWritten source "get_puzzle_and_solution"
          (CoinsetClient.spendBody (hex32 coinId) none) "coin_solution" CoinSpend.format
          coinSpendFromChq (source.coinSpend coinId)
  byPuzzleHash
    : ∀ puzzleHash includeSpent,
        ListsStated source "get_coin_records_by_puzzle_hash"
          (recordsBody "puzzle_hash" (.string (hex32 puzzleHash)) includeSpent)
          (source.coinRecordsByPuzzleHash puzzleHash includeSpent)
  byParent
    : ∀ parent,
        ListsStated source "get_coin_records_by_parent_ids"
          (recordsBody "parent_ids" (.array [.string (hex32 parent)]) true)
          (source.coinRecordsByParent parent)
  timestamp_iff
    : ∀ height timestamp,
        source.blockTimestamp height = .ok timestamp
        ↔ source.caller = .blocking
          ∧ ∃ envelope,
            source.client.Answers "get_block_record_by_height" (heightBody height) envelope
            ∧ (StatesNothing envelope "block_record" ∧ timestamp = none
              ∨ ∃ value, States envelope "block_record" value
                ∧ ∃ record, ApiBlockRecord.format.read value = some record
                  ∧ timestamp = record.timestamp)
  peak_iff
    : ∀ height,
        source.peakHeight = .ok height
        ↔ source.caller = .blocking
          ∧ ∃ envelope, source.client.Answers "get_blockchain_state" (.object []) envelope
            ∧ ∃ state, ApiBlockchainState.format.read (valueAt envelope "blockchain_state")
                = some state
              ∧ height = state.peak.map (fun peak => peak.height)

variable {source : CoinsetChainSource}

theorem Caller.blockOn_eq_ok_iff {α : Type} {caller : Caller} {read : Except ChiaQueryError α}
    {value : α}
    : caller.blockOn read = .ok value ↔ caller = .blocking ∧ read = .ok value := by
  cases caller with
  | blocking =>
      change read.mapError mapQueryError = .ok value ↔ _
      rw [mapError_eq_ok_iff, eq_self_iff_true, true_and]
  | currentThread => exact iff_of_false (by rintro ⟨⟩) (by simp)
  | panicking => exact iff_of_false (by rintro ⟨⟩) (by simp)

theorem blockOn_eq_ok_iff {α : Type} {read : Except ChiaQueryError α} {value : α}
    : source.blockOn read = .ok value ↔ source.caller = .blocking ∧ read = .ok value :=
  Caller.blockOn_eq_ok_iff

theorem transposed_eq_none_iff {α β : Type} {convert : α → Except ChainSourceError β}
    {value : Option α}
    : transposed convert value = .ok none ↔ value = none := by
  cases value with
  | none => simp [transposed]
  | some value => cases converted : convert value <;> simp [transposed, converted, Except.map]

theorem transposed_eq_some_iff {α β : Type} {convert : α → Except ChainSourceError β}
    {value : Option α} {found : β}
    : transposed convert value = .ok (some found)
      ↔ ∃ stated, value = some stated ∧ convert stated = .ok found := by
  cases value with
  | none => simp [transposed]
  | some value => cases converted : convert value <;> simp [transposed, converted, Except.map]

/-- An optional read of the client, blocked on and converted, tells what the API states. -/
theorem tellsStated_of_postExtractOpt {β α : Type} {endpoint key : String} {body : Json}
    {format : JsonFormat β} {convert : β → Except ChainSourceError α}
    : TellsStated source endpoint body key format convert
        ((source.blockOn (source.client.postExtractOpt format endpoint body key)).bind
          (transposed convert)) where
  absent_iff := by
    rw [bind_eq_ok_iff]
    simp only [blockOn_eq_ok_iff, transposed_eq_none_iff, exists_eq_right,
      CoinsetClient.postExtractOpt_eq_none_iff]
  present_iff := by
    intro found
    rw [bind_eq_ok_iff]
    simp only [blockOn_eq_ok_iff, transposed_eq_some_iff]
    constructor
    · rintro ⟨_, ⟨blocks, read⟩, stated, rfl, converted⟩
      obtain ⟨envelope, answered, value, states, parsed⟩ :=
        CoinsetClient.postExtractOpt_eq_some_iff.mp read
      exact ⟨blocks, envelope, answered, value, states, stated, parsed, converted⟩
    · rintro ⟨blocks, envelope, answered, value, states, stated, parsed, converted⟩
      have read := CoinsetClient.postExtractOpt_eq_some_iff.mpr
        ⟨envelope, answered, value, states, parsed⟩
      exact ⟨some stated, ⟨blocks, read⟩, stated, rfl, converted⟩

/-- What a type's format reads from its own JSON and more is what an optional read tells. -/
theorem TellsStated.answersWritten {β α : Type} {endpoint key : String} {body : Json}
    {format : JsonFormat β} {convert : β → Except ChainSourceError α}
    {answer : Except ChainSourceError (Option α)}
    (tells : TellsStated source endpoint body key format convert answer)
    (reads
      : ∀ stated entries more,
          format.write stated = .object entries
          → format.read (.object (entries ++ more)) = some stated)
    : AnswersWritten source endpoint body key format convert answer := by
  intro envelope stated found entries more blocks answered written states converted
  exact (tells.present_iff found).mpr ⟨blocks, envelope, answered, _, ⟨states, nofun⟩, stated,
    reads stated entries more written, converted⟩

theorem convertRecords_eq_ok_iff {stated : List CoinRecord} {records : List IfaceCoinRecord}
    : convertRecords stated = .ok records
      ↔ stated.length ≤ maxCoinRecords
        ∧ List.Forall₂ (fun record found => coinRecordFromChq record = .ok found) stated
          records := by
  unfold convertRecords
  split
  · rename_i exceeds
    exact iff_of_false (by simp) (fun fits => absurd fits.1 (Nat.not_le.mpr exceeds))
  · rename_i fits
    rw [mapM_eq_ok_iff, and_iff_right (Nat.not_lt.mp fits)]

/-- A list read of the client, blocked on and converted, tells the list the API states. -/
theorem listsStated_of_postExtract {endpoint : String} {body : Json}
    : ListsStated source endpoint body
        ((source.blockOn (source.client.postExtract (.list CoinRecord.format) endpoint body
          "coin_records")).bind convertRecords) where
  listed_iff := by
    intro records
    rw [bind_eq_ok_iff]
    simp only [blockOn_eq_ok_iff, convertRecords_eq_ok_iff,
      CoinsetClient.postExtract_eq_ok_iff]
    constructor
    · rintro ⟨stated, ⟨blocks, envelope, answered, read⟩, fits, each⟩
      exact ⟨blocks, envelope, answered, stated, read, fits, each⟩
    · rintro ⟨blocks, envelope, answered, stated, read, fits, each⟩
      exact ⟨stated, ⟨blocks, envelope, answered, read⟩, fits, each⟩
  capped := by
    intro envelope stated blocks answered read exceeds
    have blocked := blockOn_eq_ok_iff.mpr
      ⟨blocks, CoinsetClient.postExtract_eq_ok_iff.mpr ⟨envelope, answered, read⟩⟩
    rw [blocked]
    exact if_pos exceeds

/-- The reads of the coinset source keep to what the API states, wherever they are called from
and whatever the transport makes of them.
-/
theorem coinsetChainSource_keepsToStated (source : CoinsetChainSource)
    : KeepsToStated source where
  coinRecord _ := tellsStated_of_postExtractOpt
  coinSpend _ := tellsStated_of_postExtractOpt
  recordWritten _ :=
    tellsStated_of_postExtractOpt.answersWritten (fun _ _ more written =>
      JsonFormat.record_read_append written more)
  spendWritten _ :=
    tellsStated_of_postExtractOpt.answersWritten (fun _ _ more written =>
      JsonFormat.record_read_append written more)
  byPuzzleHash _ _ := listsStated_of_postExtract
  byParent _ := listsStated_of_postExtract
  timestamp_iff := by
    intro height timestamp
    change Except.bind _ _ = _ ↔ _
    rw [bind_eq_ok_iff]
    simp only [blockOn_eq_ok_iff]
    constructor
    · rintro ⟨record, ⟨blocks, read⟩, same⟩
      cases same
      refine ⟨blocks, ?_⟩
      cases record with
      | none =>
          obtain ⟨envelope, answered, absent⟩ := CoinsetClient.postExtractOpt_eq_none_iff.mp read
          exact ⟨envelope, answered, .inl ⟨absent, rfl⟩⟩
      | some record =>
          obtain ⟨envelope, answered, value, states, parsed⟩ :=
            CoinsetClient.postExtractOpt_eq_some_iff.mp read
          exact ⟨envelope, answered, .inr ⟨value, states, record, parsed, rfl⟩⟩
    · rintro ⟨blocks, envelope, answered, ⟨absent, rfl⟩ | ⟨value, states, record, parsed, rfl⟩⟩
      · exact ⟨none, ⟨blocks, CoinsetClient.postExtractOpt_eq_none_iff.mpr
          ⟨envelope, answered, absent⟩⟩, rfl⟩
      · exact ⟨some record, ⟨blocks, CoinsetClient.postExtractOpt_eq_some_iff.mpr
          ⟨envelope, answered, value, states, parsed⟩⟩, rfl⟩
  peak_iff := by
    intro height
    change Except.bind _ _ = _ ↔ _
    rw [bind_eq_ok_iff]
    simp only [blockOn_eq_ok_iff]
    constructor
    · rintro ⟨state, ⟨blocks, read⟩, same⟩
      cases same
      obtain ⟨envelope, answered, parsed⟩ := CoinsetClient.postExtract_eq_ok_iff.mp read
      exact ⟨blocks, envelope, answered, state, parsed, rfl⟩
    · rintro ⟨blocks, envelope, answered, state, parsed, rfl⟩
      exact ⟨state, ⟨blocks, CoinsetClient.postExtract_eq_ok_iff.mpr
        ⟨envelope, answered, parsed⟩⟩, rfl⟩

end ChiaQuery.Registry
