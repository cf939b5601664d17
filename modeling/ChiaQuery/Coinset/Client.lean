import ChiaQuery.Router.PushTx
import ChiaQuery.Types.Formats
import Mathlib.Data.List.DropRight

/-! The client of the coinset.org API. Every endpoint answers in an envelope whose `success`
flag is checked before anything in it is read, and a read of one record tells an absence that
the API states from every failure.
-/

namespace ChiaQuery.Coinset

open Library

/-- `coinset_status_to_tx_status`. -/
def coinsetStatusToTxStatus (status : String) (error : Option String) : TxStatus :=
  let inclusion : MempoolInclusion :=
    if status = "SUCCESS" then .admitted
    else if status = "PENDING" then .notAdmitted
    else if status = "FAILED" then .failed
    else .unknown
  {
    status,
    success := inclusion = .admitted,
    inclusion,
    error
  }

/-- `Value::get` with a key. -/
def get (json : Json) (key : String) : Option Json :=
  json.child? (.key key)

/-- The indexing of a `Value` by a key, which is null where there is none. -/
def valueAt (json : Json) (key : String) : Json :=
  (get json key).getD .null

/-- `Value::as_str`. -/
def asStr : Json → Option String
  | .string text => some text
  | _ => none

/-- `Value::as_bool`. -/
def asBool : Json → Option Bool
  | .bool value => some value
  | _ => none

/-- `non_empty_str`. -/
def nonEmptyStr (value : Option Json) : Option String :=
  ((value.bind asStr).map (fun text => String.ofList (trim text))).filter (fun text => text ≠ "")

/-- `structured_error_message`. -/
def structuredErrorMessage : Option Json → Option String
  | some (.string text) => if trim text ≠ [] then some text else none
  | some (.object map) =>
      (nonEmptyStr (map.lookup "message")).or (nonEmptyStr (map.lookup "error"))
  | _ => none

/-- `coinset_error_message`. -/
def coinsetErrorMessage (json : Json) : String :=
  ((structuredErrorMessage (get json "structuredError")).or
    (nonEmptyStr (get json "error"))).getD "unknown error"

/-- `CoinsetClient`, over what its transport makes of a body posted to an address. `explain` is
what `serde_json` says of the value of a key that it cannot read.
-/
structure CoinsetClient where
  transport : String → Json → Except ChiaQueryError Json
  baseUrl : String
  explain : String → Json → String

namespace CoinsetClient

/-- `with_transport`. -/
def withTransport (baseUrl : String) (transport : String → Json → Except ChiaQueryError Json)
    (explain : String → Json → String)
    : CoinsetClient where
  transport
  baseUrl := String.ofList (baseUrl.toList.rdropWhile (· = '/'))
  explain

variable (client : CoinsetClient)

/-- `post_raw`. -/
def postRaw (endpoint : String) (body : Json) : Except ChiaQueryError Json :=
  client.transport s!"{client.baseUrl}/{endpoint}" body

/-- `post`. -/
def post (endpoint : String) (body : Json) : Except ChiaQueryError Json := do
  let json ← client.postRaw endpoint body
  if (get json "success").bind asBool ≠ some true then
    throw (.coinsetApiError (coinsetErrorMessage json))
  return json

/-- `serde_json::from_value`. -/
def fromValue {α : Type} (format : JsonFormat α) (key : String) (value : Json)
    : Except String α :=
  match format.read value with
  | some read => .ok read
  | none => .error (client.explain key value)

/-- `from_value` of a key whose error names the key. -/
def parseKey {α : Type} (format : JsonFormat α) (key : String) (value : Json)
    : Except ChiaQueryError α :=
  (client.fromValue format key value).mapError (fun failure =>
    .coinsetApiError s!"parse `{key}`: {failure}")

/-- `post_extract`. -/
def postExtract {α : Type} (format : JsonFormat α) (endpoint : String) (body : Json)
    (key : String)
    : Except ChiaQueryError α := do
  let json ← client.post endpoint body
  client.parseKey format key (valueAt json key)

/-- `optional_field`. -/
def optionalField {α : Type} (format : JsonFormat α) (json : Json) (key : String)
    : Except ChiaQueryError (Option α) :=
  match get json key with
  | none | some .null => .ok none
  | some present => (client.parseKey format key present).map some

/-- `post_extract_opt`. -/
def postExtractOpt {α : Type} (format : JsonFormat α) (endpoint : String) (body : Json)
    (key : String)
    : Except ChiaQueryError (Option α) := do
  let json ← client.post endpoint body
  client.optionalField format json key

/-- The JSON of a height that may be left open. -/
def heightJson : Option UInt32 → Json :=
  JsonFormat.writeOption .uint32

/-- `get_additions_and_removals`. -/
def getAdditionsAndRemovals (headerHash : String)
    : Except ChiaQueryError AdditionsAndRemovals := do
  let json ←
    client.post "get_additions_and_removals" (.object [("header_hash", .string headerHash)])
  let additions ←
    (client.fromValue (.list CoinRecord.format) "additions" (valueAt json "additions")).mapError
      ChiaQueryError.coinsetApiError
  let removals ←
    (client.fromValue (.list CoinRecord.format) "removals" (valueAt json "removals")).mapError
      ChiaQueryError.coinsetApiError
  return { additions, removals }

/-- `get_block`. -/
def getBlock (headerHash : String) : Except ChiaQueryError Json :=
  client.postExtract .json "get_block" (.object [("header_hash", .string headerHash)]) "block"

/-- `get_block_record`. -/
def getBlockRecord (headerHash : String) : Except ChiaQueryError ApiBlockRecord :=
  client.postExtract ApiBlockRecord.format "get_block_record"
    (.object [("header_hash", .string headerHash)]) "block_record"

/-- `get_block_record_by_height`. -/
def getBlockRecordByHeight (height : UInt32) : Except ChiaQueryError ApiBlockRecord :=
  client.postExtract ApiBlockRecord.format "get_block_record_by_height"
    (.object [("height", JsonFormat.uint32.write height)]) "block_record"

/-- `get_block_record_by_height_opt`. -/
def getBlockRecordByHeightOpt (height : UInt32)
    : Except ChiaQueryError (Option ApiBlockRecord) :=
  client.postExtractOpt ApiBlockRecord.format "get_block_record_by_height"
    (.object [("height", JsonFormat.uint32.write height)]) "block_record"

/-- `get_block_spends`. -/
def getBlockSpends (headerHash : String) : Except ChiaQueryError (List CoinSpend) :=
  client.postExtract (.list CoinSpend.format) "get_block_spends"
    (.object [("header_hash", .string headerHash)]) "block_spends"

/-- `get_block_spends_with_conditions`. -/
def getBlockSpendsWithConditions (headerHash : String)
    : Except ChiaQueryError (List (CoinSpendWithConditions Condition)) :=
  client.postExtract (.list CoinSpendWithConditions.format) "get_block_spends_with_conditions"
    (.object [("header_hash", .string headerHash)]) "block_spends_with_conditions"

/-- `get_coin_record_by_name`. -/
def getCoinRecordByName (name : String) : Except ChiaQueryError CoinRecord :=
  client.postExtract CoinRecord.format "get_coin_record_by_name"
    (.object [("name", .string name)]) "coin_record"

/-- `get_coin_record_by_name_opt`. -/
def getCoinRecordByNameOpt (name : String) : Except ChiaQueryError (Option CoinRecord) :=
  client.postExtractOpt CoinRecord.format "get_coin_record_by_name"
    (.object [("name", .string name)]) "coin_record"

/-- The reads of coin records by one kind of key, over a window of heights. -/
def getCoinRecords (endpoint key : String) (value : Json) (startHeight endHeight : Option UInt32)
    (includeSpentCoins : Bool)
    : Except ChiaQueryError (List CoinRecord) :=
  client.postExtract (.list CoinRecord.format) endpoint
    (.object [
      (key, value),
      ("start_height", heightJson startHeight),
      ("end_height", heightJson endHeight),
      ("include_spent_coins", .bool includeSpentCoins)
    ])
    "coin_records"

/-- The JSON of a list of texts. -/
def textsJson (texts : List String) : Json :=
  (JsonFormat.list .string).write texts

/-- `get_coin_records_by_hint`. -/
def getCoinRecordsByHint (hint : String) :=
  client.getCoinRecords "get_coin_records_by_hint" "hint" (.string hint)

/-- `get_coin_records_by_hints`. -/
def getCoinRecordsByHints (hints : List String) :=
  client.getCoinRecords "get_coin_records_by_hints" "hints" (textsJson hints)

/-- `get_coin_records_by_names`. -/
def getCoinRecordsByNames (names : List String) :=
  client.getCoinRecords "get_coin_records_by_names" "names" (textsJson names)

/-- `get_coin_records_by_parent_ids`. -/
def getCoinRecordsByParentIds (parentIds : List String) :=
  client.getCoinRecords "get_coin_records_by_parent_ids" "parent_ids" (textsJson parentIds)

/-- `get_coin_records_by_puzzle_hash`. -/
def getCoinRecordsByPuzzleHash (puzzleHash : String) :=
  client.getCoinRecords "get_coin_records_by_puzzle_hash" "puzzle_hash" (.string puzzleHash)

/-- `get_coin_records_by_puzzle_hashes`. -/
def getCoinRecordsByPuzzleHashes (puzzleHashes : List String) :=
  client.getCoinRecords "get_coin_records_by_puzzle_hashes" "puzzle_hashes"
    (textsJson puzzleHashes)

/-- The body that asks for a coin's puzzle and solution. -/
def spendBody (coinId : String) (height : Option UInt32) : Json :=
  .object [("coin_id", .string coinId), ("height", heightJson height)]

/-- `get_puzzle_and_solution`. -/
def getPuzzleAndSolution (coinId : String) (height : Option UInt32)
    : Except ChiaQueryError CoinSpend :=
  client.postExtract CoinSpend.format "get_puzzle_and_solution" (spendBody coinId height)
    "coin_solution"

/-- `get_puzzle_and_solution_opt`. -/
def getPuzzleAndSolutionOpt (coinId : String) (height : Option UInt32)
    : Except ChiaQueryError (Option CoinSpend) :=
  client.postExtractOpt CoinSpend.format "get_puzzle_and_solution" (spendBody coinId height)
    "coin_solution"

/-- `get_puzzle_and_solution_with_conditions`. Conditions that cannot be read are left out. -/
def getPuzzleAndSolutionWithConditions (coinId : String) (height : Option UInt32)
    : Except ChiaQueryError (CoinSpendWithConditions Condition) := do
  let json ←
    client.post "get_puzzle_and_solution_with_conditions" (spendBody coinId height)
  let coinSpend ←
    (client.fromValue CoinSpend.format "coin_solution" (valueAt json "coin_solution")).mapError
      ChiaQueryError.coinsetApiError
  return {
    coinSpend,
    conditions := ((JsonFormat.list Condition.format).read (valueAt json "conditions")).getD []
  }

/-- `push_tx`. -/
def pushTx (bundle : SpendBundle) : Except ChiaQueryError TxStatus := do
  let json ← client.post "push_tx" (.object [("spend_bundle", SpendBundle.format.write bundle)])
  return coinsetStatusToTxStatus ((asStr (valueAt json "status")).getD "UNKNOWN")
    (asStr (valueAt json "error"))

/-- `get_blockchain_state`. -/
def getBlockchainState : Except ChiaQueryError ApiBlockchainState :=
  client.postExtract ApiBlockchainState.format "get_blockchain_state" (.object [])
    "blockchain_state"

/-- `get_network_space`. -/
def getNetworkSpace (newerBlockHeaderHash olderBlockHeaderHash : String)
    : Except ChiaQueryError UInt64 :=
  client.postExtract .uint64 "get_network_space"
    (.object [
      ("newer_block_header_hash", .string newerBlockHeaderHash),
      ("older_block_header_hash", .string olderBlockHeaderHash)
    ])
    "space"

end CoinsetClient

/-- The envelope of a successful answer. -/
def Succeeds (json : Json) : Prop :=
  get json "success" = some (.bool true)

/-- An envelope states a value under a key; null states nothing. -/
def States (json : Json) (key : String) (value : Json) : Prop :=
  get json key = some value ∧ value ≠ .null

def StatesNothing (json : Json) (key : String) : Prop :=
  get json key = none ∨ get json key = some .null

namespace CoinsetClient

/-- The API answers a request with success, in this envelope. -/
def Answers (client : CoinsetClient) (endpoint : String) (body json : Json) : Prop :=
  client.postRaw endpoint body = .ok json ∧ Succeeds json

variable {client : CoinsetClient}

theorem asBool_eq_some_iff {json : Json} {value : Bool}
    : asBool json = some value ↔ json = .bool value := by
  cases json <;> simp [asBool]

theorem flag_eq_true_iff {json : Json}
    : (get json "success").bind asBool = some true ↔ Succeeds json := by
  rw [Option.bind_eq_some_iff]
  simp only [asBool_eq_some_iff, exists_eq_right]
  rfl

/-- Only what the API calls a success gets past the client. -/
theorem post_eq_ok_iff {endpoint : String} {body json : Json}
    : client.post endpoint body = .ok json ↔ client.Answers endpoint body json := by
  unfold post
  change (client.postRaw endpoint body).bind _ = _ ↔ _
  rw [bind_eq_ok_iff]
  constructor
  · rintro ⟨answer, sent, checked⟩
    by_cases success : Succeeds answer
    · simp only [flag_eq_true_iff.mpr success, ne_eq, not_true_eq_false, if_false] at checked
      cases checked
      exact ⟨sent, success⟩
    · simp only [ne_eq, flag_eq_true_iff, success, not_false_eq_true, if_true] at checked
      cases checked
  · rintro ⟨sent, success⟩
    refine ⟨json, sent, ?_⟩
    simp only [flag_eq_true_iff.mpr success, ne_eq, not_true_eq_false, if_false]
    rfl

theorem parseKey_eq_ok_iff {α : Type} {format : JsonFormat α} {key : String} {value : Json}
    {read : α}
    : client.parseKey format key value = .ok read ↔ format.read value = some read := by
  unfold parseKey fromValue
  cases format.read value <;> simp [Except.mapError]

/-- A reading of a key comes to a value exactly when the API answers with success and the key
holds, or lacks as null, what the value is read from.
-/
theorem postExtract_eq_ok_iff {α : Type} {format : JsonFormat α} {endpoint key : String}
    {body : Json} {read : α}
    : client.postExtract format endpoint body key = .ok read
      ↔ ∃ json, client.Answers endpoint body json
        ∧ format.read (valueAt json key) = some read := by
  unfold postExtract
  change (client.post endpoint body).bind _ = _ ↔ _
  rw [bind_eq_ok_iff]
  simp only [post_eq_ok_iff, parseKey_eq_ok_iff]

theorem optionalField_eq_none_iff {α : Type} {format : JsonFormat α} {json : Json} {key : String}
    : client.optionalField format json key = .ok none
      ↔ StatesNothing json key := by
  unfold optionalField
  split
  · rename_i missing
    exact iff_of_true rfl (.inl missing)
  · rename_i null
    exact iff_of_true rfl (.inr null)
  · rename_i present nonnull found
    refine iff_of_false (fun absent => ?_) ?_
    · cases parsed : client.parseKey format key present with
      | error failure =>
          rw [parsed] at absent
          cases absent
      | ok read =>
          rw [parsed] at absent
          cases absent
    · rintro (missing | null)
      · cases found.symm.trans missing
      · exact nonnull (Option.some.inj (found.symm.trans null))

theorem optionalField_eq_some_iff {α : Type} {format : JsonFormat α} {json : Json} {key : String}
    {read : α}
    : client.optionalField format json key = .ok (some read)
      ↔ ∃ value, States json key value ∧ format.read value = some read := by
  unfold optionalField
  split
  · rename_i missing
    exact iff_of_false (by simp) (by simp [States, missing])
  · rename_i null
    exact iff_of_false (by simp) (by simp [States, null])
  · rename_i present nonnull found
    constructor
    · intro here
      cases parsed : client.parseKey format key present with
      | error failure =>
          rw [parsed] at here
          cases here
      | ok value =>
          rw [parsed] at here
          cases here
          exact ⟨present, ⟨found, nonnull⟩, parseKey_eq_ok_iff.mp parsed⟩
    · rintro ⟨value, ⟨same, -⟩, parsed⟩
      cases found.symm.trans same
      rw [parseKey_eq_ok_iff.mpr parsed]
      rfl

/-- A read of one record tells an absence apart: it is absent exactly when the API answers with
success and states no record, and present exactly when the stated one can be read. Everything
else is an error.
-/
theorem postExtractOpt_eq_none_iff {α : Type} {format : JsonFormat α} {endpoint key : String}
    {body : Json}
    : client.postExtractOpt format endpoint body key = .ok none
      ↔ ∃ json, client.Answers endpoint body json ∧ StatesNothing json key := by
  unfold postExtractOpt
  change (client.post endpoint body).bind _ = _ ↔ _
  rw [bind_eq_ok_iff]
  simp only [post_eq_ok_iff, optionalField_eq_none_iff]

theorem postExtractOpt_eq_some_iff {α : Type} {format : JsonFormat α} {endpoint key : String}
    {body : Json} {read : α}
    : client.postExtractOpt format endpoint body key = .ok (some read)
      ↔ ∃ json, client.Answers endpoint body json
        ∧ ∃ value, States json key value ∧ format.read value = some read := by
  unfold postExtractOpt
  change (client.post endpoint body).bind _ = _ ↔ _
  rw [bind_eq_ok_iff]
  simp only [post_eq_ok_iff, optionalField_eq_some_iff]

end CoinsetClient

------------------------------------------------------------------------------------------
-- The message of a refusal
------------------------------------------------------------------------------------------

/-- The text at a position of an envelope. -/
def textAt (json : Json) (position : List Json.Step) : Option String :=
  (json.at? position).bind asStr

/-- A text without the white space around it. -/
def trimmed (text : String) : String :=
  String.ofList (trim text)

/-- The positions that may state why a request failed, the most preferred first. -/
def causePositions : List (List Json.Step) :=
  [
    [.key "structuredError"],
    [.key "structuredError", .key "message"],
    [.key "structuredError", .key "error"],
    [.key "error"]
  ]

/-- What an envelope states as the cause of a failure at these positions. -/
def statedCauses (json : Json) : List String :=
  causePositions.filterMap (textAt json)

/-- The message of a refusal is the first cause the envelope states that is not blank, up to
the white space around it, and where it states none, that the error is unknown.
-/
structure StatesCause (json : Json) : Prop where
  stated
    : ∀ text,
        (statedCauses json).find? (fun cause => trim cause ≠ []) = some text
        → trimmed (coinsetErrorMessage json) = trimmed text
  unknown
    : (∀ text ∈ statedCauses json, trim text = [])
      → coinsetErrorMessage json = "unknown error"
  nonblank : trim (coinsetErrorMessage json) ≠ []
  framed
    : ∀ other : Json,
        (∀ position ∈ causePositions, textAt other position = textAt json position)
        → coinsetErrorMessage other = coinsetErrorMessage json

/-- Nothing around a text is left when it is trimmed. -/
theorem trim_trimmed (text : String) : trim (trimmed text) = trim text := by
  have trims (chars : List Char) :
      ((chars.dropWhile isWhitespace).reverse.dropWhile isWhitespace).reverse
      = (chars.dropWhile isWhitespace).rdropWhile isWhitespace := rfl
  rw [trimmed, trim, String.toList_ofList, trims, trim, trims]
  have front : ((text.toList.dropWhile isWhitespace).rdropWhile isWhitespace).dropWhile
      isWhitespace = (text.toList.dropWhile isWhitespace).rdropWhile isWhitespace := by
    rw [List.dropWhile_eq_self_iff]
    intro some
    have head := List.IsPrefix.getElem (List.rdropWhile_prefix isWhitespace
      (text.toList.dropWhile isWhitespace)) some
    rw [head]
    exact List.dropWhile_get_zero_not isWhitespace text.toList _
  rw [front, List.rdropWhile_idempotent]

/-- What is chosen of a text: nothing when it is blank, and otherwise the text as it is or
trimmed.
-/
structure Shows (text chosen : Option String) : Prop where
  blank : (∀ cause, text = some cause → trim cause = []) → chosen = none
  stated
    : ∀ cause, text = some cause → trim cause ≠ []
        → ∃ shown, chosen = some shown ∧ trim shown = trim cause

/-- The value is, up to trimming, the first of the texts that is not blank. -/
def IsFirstCause (texts : List String) (value : Option String) : Prop :=
  match texts.find? (fun text => trim text ≠ []) with
  | some text => ∃ chosen, value = some chosen ∧ trim chosen = trim text
  | none => value = none

theorem IsFirstCause.none_first : IsFirstCause [] none := rfl

/-- A text in front comes first unless it is blank. -/
theorem IsFirstCause.or {text chosen : Option String} {texts : List String}
    {value : Option String} (behind : IsFirstCause texts value) (shows : Shows text chosen)
    : IsFirstCause (text.toList ++ texts) (chosen.or value) := by
  unfold IsFirstCause
  cases text with
  | none =>
      rw [shows.blank (fun _ => nofun), Option.none_or]
      exact behind
  | some cause =>
      change match (cause :: texts).find? _ with | some text => _ | none => _
      by_cases empty : trim cause = []
      · rw [shows.blank (fun _ same => Option.some.inj same ▸ empty), Option.none_or,
          List.find?_cons_of_neg (by simpa using empty)]
        exact behind
      · obtain ⟨shown, rfl, same⟩ := shows.stated cause rfl empty
        rw [List.find?_cons_of_pos (by simpa using empty)]
        exact ⟨shown, rfl, same⟩

theorem trimmed_ne_empty_iff {text : String} : trimmed text ≠ "" ↔ trim text ≠ [] := by
  rw [trimmed, ne_eq, ← String.toList_inj, String.toList_ofList]
  rfl

/-- The texts a message is chosen from, once they are trimmed. -/
def shown (text : Option String) : Option String :=
  (text.map trimmed).filter (fun text => text ≠ "")

theorem shows_shown (text : Option String) : Shows text (shown text) := by
  unfold shown
  cases text with
  | none => exact ⟨fun _ => rfl, fun _ => nofun⟩
  | some text =>
      constructor
      · intro blank
        have empty : ¬ trimmed text ≠ "" :=
          trimmed_ne_empty_iff.not.mpr (not_not.mpr (blank text rfl))
        simpa using empty
      · rintro cause same full
        cases same
        have stays := trimmed_ne_empty_iff.mpr full
        exact ⟨trimmed text, by simpa using stays, trim_trimmed text⟩

theorem shows_filter (text : Option String)
    : Shows text (text.filter (fun text => trim text ≠ [])) := by
  cases text with
  | none => exact ⟨fun _ => rfl, fun _ => nofun⟩
  | some text =>
      constructor
      · intro blank
        simpa using blank text rfl
      · rintro cause same full
        cases same
        exact ⟨text, by simpa using full, rfl⟩

theorem structuredErrorMessage_eq (value : Option Json)
    : structuredErrorMessage value
      = ((value.bind asStr).filter (fun text => trim text ≠ [])).or
          ((nonEmptyStr (value.bind (fun json => get json "message"))).or
            (nonEmptyStr (value.bind (fun json => get json "error")))) := by
  rcases value with _ | (_ | _ | _ | text | _ | map)
  case some.string =>
    have below (key : String) : nonEmptyStr (get (.string text) key) = none := rfl
    rw [Option.bind_some, Option.bind_some, Option.bind_some, below, below, Option.or_none,
      Option.or_none, asStr, Option.filter_some]
    by_cases full : trim text = [] <;> simp [structuredErrorMessage, full]
  all_goals rfl

/-- The message depends on nothing but the texts at the four positions, in their order. -/
theorem coinsetErrorMessage_eq (json : Json)
    : coinsetErrorMessage json
      = ((((textAt json [.key "structuredError"]).filter (fun text => trim text ≠ [])).or
          ((shown (textAt json [.key "structuredError", .key "message"])).or
            ((shown (textAt json [.key "structuredError", .key "error"])).or
              (shown (textAt json [.key "error"])))))).getD "unknown error" := by
  have one (key : String) : textAt json [.key key] = (get json key).bind asStr := by
    rw [textAt, Json.at?, get]
    cases json.child? (.key key) <;> rfl
  have two (key : String) :
      textAt json [.key "structuredError", .key key]
      = ((get json "structuredError").bind (fun value => get value key)).bind asStr := by
    rw [textAt, Json.at?, get]
    cases json.child? (.key "structuredError") with
    | none => rfl
    | some value =>
        rw [Option.bind_some, Option.bind_some, Json.at?, get]
        cases value.child? (.key key) <;> rfl
  rw [one, two, two, one, coinsetErrorMessage, structuredErrorMessage_eq, Option.or_assoc,
    Option.or_assoc]
  rfl

/-- The message is chosen among the stated causes, one position after the other. -/
theorem exists_firstCause (json : Json)
    : ∃ chosen, IsFirstCause (statedCauses json) chosen
      ∧ coinsetErrorMessage json = chosen.getD "unknown error" := by
  have texts : statedCauses json
      = (textAt json [.key "structuredError"]).toList
        ++ ((textAt json [.key "structuredError", .key "message"]).toList
          ++ ((textAt json [.key "structuredError", .key "error"]).toList
            ++ ((textAt json [.key "error"]).toList ++ []))) := by
    rw [statedCauses, List.filterMap_eq_flatMap_toList]
    rfl
  rw [texts, coinsetErrorMessage_eq, ← Option.or_none (o := shown (textAt json [.key "error"]))]
  exact ⟨_, ((((IsFirstCause.none_first.or (shows_shown _)).or (shows_shown _)).or
    (shows_shown _)).or (shows_filter _)), rfl⟩

/-- A refusal states the cause that the envelope states, and nothing else of it. -/
theorem coinsetErrorMessage_statesCause (json : Json) : StatesCause json where
  stated := by
    intro text found
    obtain ⟨chosen, first, message⟩ := exists_firstCause json
    rw [IsFirstCause, found] at first
    obtain ⟨shown, rfl, same⟩ := first
    rw [message, Option.getD_some, trimmed, trimmed, same]
  unknown := by
    intro blank
    obtain ⟨chosen, first, message⟩ := exists_firstCause json
    have missing : (statedCauses json).find? (fun text => trim text ≠ []) = none :=
      List.find?_eq_none.mpr (fun text member => by simpa using blank text member)
    rw [IsFirstCause, missing] at first
    rw [message, first]
    rfl
  nonblank := by
    obtain ⟨chosen, first, message⟩ := exists_firstCause json
    rw [message]
    cases found : (statedCauses json).find? (fun text => trim text ≠ []) with
    | none =>
        rw [IsFirstCause, found] at first
        rw [first]
        decide
    | some text =>
        rw [IsFirstCause, found] at first
        obtain ⟨shown, rfl, same⟩ := first
        have full := List.find?_some found
        simpa [same] using full
  framed := by
    intro other same
    rw [coinsetErrorMessage_eq, coinsetErrorMessage_eq]
    rw [same _ (by simp [causePositions]), same _ (by simp [causePositions]),
      same _ (by simp [causePositions]), same _ (by simp [causePositions])]

end ChiaQuery.Coinset
