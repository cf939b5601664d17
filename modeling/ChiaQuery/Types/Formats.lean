import ChiaQuery.Library.JsonFormats
import ChiaQuery.Peer.Conditions
import ChiaQuery.Peer.Requests
import ChiaQuery.Router.BlockchainState
import ChiaQuery.Router.GradedReads

/-! The JSON of the crate's types, as they are sent to the API and read from its responses.
What a later API adds to a record is ignored, but for a block record, which keeps it.
-/

namespace ChiaQuery

open Library

namespace Coin

def fields : Fields (((Unit × String) × String) × UInt64) :=
  Fields.none
    |>.and (.required "parent_coin_info" .string) (by decide)
    |>.and (.required "puzzle_hash" .string) (by decide)
    |>.and (.required "amount" .uint64) (by decide)

def format : JsonFormat Coin :=
  .record fields (fun ((((), parent), puzzle), amount) => ⟨parent, puzzle, amount⟩)
    (fun coin => ((((), coin.parentCoinInfo), coin.puzzleHash), coin.amount))
    (fun _ => rfl)

end Coin

namespace CoinRecord

def fields : Fields ((((((Unit × Coin) × UInt32) × UInt32) × Bool) × Bool) × UInt64) :=
  Fields.none
    |>.and (.required "coin" Coin.format) (by decide)
    |>.and (.required "confirmed_block_index" .uint32) (by decide)
    |>.and (.required "spent_block_index" .uint32) (by decide)
    |>.and (.required "spent" .bool) (by decide)
    |>.and (.required "coinbase" .bool) (by decide)
    |>.and (.required "timestamp" .uint64) (by decide)

def format : JsonFormat CoinRecord :=
  .record fields
    (fun (((((((), coin), confirmed), spentIndex), spent), coinbase), timestamp) =>
      ⟨coin, confirmed, spentIndex, spent, coinbase, timestamp⟩)
    (fun record =>
      (((((((), record.coin), record.confirmedBlockIndex), record.spentBlockIndex),
        record.spent), record.coinbase), record.timestamp))
    (fun _ => rfl)

end CoinRecord

namespace CoinSpend

def fields : Fields (((Unit × Coin) × String) × String) :=
  Fields.none
    |>.and (.required "coin" Coin.format) (by decide)
    |>.and (.required "puzzle_reveal" .string) (by decide)
    |>.and (.required "solution" .string) (by decide)

def format : JsonFormat CoinSpend :=
  .record fields (fun ((((), coin), puzzle), solution) => ⟨coin, puzzle, solution⟩)
    (fun spend => ((((), spend.coin), spend.puzzleReveal), spend.solution))
    (fun _ => rfl)

end CoinSpend

namespace Condition

def fields : Fields ((Unit × Json) × List String) :=
  Fields.none
    |>.and (.required "opcode" .json) (by decide)
    |>.and (.required "vars" (.list .string)) (by decide)

def format : JsonFormat Condition :=
  .record fields (fun (((), opcode), vars) => ⟨opcode, vars⟩)
    (fun condition => (((), condition.opcode), condition.vars))
    (fun _ => rfl)

end Condition

namespace CoinSpendWithConditions

def fields : Fields ((Unit × CoinSpend) × List Condition) :=
  Fields.none
    |>.and (.required "coin_spend" CoinSpend.format) (by decide)
    |>.and (.required "conditions" (.list Condition.format)) (by decide)

def format : JsonFormat (CoinSpendWithConditions Condition) :=
  .record fields (fun (((), coinSpend), conditions) => ⟨coinSpend, conditions⟩)
    (fun spend => (((), spend.coinSpend), spend.conditions))
    (fun _ => rfl)

end CoinSpendWithConditions

namespace SpendBundle

def fields : Fields ((Unit × List CoinSpend) × String) :=
  Fields.none
    |>.and (.required "coin_spends" (.list CoinSpend.format)) (by decide)
    |>.and (.required "aggregated_signature" .string) (by decide)

def format : JsonFormat SpendBundle :=
  .record fields (fun (((), coinSpends), signature) => ⟨coinSpends, signature⟩)
    (fun bundle => (((), bundle.coinSpends), bundle.aggregatedSignature))
    (fun _ => rfl)

end SpendBundle

namespace MempoolInclusion

/-- The label of a variant, in screaming snake case. -/
def label : MempoolInclusion → String
  | .admitted => "ADMITTED"
  | .notAdmitted => "NOT_ADMITTED"
  | .failed => "FAILED"
  | .unknown => "UNKNOWN"

def ofLabel (label : String) : Option MempoolInclusion :=
  if label = "ADMITTED" then some .admitted
  else if label = "NOT_ADMITTED" then some .notAdmitted
  else if label = "FAILED" then some .failed
  else if label = "UNKNOWN" then some .unknown
  else none

def format : JsonFormat MempoolInclusion where
  write inclusion := .string inclusion.label
  read
    | .string label => ofLabel label
    -- A variant may also be the one key of an object, over its empty contents.
    | .object [(label, .null)] => ofLabel label
    | _ => none
  read_write inclusion := by cases inclusion <;> decide

end MempoolInclusion

namespace TxStatus

def fields : Fields ((((Unit × String) × Bool) × MempoolInclusion) × Option String) :=
  Fields.none
    |>.and (.required "status" .string) (by decide)
    |>.and (.required "success" .bool) (by decide)
    |>.and (.defaulted "inclusion" MempoolInclusion.format .unknown) (by decide)
    |>.and (.defaulted "error" (.option .string (fun _ => nofun)) none) (by decide)

def format : JsonFormat TxStatus :=
  .record fields
    (fun (((((), status), success), inclusion), error) => ⟨status, success, inclusion, error⟩)
    (fun status =>
      (((((), status.status), status.success), status.inclusion), status.error))
    (fun _ => rfl)

end TxStatus

namespace BlockRecord

/-- The typed fields of a block record, in the order of their declaration. -/
def fields : Fields ((((((((((Unit × String) × UInt32) × UInt64) × String) × UInt64) × UInt8)
    × String) × String) × Option UInt64) × Option UInt64) :=
  Fields.none
    |>.and (.defaulted "header_hash" .string "") (by decide)
    |>.and (.defaulted "height" .uint32 0) (by decide)
    |>.and (.defaulted "weight" .uint64 0) (by decide)
    |>.and (.defaulted "prev_hash" .string "") (by decide)
    |>.and (.defaulted "total_iters" .uint64 0) (by decide)
    |>.and (.defaulted "signage_point_index" .uint8 0) (by decide)
    |>.and (.defaulted "farmer_puzzle_hash" .string "") (by decide)
    |>.and (.defaulted "pool_puzzle_hash" .string "") (by decide)
    |>.and (.defaulted "timestamp" (.option .uint64 JsonFormat.uint64_nonnull) none) (by decide)
    |>.and (.defaulted "fees" (.option .uint64 JsonFormat.uint64_nonnull) none) (by decide)

end BlockRecord

/-- The crate's `BlockRecord` as a response gives it: `extra` holds the entries of the response
that are none of the typed fields.
-/
structure ApiBlockRecord extends BlockRecord where
  weight : UInt64
  prevHash : String
  totalIters : UInt64
  signagePointIndex : UInt8
  farmerPuzzleHash : String
  poolPuzzleHash : String
  fees : Option UInt64
  extra : BlockRecord.fields.Rest

def ApiBlockRecord.format : JsonFormat ApiBlockRecord :=
  .recordBeside BlockRecord.fields
    (fun ((((((((((((), headerHash), height), weight), prevHash), totalIters), signagePoint),
        farmer), pool), timestamp), fees), extra) =>
      ⟨⟨headerHash, height, timestamp⟩, weight, prevHash, totalIters, signagePoint, farmer, pool,
        fees, extra⟩)
    (fun record =>
      ((((((((((((), record.headerHash), record.height), record.weight), record.prevHash),
        record.totalIters), record.signagePointIndex), record.farmerPuzzleHash),
        record.poolPuzzleHash), record.timestamp), record.fees), record.extra))
    (fun _ => rfl)

/-- The typed fields of a block record are read from no other values than they are written as. -/
theorem BlockRecord.fields_exact : BlockRecord.fields.Exact :=
  Fields.none_exact.and JsonFormat.string_exact
    |>.and JsonFormat.uint32_exact
    |>.and JsonFormat.uint64_exact
    |>.and JsonFormat.string_exact
    |>.and JsonFormat.uint64_exact
    |>.and JsonFormat.uint8_exact
    |>.and JsonFormat.string_exact
    |>.and JsonFormat.string_exact
    |>.and (JsonFormat.option_exact JsonFormat.uint64_nonnull JsonFormat.uint64_exact)
    |>.and (JsonFormat.option_exact JsonFormat.uint64_nonnull JsonFormat.uint64_exact)

namespace SyncState

def fields : Fields ((((Unit × Bool) × UInt32) × UInt32) × Bool) :=
  Fields.none
    |>.and (.required "sync_mode" .bool) (by decide)
    |>.and (.required "sync_progress_height" .uint32) (by decide)
    |>.and (.required "sync_tip_height" .uint32) (by decide)
    |>.and (.required "synced" .bool) (by decide)

def format : JsonFormat SyncState :=
  .record fields (fun (((((), mode), progress), tip), synced) => ⟨mode, progress, tip, synced⟩)
    (fun state =>
      (((((), state.syncMode), state.syncProgressHeight), state.syncTipHeight), state.synced))
    (fun _ => rfl)

end SyncState

/-- The crate's `BlockchainState` as a response gives it. A floating-point number is kept as the
number it was written as.
-/
structure ApiBlockchainState where
  nodeId : String
  difficulty : UInt64
  genesisChallengeInitialized : Bool
  mempoolSize : UInt64
  mempoolCost : UInt64
  mempoolFees : UInt64
  mempoolMinFees : Json
  mempoolMaxTotalCost : UInt64
  blockMaxCost : UInt64
  peak : Option ApiBlockRecord
  space : UInt64
  subSlotIters : UInt64
  averageBlockTime : Option JsonNumber
  sync : Option SyncState

namespace ApiBlockchainState

def fields : Fields ((((((((((((((Unit × String) × UInt64) × Bool) × UInt64) × UInt64) × UInt64)
    × Json) × UInt64) × UInt64) × Option ApiBlockRecord) × UInt64) × UInt64)
    × Option JsonNumber) × Option SyncState) :=
  Fields.none
    |>.and (.defaulted "node_id" .string "") (by decide)
    |>.and (.defaulted "difficulty" .uint64 0) (by decide)
    |>.and (.defaulted "genesis_challenge_initialized" .bool false) (by decide)
    |>.and (.defaulted "mempool_size" .uint64 0) (by decide)
    |>.and (.defaulted "mempool_cost" .uint64 0) (by decide)
    |>.and (.defaulted "mempool_fees" .uint64 0) (by decide)
    |>.and (.defaulted "mempool_min_fees" .json .null) (by decide)
    |>.and (.defaulted "mempool_max_total_cost" .uint64 0) (by decide)
    |>.and (.defaulted "block_max_cost" .uint64 0) (by decide)
    |>.and (.defaulted "peak" (.option ApiBlockRecord.format (fun _ => nofun)) none) (by decide)
    |>.and (.defaulted "space" .uint64 0) (by decide)
    |>.and (.defaulted "sub_slot_iters" .uint64 0) (by decide)
    |>.and (.defaulted "average_block_time" (.option .number (fun _ => nofun)) none) (by decide)
    |>.and (.defaulted "sync" (.option SyncState.format (fun _ => nofun)) none) (by decide)

def format : JsonFormat ApiBlockchainState :=
  .record fields
    (fun (((((((((((((((), nodeId), difficulty), initialized), size), cost), mempoolFees), minFees),
        maxCost), blockCost), peak), space), subSlotIters), blockTime), sync) =>
      ⟨nodeId, difficulty, initialized, size, cost, mempoolFees, minFees, maxCost, blockCost,
        peak, space, subSlotIters, blockTime, sync⟩)
    (fun state =>
      (((((((((((((((), state.nodeId), state.difficulty), state.genesisChallengeInitialized),
        state.mempoolSize), state.mempoolCost), state.mempoolFees), state.mempoolMinFees),
        state.mempoolMaxTotalCost), state.blockMaxCost), state.peak), state.space),
        state.subSlotIters), state.averageBlockTime), state.sync))
    (fun _ => rfl)

end ApiBlockchainState

/-- A block record that was read holds its whole object: written again it is the same object,
with the typed fields that were missing.
-/
theorem ApiBlockRecord.written_of_read {entries : List (String × Json)}
    {record : ApiBlockRecord} (found : ApiBlockRecord.format.read (.object entries) = some record)
    : ∃ written, ApiBlockRecord.format.write record = .object written
      ∧ (∀ key json, entries.lookup key = some json → written.lookup key = some json)
      ∧ ∀ key, key ∉ BlockRecord.fields.keys → written.lookup key = entries.lookup key :=
  JsonFormat.recordBeside_written BlockRecord.fields_exact (fun _ => rfl) found

/-- A record of a later API, which gives of the typed fields only the height. -/
theorem ApiBlockRecord.written_of_read_sample
    : ∃ record written,
      ApiBlockRecord.format.read
        (.object [("height", .number (.posInt 7)), ("signage", .bool true)]) = some record
      ∧ ApiBlockRecord.format.write record = .object written
      ∧ written.lookup "height" = some (.number (.posInt 7))
      ∧ written.lookup "signage" = some (.bool true) := by
  have readable : (ApiBlockRecord.format.read
      (.object [("height", .number (.posInt 7)), ("signage", .bool true)])).isSome := by
    decide +kernel
  obtain ⟨record, found⟩ := Option.isSome_iff_exists.mp readable
  obtain ⟨written, writes, kept, beside⟩ := ApiBlockRecord.written_of_read found
  refine ⟨record, written, found, writes, kept "height" _ (by rfl), ?_⟩
  rw [beside "signage" (by decide +kernel)]
  rfl

end ChiaQuery
