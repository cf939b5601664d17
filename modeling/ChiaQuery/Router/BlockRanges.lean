import ChiaQuery.Library.JsonDocuments
import ChiaQuery.Library.UnsignedRanges
import ChiaQuery.Router.BlockRecords
import ChiaQuery.Router.PushTx

/-! The reads of a range of heights, block by block. The length of the range sizes the list
before the first read, and no layer above compares its ends.
-/

namespace ChiaQuery

open ChiaQuery.Library

/-- The parts of the chia crates that render a block. -/
structure BlockCrates where
  FullBlock : Type
  /-- `serde_json::to_value`. -/
  toValue : FullBlock → Except String Json

/-- What each request for a block comes to on every connection. -/
structure BlockWire (crates : BlockCrates) where
  requestBlockHeader : Peer → UInt32 → Reply HeaderBlock
  requestBlock : Peer → UInt32 → Reply crates.FullBlock

/-- What a read of a range finds as it comes to each height. -/
structure RangeViews (crates : BlockCrates) where
  pool : UInt32 → PoolViews
  wire : UInt32 → BlockWire crates

/-- What a read of a range does: what it returns, `none` where it panics, whether its length
underflowed, the capacity it allocates and whom it ejects.
-/
structure RangeRead (α : Type) where
  result : Option (Except ChiaQueryError (List α))
  underflowed : Bool
  capacity : Option UInt32
  ejected : List SocketAddr

/-- Reads the heights one after another, up to the first failure. -/
def readHeights {α : Type} (read : UInt32 → Round α)
    : List UInt32 → List α → List SocketAddr → Round (List α)
  | [], items, ejected => { result := .ok items, ejected }
  | height :: rest, items, ejected =>
      let round := read height
      match round.result with
      | .ok item => readHeights read rest (items ++ [item]) (ejected ++ round.ejected)
      | .error failure => { result := .error failure, ejected := ejected ++ round.ejected }

/-- The body of `try_get_block_records` and `try_get_blocks_range`, over the read of a height. -/
def readRange {α : Type} (overflowChecks : Bool) (read : UInt32 → Round α) (start stop : UInt32)
    : RangeRead α :=
  let length := subtract overflowChecks stop start
  match length.value with
  | none =>
      { result := none, underflowed := length.underflowed, capacity := none, ejected := [] }
  | some capacity =>
      let round := readHeights read (rangeOf start stop) [] []
      {
        result := some round.result,
        underflowed := length.underflowed,
        capacity := some capacity,
        ejected := round.ejected
      }

namespace PeerBackend

variable {crates : BlockCrates}

/-- `do_get_block_record_by_height_opt`. -/
def doGetBlockRecordByHeightOpt (wire : BlockWire crates) (peer : Peer) (height : UInt32)
    : Except ChiaQueryError (Option WholeBlockRecord) := do
  let response ← (wire.requestBlockHeader peer height).orAbsent
  return response.map headerBlockToBlockRecord

/-- `do_get_block_record_by_height`. -/
def doGetBlockRecordByHeight (wire : BlockWire crates) (peer : Peer) (height : UInt32)
    : Except ChiaQueryError WholeBlockRecord := do
  match ← doGetBlockRecordByHeightOpt wire peer height with
  | some record => return record
  | none => throw (.peerRejection "header request rejected")

/-- `fetch_full_block`. -/
def fetchFullBlock (wire : BlockWire crates) (peer : Peer) (height : UInt32)
    : Except ChiaQueryError crates.FullBlock :=
  (wire.requestBlock peer height).orError "block request timed out" "block request rejected"

/-- `do_get_block_by_height`. -/
def doGetBlockByHeight (wire : BlockWire crates) (peer : Peer) (height : UInt32)
    : Except ChiaQueryError Json := do
  let block ← fetchFullBlock wire peer height
  (crates.toValue block).mapError (fun failure => .peerConnection s!"serialize block: {failure}")

/-- `try_get_block_record_by_height`. -/
def tryGetBlockRecordByHeight (views : RangeViews crates) (height : UInt32)
    : Round WholeBlockRecord :=
  ejectOnFailure (pick (views.pool height))
    (fun peer => doGetBlockRecordByHeight (views.wire height) peer height)

/-- `try_get_block_by_height`. -/
def tryGetBlockByHeight (views : RangeViews crates) (height : UInt32) : Round Json :=
  ejectOnFailure (pick (views.pool height))
    (fun peer => doGetBlockByHeight (views.wire height) peer height)

/-- `try_get_block_records`. -/
def tryGetBlockRecords (overflowChecks : Bool) (views : RangeViews crates) (start stop : UInt32)
    : RangeRead WholeBlockRecord :=
  readRange overflowChecks (tryGetBlockRecordByHeight views) start stop

/-- `try_get_blocks_range`. -/
def tryGetBlocksRange (overflowChecks : Bool) (views : RangeViews crates) (start stop : UInt32)
    : RangeRead Json :=
  readRange overflowChecks (tryGetBlockByHeight views) start stop

end PeerBackend

/-- What the coinset tier answers to the requests for a range. -/
structure CoinsetRanges where
  getBlockRecords : UInt32 → UInt32 → Except ChiaQueryError (List WholeBlockRecord)
  getBlocks : UInt32 → UInt32 → Bool → Bool → Except ChiaQueryError (List Json)

/-- What a request for a range returns, `none` where it panics, and the reads it makes. -/
structure RangeRun (α : Type) where
  result : Option (Except ChiaQueryError (List α))
  attempts : List (RangeRead α)

namespace QueryRouter

/-- `peer_then_coinset` over reads that may panic, the second of which starts when the first has
failed.
-/
def rangeThenCoinset {α : Type} (fallback : Bool) (first retry : RangeRead α)
    (coinset : Except ChiaQueryError (List α))
    : RangeRun α :=
  match first.result with
  | none => { result := none, attempts := [first] }
  | some (.ok items) => { result := some (.ok items), attempts := [first] }
  | some (.error failure) =>
      {
        result := retry.result.map (fun again =>
          peerThenCoinset fallback (.error failure) again coinset),
        attempts := [first, retry]
      }

variable {crates : BlockCrates}

/-- `get_block_records`. The pool and its connections may change between the two reads. -/
def getBlockRecords (overflowChecks fallback : Bool) (first retry : RangeViews crates)
    (coinset : CoinsetRanges) (start stop : UInt32)
    : RangeRun WholeBlockRecord :=
  rangeThenCoinset fallback (PeerBackend.tryGetBlockRecords overflowChecks first start stop)
    (PeerBackend.tryGetBlockRecords overflowChecks retry start stop)
    (coinset.getBlockRecords start stop)

/-- `get_blocks`, which passes its exclusions to the coinset tier alone. -/
def getBlocks (overflowChecks fallback : Bool) (first retry : RangeViews crates)
    (coinset : CoinsetRanges) (start stop : UInt32) (excludeHeaderHash excludeReorged : Bool)
    : RangeRun Json :=
  rangeThenCoinset fallback (PeerBackend.tryGetBlocksRange overflowChecks first start stop)
    (PeerBackend.tryGetBlocksRange overflowChecks retry start stop)
    (coinset.getBlocks start stop excludeHeaderHash excludeReorged)

end QueryRouter

/-- A read's length did not underflow, and sizes what it allocates. -/
structure IsSized {α : Type} (start stop : UInt32) (read : RangeRead α) : Prop where
  noUnderflow : read.underflowed = false
  capacity : ∀ capacity, read.capacity = some capacity → capacity.toNat = stop.toNat - start.toNat

/-- A read of a range returns the items of exactly its heights, in their order, or the failure of
the first height that has one.
-/
structure ReadsRange {α : Type} (byHeight : UInt32 → Round α) (start stop : UInt32)
    (read : RangeRead α)
    : Prop where
  sized : IsSized start stop read
  ordered
    : ∃ heights result,
        IsRange start stop heights
        ∧ read.result = some result
        ∧ InOrder (fun height => (byHeight height).result) heights result
  empty : stop ≤ start → read.result = some (.ok [])

/-- What a request returns that reads the heights in order, does so again after a failure, and
asks the coinset tier after a second one.
-/
inductive RangeAnswer {α : Type} (fallback : Bool) (first retry : UInt32 → Round α)
    (coinset : Except ChiaQueryError (List α)) (heights : List UInt32)
    : Except ChiaQueryError (List α) → Prop
  | first {items} (read : InOrder (fun height => (first height).result) heights (.ok items))
    : RangeAnswer fallback first retry coinset heights (.ok items)
  | retry {failure items}
    (failed : InOrder (fun height => (first height).result) heights (.error failure))
    (read : InOrder (fun height => (retry height).result) heights (.ok items))
    : RangeAnswer fallback first retry coinset heights (.ok items)
  | failed {earlier failure}
    (failed : InOrder (fun height => (first height).result) heights (.error earlier))
    (again : InOrder (fun height => (retry height).result) heights (.error failure))
    (alone : fallback = false)
    : RangeAnswer fallback first retry coinset heights (.error failure)
  | coinset {earlier failure}
    (failed : InOrder (fun height => (first height).result) heights (.error earlier))
    (again : InOrder (fun height => (retry height).result) heights (.error failure))
    (enabled : fallback = true)
    : RangeAnswer fallback first retry coinset heights
        (coinset.mapError (fun coinsetError => .allSourcesFailed failure (some coinsetError)))

/-- A request for a range is served from its heights, and each of its reads is sized by it. -/
structure ServesRange {α : Type} (fallback : Bool) (first retry : UInt32 → Round α)
    (coinset : Except ChiaQueryError (List α)) (start stop : UInt32) (run : RangeRun α)
    : Prop where
  sized : ∀ attempt ∈ run.attempts, IsSized start stop attempt
  ordered
    : ∃ heights result,
        IsRange start stop heights
        ∧ run.result = some result
        ∧ RangeAnswer fallback first retry coinset heights result
  empty : stop ≤ start → run.result = some (.ok [])

section Reads

variable {α : Type} {overflowChecks fallback : Bool} {start stop : UInt32}

/-- The loop puts what it has before what the rest of the heights come to, by induction on
them.
-/
theorem readHeights_inOrder (read : UInt32 → Round α) (heights : List UInt32) (items : List α)
    (ejected : List SocketAddr)
    : ∃ result,
        (readHeights read heights items ejected).result = result.map (fun rest => items ++ rest)
        ∧ InOrder (fun height => (read height).result) heights result := by
  induction heights generalizing items ejected with
  | nil =>
      refine ⟨.ok [], ?_, InOrder.nil _⟩
      simp [readHeights, Except.map]
  | cons height rest ih =>
      unfold readHeights
      cases outcome : (read height).result with
      | ok item =>
          obtain ⟨result, same, ordered⟩ := ih (items ++ [item]) (ejected ++ (read height).ejected)
          refine ⟨result.map (fun rest => item :: rest), ?_, InOrder.cons outcome ordered⟩
          simp only [outcome, same]
          cases result <;> simp [Except.map]
      | error failure =>
          refine ⟨.error failure, ?_, ?_⟩
          · simp only [outcome, Except.map]
          · apply InOrder.fail
            exact outcome

/-- A range whose ends are in order is read as it should be, in either profile. -/
theorem readsRange_of_le (read : UInt32 → Round α) (ends : start ≤ stop)
    : ReadsRange read start stop (readRange overflowChecks read start stop) := by
  obtain ⟨result, same, ordered⟩ := readHeights_inOrder read (rangeOf start stop) [] []
  have returned : (readHeights read (rangeOf start stop) [] []).result = result := by
    rw [same]
    cases result <;> rfl
  simp only [readRange, subtract_of_le ends, returned]
  refine ⟨⟨rfl, ?_⟩, ⟨rangeOf start stop, result, isRange_rangeOf start stop, rfl, ordered⟩, ?_⟩
  · intro capacity allocated
    rw [← Option.some.inj allocated, UInt32.toNat_sub_of_le _ _ ends]
  · intro reversed
    rw [(isRange_rangeOf start stop).eq_nil reversed] at ordered
    rw [ordered.of_nil]

theorem readRange_underflowed (read : UInt32 → Round α) (start stop : UInt32)
    : (readRange overflowChecks read start stop).underflowed
      = (subtract overflowChecks stop start).underflowed := by
  unfold readRange
  dsimp only
  split <;> rfl

/-- No read of a range avoids the underflow of ends in the reverse order. -/
theorem le_of_isSized {read : UInt32 → Round α}
    (sized : IsSized start stop (readRange overflowChecks read start stop))
    : start ≤ stop := by
  have noUnderflow := sized.noUnderflow
  rw [readRange_underflowed] at noUnderflow
  exact subtract_underflowed_iff.mp noUnderflow

theorem readsRange_iff (overflowChecks : Bool) (read : UInt32 → Round α) (start stop : UInt32)
    : ReadsRange read start stop (readRange overflowChecks read start stop) ↔ start ≤ stop :=
  ⟨fun reads => le_of_isSized reads.sized, readsRange_of_le read⟩

end Reads

section Requests

variable {α : Type} {fallback : Bool} {start stop : UInt32} {first retry : RangeRead α}
  {coinset : Except ChiaQueryError (List α)}

/-- A request makes its first read, whatever comes of it. -/
theorem first_mem_attempts
    : first ∈ (QueryRouter.rangeThenCoinset fallback first retry coinset).attempts := by
  unfold QueryRouter.rangeThenCoinset
  split <;> simp

theorem mem_attempts {attempt : RangeRead α}
    (made : attempt ∈ (QueryRouter.rangeThenCoinset fallback first retry coinset).attempts)
    : attempt = first ∨ attempt = retry := by
  unfold QueryRouter.rangeThenCoinset at made
  split at made <;> simp at made <;> tauto

/-- A request whose two reads are in order is in order: they read the same heights. -/
theorem servesRange_of_readsRange {firstByHeight retryByHeight : UInt32 → Round α}
    (firstReads : ReadsRange firstByHeight start stop first)
    (retryReads : ReadsRange retryByHeight start stop retry)
    : ServesRange fallback firstByHeight retryByHeight coinset start stop
        (QueryRouter.rangeThenCoinset fallback first retry coinset) := by
  obtain ⟨heights, result, range, returned, ordered⟩ := firstReads.ordered
  obtain ⟨others, again, sameRange, returnedAgain, orderedAgain⟩ := retryReads.ordered
  rw [sameRange.unique range] at orderedAgain
  constructor
  · intro attempt made
    rcases mem_attempts made with rfl | rfl
    · exact firstReads.sized
    · exact retryReads.sized
  · cases result with
    | ok items =>
        refine ⟨heights, .ok items, range, ?_, .first ordered⟩
        simp only [QueryRouter.rangeThenCoinset, returned]
    | error failure =>
        refine ⟨heights, QueryRouter.peerThenCoinset fallback (.error failure) again coinset,
          range, ?_, ?_⟩
        · simp only [QueryRouter.rangeThenCoinset, returned, returnedAgain, Option.map_some]
        · cases again with
          | ok items => exact .retry ordered orderedAgain
          | error last =>
              cases fallback with
              | false => exact .failed ordered orderedAgain rfl
              | true => exact .coinset ordered orderedAgain rfl
  · intro reversed
    simp only [QueryRouter.rangeThenCoinset, firstReads.empty reversed]

theorem servesRange_iff (overflowChecks fallback : Bool) (first retry : UInt32 → Round α)
    (coinset : Except ChiaQueryError (List α)) (start stop : UInt32)
    : ServesRange fallback first retry coinset start stop
        (QueryRouter.rangeThenCoinset fallback (readRange overflowChecks first start stop)
          (readRange overflowChecks retry start stop) coinset)
      ↔ start ≤ stop := by
  constructor
  · intro serves
    exact le_of_isSized (serves.sized _ first_mem_attempts)
  · intro ends
    exact servesRange_of_readsRange (readsRange_of_le first ends) (readsRange_of_le retry ends)

end Requests

open PeerBackend QueryRouter in
/-- Whatever the pool, its peers and the coinset tier do, each of the four reads serves its range
exactly when the ends are in order.
-/
theorem ranges_read_iff {crates : BlockCrates} (overflowChecks fallback : Bool)
    (first retry : RangeViews crates) (coinset : CoinsetRanges) (start stop : UInt32)
    (excludeHeaderHash excludeReorged : Bool)
    : (ReadsRange (tryGetBlockRecordByHeight first) start stop
          (tryGetBlockRecords overflowChecks first start stop)
        ↔ start ≤ stop)
      ∧ (ReadsRange (tryGetBlockByHeight first) start stop
            (tryGetBlocksRange overflowChecks first start stop)
          ↔ start ≤ stop)
      ∧ (ServesRange fallback (tryGetBlockRecordByHeight first) (tryGetBlockRecordByHeight retry)
            (coinset.getBlockRecords start stop) start stop
            (getBlockRecords overflowChecks fallback first retry coinset start stop)
          ↔ start ≤ stop)
      ∧ (ServesRange fallback (tryGetBlockByHeight first) (tryGetBlockByHeight retry)
            (coinset.getBlocks start stop excludeHeaderHash excludeReorged) start stop
            (getBlocks overflowChecks fallback first retry coinset start stop excludeHeaderHash
              excludeReorged)
          ↔ start ≤ stop) :=
  ⟨readsRange_iff overflowChecks _ start stop,
    readsRange_iff overflowChecks _ start stop,
    servesRange_iff overflowChecks fallback _ _ _ start stop,
    servesRange_iff overflowChecks fallback _ _ _ start stop⟩

open PeerBackend QueryRouter in
/-- The length of the range from 1 to 0 underflows in all four reads, in either profile. -/
theorem reversed_range_underflows
    : ¬ ∀ (crates : BlockCrates) (overflowChecks fallback : Bool)
        (first retry : RangeViews crates) (coinset : CoinsetRanges) (start stop : UInt32)
        (excludeHeaderHash excludeReorged : Bool),
        ReadsRange (tryGetBlockRecordByHeight first) start stop
          (tryGetBlockRecords overflowChecks first start stop)
        ∧ ReadsRange (tryGetBlockByHeight first) start stop
            (tryGetBlocksRange overflowChecks first start stop)
        ∧ ServesRange fallback (tryGetBlockRecordByHeight first)
            (tryGetBlockRecordByHeight retry) (coinset.getBlockRecords start stop) start stop
            (getBlockRecords overflowChecks fallback first retry coinset start stop)
        ∧ ServesRange fallback (tryGetBlockByHeight first) (tryGetBlockByHeight retry)
            (coinset.getBlocks start stop excludeHeaderHash excludeReorged) start stop
            (getBlocks overflowChecks fallback first retry coinset start stop excludeHeaderHash
              excludeReorged) := by
  intro claim
  let crates : BlockCrates := { FullBlock := Unit, toValue := fun _ => .ok .null }
  let views : RangeViews crates :=
    {
      pool := fun _ => .steady samplePool 0,
      wire := fun _ =>
        { requestBlockHeader := fun _ _ => .rejected, requestBlock := fun _ _ => .rejected }
    }
  let coinset : CoinsetRanges :=
    { getBlockRecords := fun _ _ => .ok [], getBlocks := fun _ _ _ _ => .ok [] }
  obtain ⟨records, -, -, -⟩ := claim crates false false views views coinset 1 0 false false
  exact absurd ((readsRange_iff false _ 1 0).mp records) (by decide)

end ChiaQuery
