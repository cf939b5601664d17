import ChiaQuery.Router.Ladders
import Mathlib.Data.List.Chain

/-! The block records that the peer tier makes of header blocks, and whether they name the same
blocks as the coinset tier's. A block is named by the hash of its foliage, while the record
takes over the hash of its reward block.
-/

namespace ChiaQuery

/-- `G2Element`, in its 96 bytes. -/
abbrev G2Element := BitVec 768

/-- `PoolTarget`. -/
structure PoolTarget where
  puzzleHash : Bytes32
  maxHeight : UInt32
  deriving DecidableEq, Repr

/-- `FoliageBlockData`. -/
structure FoliageBlockData where
  unfinishedRewardBlockHash : Bytes32
  poolTarget : PoolTarget
  poolSignature : Option G2Element
  farmerRewardPuzzleHash : Bytes32
  extensionData : Bytes32
  deriving DecidableEq, Repr

/-- `Foliage`, whose hash is the header hash of its block. -/
structure Foliage where
  prevBlockHash : Bytes32
  rewardBlockHash : Bytes32
  foliageBlockData : FoliageBlockData
  foliageBlockDataSignature : G2Element
  foliageTransactionBlockHash : Option Bytes32
  foliageTransactionBlockSignature : Option G2Element
  deriving DecidableEq, Repr

/-- `RewardChainBlock`, with the fields a record reads. -/
structure RewardChainBlock where
  weight : BitVec 128
  height : UInt32
  totalIters : BitVec 128
  signagePointIndex : UInt8
  deriving DecidableEq, Repr

/-- `FoliageTransactionBlock`, with the field a record reads. -/
structure FoliageTransactionBlock where
  timestamp : UInt64
  deriving DecidableEq, Repr

/-- `HeaderBlock`, with the parts a record reads. -/
structure HeaderBlock where
  rewardChainBlock : RewardChainBlock
  foliage : Foliage
  foliageTransactionBlock : Option FoliageTransactionBlock
  deriving DecidableEq, Repr

/-- The crate's `BlockRecord` with all its fields. `extra` is the text of what else the API
returned, if it did.
-/
structure WholeBlockRecord extends BlockRecord where
  weight : UInt64
  prevHash : String
  totalIters : UInt64
  signagePointIndex : UInt8
  farmerPuzzleHash : String
  poolPuzzleHash : String
  fees : Option UInt64
  extra : Option String
  deriving DecidableEq, Repr

/-- `as u64`. -/
def truncated (value : BitVec 128) : UInt64 :=
  UInt64.ofNat value.toNat

/-- `header_block_to_block_record`. -/
def headerBlockToBlockRecord (block : HeaderBlock) : WholeBlockRecord where
  headerHash := hex32 block.foliage.rewardBlockHash
  height := block.rewardChainBlock.height
  timestamp := block.foliageTransactionBlock.map FoliageTransactionBlock.timestamp
  weight := truncated block.rewardChainBlock.weight
  prevHash := hex32 block.foliage.prevBlockHash
  totalIters := truncated block.rewardChainBlock.totalIters
  signagePointIndex := block.rewardChainBlock.signagePointIndex
  farmerPuzzleHash := hex32 block.foliage.foliageBlockData.farmerRewardPuzzleHash
  poolPuzzleHash := ""
  fees := none
  extra := none

/-- A record of the coinset tier is of a block: it has its height, header hash and timestamp. -/
structure IsRecordOf (foliageHash : Foliage → Bytes32) (block : HeaderBlock)
    (record : BlockRecord)
    : Prop where
  height : record.height = block.rewardChainBlock.height
  headerHash : record.headerHash = hex32 (foliageHash block.foliage)
  timestamp :
    record.timestamp = block.foliageTransactionBlock.map FoliageTransactionBlock.timestamp

/-- Each block names the header hash of the one before it. -/
def AreLinked (foliageHash : Foliage → Bytes32) (blocks : List HeaderBlock) : Prop :=
  blocks.IsChain (fun earlier later =>
    later.foliage.prevBlockHash = foliageHash earlier.foliage)

/-- The records of a sequence of blocks name their blocks: they are linked as the blocks are, claim
what the coinset tier does, and are settled by its records.
-/
structure NameTheirBlocks (foliageHash : Foliage → Bytes32) (blocks : List HeaderBlock)
    : Prop where
  linked :
    AreLinked foliageHash blocks
    → (blocks.map headerBlockToBlockRecord).IsChain (fun earlier later =>
        later.prevHash = earlier.headerHash)
  claimed :
    ∀ block ∈ blocks, ∀ record,
      IsRecordOf foliageHash block record
      → chainClaim (headerBlockToBlockRecord block).toBlockRecord = chainClaim record
  settled :
    ∀ block ∈ blocks, ∀ record,
      IsRecordOf foliageHash block record
      → settleUncorroboratedPresence (headerBlockToBlockRecord block).toBlockRecord
          (some (.ok (some record)))
        = .ok (some (headerBlockToBlockRecord block).toBlockRecord)

variable {foliageHash : Foliage → Bytes32} {blocks : List HeaderBlock} {block : HeaderBlock}
  {left right record : BlockRecord}

/-- Records of one height and timestamp claim the same exactly when they have one header hash. -/
theorem chainClaim_block_iff (height : left.height = right.height)
    (timestamp : left.timestamp = right.timestamp)
    : chainClaim left = chainClaim right ↔ left.headerHash = right.headerHash := by
  constructor
  · intro same
    have chars := congrArg String.toList same
    simp only [chainClaim, height, timestamp, String.toList_append, List.append_assoc] at chars
    have hashes := List.append_cancel_left (List.append_cancel_left (List.append_cancel_left chars))
    exact String.toList_inj.mp (List.append_cancel_right hashes)
  · intro hash
    obtain ⟨leftHash, leftHeight, leftTimestamp⟩ := left
    cases height
    cases timestamp
    cases hash
    rfl

/-- The peer tier claims what the coinset tier does exactly when the hash it takes over is the
block's.
-/
theorem claims_agree_iff (same : IsRecordOf foliageHash block record)
    : chainClaim (headerBlockToBlockRecord block).toBlockRecord = chainClaim record
      ↔ block.foliage.rewardBlockHash = foliageHash block.foliage := by
  rw [chainClaim_block_iff same.height.symm same.timestamp.symm, same.headerHash]
  constructor
  · intro hash
    exact hex32_injective hash
  · intro hash
    exact congrArg hex32 hash

/-- Every block has a record of the coinset tier. -/
theorem exists_isRecordOf (foliageHash : Foliage → Bytes32) (block : HeaderBlock)
    : ∃ record, IsRecordOf foliageHash block record :=
  ⟨{
      headerHash := hex32 (foliageHash block.foliage),
      height := block.rewardChainBlock.height,
      timestamp := block.foliageTransactionBlock.map FoliageTransactionBlock.timestamp
    },
    rfl, rfl, rfl⟩

/-- The records of linked blocks are linked where the hashes they take over are the blocks'. -/
theorem records_linked (named : ∀ block ∈ blocks,
      block.foliage.rewardBlockHash = foliageHash block.foliage)
    (linked : AreLinked foliageHash blocks)
    : (blocks.map headerBlockToBlockRecord).IsChain (fun earlier later =>
        later.prevHash = earlier.headerHash) := by
  rw [List.isChain_map]
  refine linked.imp_of_mem_imp ?_
  intro earlier later member _ names
  exact congrArg hex32 (names.trans (named earlier member).symm)

/-- Over every sequence of header blocks, the records name their blocks exactly when every block
has its own header hash for the hash of its reward block.
-/
theorem records_name_their_blocks_iff (foliageHash : Foliage → Bytes32)
    (blocks : List HeaderBlock)
    : NameTheirBlocks foliageHash blocks
      ↔ ∀ block ∈ blocks, block.foliage.rewardBlockHash = foliageHash block.foliage := by
  constructor
  · intro names block member
    obtain ⟨record, same⟩ := exists_isRecordOf foliageHash block
    exact (claims_agree_iff same).mp (names.claimed block member record same)
  · intro named
    refine ⟨records_linked named, ?_, ?_⟩
    · intro block member record same
      exact (claims_agree_iff same).mpr (named block member)
    · intro block member record same
      have agree := (claims_agree_iff same).mpr (named block member)
      rw [settleUncorroboratedPresence, if_pos agree.symm]

/-- A foliage with no pool signature and no transaction block. -/
def sampleFoliage : Foliage where
  prevBlockHash := 1
  rewardBlockHash := 2
  foliageBlockData :=
    {
      unfinishedRewardBlockHash := 3,
      poolTarget := { puzzleHash := 4, maxHeight := 0 },
      poolSignature := none,
      farmerRewardPuzzleHash := 5,
      extensionData := 0
    }
  foliageBlockDataSignature := BitVec.ofNat 768 (192 * 256 ^ 95)
  foliageTransactionBlockHash := none
  foliageTransactionBlockSignature := none

/-- The SHA-256 hash of the serialized `sampleFoliage`. -/
def sampleHeaderHash : Bytes32 :=
  0x9b9ee0aa7539935c07faaa6849606167cd1e57b5a60b71e8654104e8b17a6841

/-- The record of a block does not name it. -/
theorem block_is_named_by_its_reward_block
    : ¬ ∀ (foliageHash : Foliage → Bytes32) (blocks : List HeaderBlock),
        NameTheirBlocks foliageHash blocks := by
  intro claim
  let block : HeaderBlock :=
    {
      rewardChainBlock := { weight := 1, height := 10, totalIters := 1, signagePointIndex := 0 },
      foliage := sampleFoliage,
      foliageTransactionBlock := none
    }
  have names := claim (fun _ => sampleHeaderHash) [block]
  obtain ⟨record, same⟩ := exists_isRecordOf (fun _ => sampleHeaderHash) block
  have hash := (claims_agree_iff same).mp (names.claimed block (by simp) record same)
  exact absurd hash (by decide)

end ChiaQuery
