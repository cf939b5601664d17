import ChiaQuery.Coinset.Client
import ChiaQuery.Router.Blocks

/-! The reads of a block by its header hash. The coinset tier resolves the height, and what a
peer then answers for that height is taken as it is.
-/

namespace ChiaQuery

open Library ChiaQuery.Coinset

namespace PeerBackend

variable {reader : BlockReader}

/-- `do_get_additions_and_removals_from_block`. -/
def doGetAdditionsAndRemovalsFromBlock (wire : BlockWire reader.blocks) (peer : Peer)
    (height : UInt32)
    : Except ChiaQueryError AdditionsAndRemovals := do
  let block ← fetchFullBlock wire peer height
  blockAdditionsAndRemovals reader.generator block height

/-- `do_get_block_spends`, none where it panics. -/
def doGetBlockSpends (wire : BlockWire reader.blocks) (peer : Peer) (height : UInt32)
    : Option (Except ChiaQueryError (List CoinSpend)) :=
  match fetchFullBlock wire peer height with
  | .error failure => some (.error failure)
  | .ok block => reader.blockSpends block

/-- `try_get_additions_and_removals_from_block`. -/
def tryGetAdditionsAndRemovalsFromBlock (views : PoolViews) (wire : BlockWire reader.blocks)
    (height : UInt32)
    : Round AdditionsAndRemovals :=
  ejectOnFailure (pick views) (fun peer => doGetAdditionsAndRemovalsFromBlock wire peer height)

/-- `try_get_block_spends_by_height`, none where it panics. -/
def tryGetBlockSpendsByHeight (views : PoolViews) (wire : BlockWire reader.blocks)
    (height : UInt32)
    : Option (Round (List CoinSpend)) :=
  match pick views with
  | .error failure => some { result := .error failure, ejected := [] }
  | .ok (peer, address) =>
      match doGetBlockSpends wire peer height with
      | none => none
      | some (.ok spends) => some { result := .ok spends, ejected := [] }
      | some (.error failure) => some { result := .error failure, ejected := [address] }

/-- `try_get_block_spends_with_conditions`, none where it panics or a loop still runs. Only a
block that is not fetched ejects the peer.
-/
def tryGetBlockSpendsWithConditions (turns : Nat) (views : PoolViews)
    (wire : BlockWire reader.blocks) (height : UInt32)
    : Option (Round (List (CoinSpendWithConditions Condition))) :=
  match pick views with
  | .error failure => some { result := .error failure, ejected := [] }
  | .ok (peer, address) =>
      match fetchFullBlock wire peer height with
      | .error failure => some { result := .error failure, ejected := [address] }
      | .ok block =>
          (reader.blockSpendsWithConditions turns block).map (fun result =>
            { result, ejected := [] })

end PeerBackend

namespace QueryRouter

/-- `require_coinset`. -/
def requireCoinset (fallback : Bool) (endpoint : String) : Except ChiaQueryError Unit :=
  if fallback then .ok () else .error (.unsupportedWithoutCoinset endpoint)

/-- `get_block_record`. -/
def getBlockRecord (fallback : Bool) (coinset : CoinsetClient) (headerHash : String)
    : Except ChiaQueryError ApiBlockRecord := do
  requireCoinset fallback "get_block_record"
  coinset.getBlockRecord headerHash

/-- The body of the reads by header hash: the coinset tier resolves the height, a peer is asked
for the block at it, and the coinset tier answers what the peer did not.
-/
def byHeaderHash {α : Type} (fallback : Bool) (endpoint : String)
    (record : Except ChiaQueryError ApiBlockRecord) (byHeight : UInt32 → Option (Round α))
    (coinset : Except ChiaQueryError α)
    : Option (Round α) :=
  let otherwise :=
    if fallback then coinset else .error (ChiaQueryError.unsupportedWithoutCoinset endpoint)
  match record with
  | .error _ => some { result := otherwise, ejected := [] }
  | .ok record =>
      match byHeight record.height with
      | none => none
      | some { result := .ok value, ejected } => some { result := .ok value, ejected }
      | some { result := .error _, ejected } => some { result := otherwise, ejected }

variable {reader : BlockReader}

/-- `get_additions_and_removals`. -/
def getAdditionsAndRemovals (fallback : Bool) (views : PoolViews)
    (wire : BlockWire reader.blocks) (coinset : CoinsetClient) (headerHash : String)
    : Option (Round AdditionsAndRemovals) :=
  byHeaderHash fallback "get_additions_and_removals" (getBlockRecord fallback coinset headerHash)
    (fun height => some (PeerBackend.tryGetAdditionsAndRemovalsFromBlock views wire height))
    (coinset.getAdditionsAndRemovals headerHash)

/-- `get_block`. -/
def getBlock (fallback : Bool) (views : PoolViews) (wire : BlockWire reader.blocks)
    (coinset : CoinsetClient) (headerHash : String)
    : Option (Round Json) :=
  byHeaderHash fallback "get_block" (getBlockRecord fallback coinset headerHash)
    (fun height =>
      some
        (PeerBackend.tryGetBlockByHeight { pool := fun _ => views, wire := fun _ => wire }
          height))
    (coinset.getBlock headerHash)

/-- `get_block_by_height`. The pool and its connections may change between the two reads. -/
def getBlockByHeight (fallback : Bool) (first retry : RangeViews reader.blocks)
    (coinset : CoinsetClient) (height : UInt32)
    : Except ChiaQueryError Json :=
  peerThenCoinset fallback (PeerBackend.tryGetBlockByHeight first height).result
    (PeerBackend.tryGetBlockByHeight retry height).result
    (do
      let record ← coinset.getBlockRecordByHeight height
      coinset.getBlock record.headerHash)

/-- `get_block_spends`. -/
def getBlockSpends (fallback : Bool) (views : PoolViews) (wire : BlockWire reader.blocks)
    (coinset : CoinsetClient) (headerHash : String)
    : Option (Round (List CoinSpend)) :=
  byHeaderHash fallback "get_block_spends" (getBlockRecord fallback coinset headerHash)
    (PeerBackend.tryGetBlockSpendsByHeight views wire) (coinset.getBlockSpends headerHash)

/-- `get_block_spends_with_conditions`. -/
def getBlockSpendsWithConditions (fallback : Bool) (turns : Nat) (views : PoolViews)
    (wire : BlockWire reader.blocks) (coinset : CoinsetClient) (headerHash : String)
    : Option (Round (List (CoinSpendWithConditions Condition))) :=
  byHeaderHash fallback "get_block_spends_with_conditions"
    (getBlockRecord fallback coinset headerHash)
    (PeerBackend.tryGetBlockSpendsWithConditions turns views wire)
    (coinset.getBlockSpendsWithConditions headerHash)

end QueryRouter

/-- The answers of the two reads of spends: the same spends, or the same failure, and whom the
read with conditions ejects, the other one does.
-/
structure SpendsAgree (plain : Round (List CoinSpend))
    (full : Round (List (CoinSpendWithConditions Condition)))
    : Prop where
  result : full.result.map (fun items => items.map (·.coinSpend)) = plain.result
  ejected : ∀ address ∈ full.ejected, address ∈ plain.ejected

/-- The coinset tier answers the same spends with conditions as without them. -/
def AnswersSameSpends (coinset : CoinsetClient) : Prop :=
  ∀ headerHash,
    (coinset.getBlockSpendsWithConditions headerHash).map (fun items => items.map (·.coinSpend))
    = coinset.getBlockSpends headerHash

/-- The read of spends with conditions extends the one without them: at a height the peers'
answers agree and the conditions are those of each spend's text, a router answers the same
spends by both reads, and without the coinset tier it answers neither and ejects nobody.
-/
structure ExtendsSpends {reader : BlockReader} (views : PoolViews)
    (wire : BlockWire reader.blocks) (coinset : CoinsetClient)
    : Prop where
  byHeight
    : ∀ height, ∃ plain enough, PeerBackend.tryGetBlockSpendsByHeight views wire height = some plain
        ∧ ∀ turns, enough ≤ turns
          → ∃ full,
            PeerBackend.tryGetBlockSpendsWithConditions turns views wire height = some full
            ∧ SpendsAgree plain full
            ∧ ∀ items, full.result = .ok items → ∀ item ∈ items, reader.StatesSpend turns item
  byHeaderHash
    : AnswersSameSpends coinset
      → ∀ headerHash, ∃ plain enough,
          QueryRouter.getBlockSpends true views wire coinset headerHash = some plain
          ∧ ∀ turns, enough ≤ turns
            → ∃ full,
              QueryRouter.getBlockSpendsWithConditions true turns views wire coinset headerHash
                = some full
              ∧ SpendsAgree plain full
  withoutCoinset
    : ∀ headerHash turns,
        QueryRouter.getBlockSpends false views wire coinset headerHash
          = some {
              result := .error (.unsupportedWithoutCoinset "get_block_spends"),
              ejected := []
            }
        ∧ QueryRouter.getBlockSpendsWithConditions false turns views wire coinset headerHash
          = some {
              result := .error (.unsupportedWithoutCoinset "get_block_spends_with_conditions"),
              ejected := []
            }

------------------------------------------------------------------------------------------
-- The reads of a peer and of a router
------------------------------------------------------------------------------------------

section Reads

variable {reader : BlockReader} {views : PoolViews} {wire : BlockWire reader.blocks}
  {coinset : CoinsetClient}

theorem tryGetBlockSpends_extends (documented : reader.Documented) (height : UInt32)
    : ∃ plain enough, PeerBackend.tryGetBlockSpendsByHeight views wire height = some plain
        ∧ ∀ turns, enough ≤ turns
          → ∃ full,
            PeerBackend.tryGetBlockSpendsWithConditions turns views wire height = some full
            ∧ SpendsAgree plain full
            ∧ ∀ items, full.result = .ok items → ∀ item ∈ items, reader.StatesSpend turns item := by
  unfold PeerBackend.tryGetBlockSpendsByHeight PeerBackend.tryGetBlockSpendsWithConditions
    PeerBackend.doGetBlockSpends
  cases PeerBackend.pick views with
  | error failure => exact ⟨_, 0, rfl, fun _ _ => ⟨_, rfl, ⟨rfl, nofun⟩, nofun⟩⟩
  | ok picked =>
      obtain ⟨peer, address⟩ := picked
      dsimp only
      cases PeerBackend.fetchFullBlock wire peer height with
      | error failure =>
          exact ⟨_, 0, rfl, fun _ _ => ⟨_, rfl, ⟨rfl, fun _ member => member⟩, nofun⟩⟩
      | ok block =>
          obtain ⟨plain, enough, read, extended⟩ :=
            BlockReader.blockSpendsWithConditions_extends documented block
          dsimp only
          rw [read]
          cases plain
          all_goals
            refine ⟨_, enough, rfl, fun turns enough => ?_⟩
            obtain ⟨full, fullRead, same, stated⟩ := extended turns enough
            exact ⟨{ result := full, ejected := [] }, by rw [fullRead]; rfl, ⟨same, nofun⟩, stated⟩

/-- Answers of a peer that agree still do once the coinset tier has answered what the peer did
not.
-/
theorem byHeaderHash_agree {record : Except ChiaQueryError ApiBlockRecord}
    {byHeight : UInt32 → Option (Round (List CoinSpend))}
    {fullByHeight : Nat → UInt32 → Option (Round (List (CoinSpendWithConditions Condition)))}
    {coinsetSpends : Except ChiaQueryError (List CoinSpend)}
    {coinsetItems : Except ChiaQueryError (List (CoinSpendWithConditions Condition))}
    {plainEndpoint fullEndpoint : String}
    (same : coinsetItems.map (fun items => items.map (·.coinSpend)) = coinsetSpends)
    (agree
      : ∀ height, ∃ plain enough, byHeight height = some plain
          ∧ ∀ turns, enough ≤ turns
            → ∃ full, fullByHeight turns height = some full ∧ SpendsAgree plain full)
    : ∃ plain enough,
        QueryRouter.byHeaderHash true plainEndpoint record byHeight coinsetSpends = some plain
        ∧ ∀ turns, enough ≤ turns
          → ∃ full,
            QueryRouter.byHeaderHash true fullEndpoint record (fullByHeight turns) coinsetItems
              = some full
            ∧ SpendsAgree plain full := by
  unfold QueryRouter.byHeaderHash
  cases record with
  | error failure => exact ⟨_, 0, rfl, fun _ _ => ⟨_, rfl, ⟨same, nofun⟩⟩⟩
  | ok record =>
      obtain ⟨⟨result, ejected⟩, enough, read, extended⟩ := agree record.height
      dsimp only
      rw [read]
      cases result with
      | ok spends =>
          refine ⟨_, enough, rfl, fun turns enough => ?_⟩
          obtain ⟨⟨full, spared⟩, fullRead, agrees⟩ := extended turns enough
          rw [fullRead]
          cases full with
          | ok items => exact ⟨_, rfl, agrees⟩
          | error failure => cases agrees.result
      | error failure =>
          refine ⟨_, enough, rfl, fun turns enough => ?_⟩
          obtain ⟨⟨full, spared⟩, fullRead, agrees⟩ := extended turns enough
          rw [fullRead]
          cases full with
          | ok items => cases agrees.result
          | error failure => exact ⟨_, rfl, ⟨same, agrees.ejected⟩⟩

theorem getBlockSpendsWithConditions_extends (documented : reader.Documented) (views : PoolViews)
    (wire : BlockWire reader.blocks) (coinset : CoinsetClient)
    : ExtendsSpends views wire coinset where
  byHeight := tryGetBlockSpends_extends documented
  byHeaderHash := by
    intro same headerHash
    apply byHeaderHash_agree (same headerHash)
    intro height
    obtain ⟨plain, enough, read, extended⟩ := tryGetBlockSpends_extends documented height
    refine ⟨plain, enough, read, fun turns enough => ?_⟩
    obtain ⟨full, fullRead, agrees, -⟩ := extended turns enough
    exact ⟨full, fullRead, agrees⟩
  withoutCoinset := fun _ _ => ⟨rfl, rfl⟩

end Reads

------------------------------------------------------------------------------------------
-- A block with one spend
------------------------------------------------------------------------------------------

/-- Read a tree that `sampleBytes` serialised, and what follows it. -/
def readNode : Nat → List UInt8 → Option (Sexp × List UInt8)
  | 0, _ => none
  | _ + 1, [] => none
  | fuel + 1, byte :: rest =>
      if byte ≤ 127 then some (.atom [byte], rest)
      else if byte = 255 then do
        let (left, rest) ← readNode fuel rest
        let (right, rest) ← readNode fuel rest
        return (.pair left right, rest)
      else some (.atom (rest.take (byte.toNat - 128)), rest.drop (byte.toNat - 128))

theorem readNode_sampleBytes {node : Sexp} {bytes : List UInt8}
    (written : ClvmCrates.sampleBytes node = .ok bytes) {fuel : Nat} (enough : bytes.length ≤ fuel)
    (rest : List UInt8)
    : readNode fuel (bytes ++ rest) = some (node, rest) := by
  induction node generalizing bytes fuel rest with
  | atom value =>
      unfold ClvmCrates.sampleBytes at written
      split at written
      · rename_i byte same
        cases same
        split at written
        · cases written
          cases fuel with
          | zero => cases enough
          | succ fuel => simp_all [readNode]
        · cases written
          cases fuel with
          | zero => cases enough
          | succ fuel => simp_all [readNode]
      · rename_i value' other same
        cases same
        split at written
        · rename_i short
          cases written
          cases fuel with
          | zero => cases enough
          | succ fuel =>
            have size : (UInt8.ofNat (128 + value.length)).toNat = 128 + value.length := by
              rw [UInt8.toNat_ofNat_of_lt']
              have : UInt8.size = 256 := rfl
              omega
            have tall : ¬ UInt8.ofNat (128 + value.length) ≤ 127 := by
              rw [UInt8.le_iff_toNat_le, size]
              change ¬ 128 + value.length ≤ 127
              omega
            have notPair : UInt8.ofNat (128 + value.length) ≠ 255 := by
              intro same
              have := congrArg UInt8.toNat same
              rw [size] at this
              simp at this
              omega
            rw [List.cons_append, readNode, if_neg tall, if_neg notPair, size]
            simp
        · cases written
      · rename_i same
        cases same
  | pair left right ihLeft ihRight =>
      obtain ⟨leftBytes, leftWritten, written⟩ := bind_eq_ok_iff.mp written
      obtain ⟨rightBytes, rightWritten, written⟩ := bind_eq_ok_iff.mp written
      cases written
      cases fuel with
      | zero => cases enough
      | succ fuel =>
          simp only [List.length_cons, List.length_append] at enough
          have leftRead : readNode fuel (leftBytes ++ (rightBytes ++ rest))
              = some (left, rightBytes ++ rest) :=
            ihLeft leftWritten (by omega) (rightBytes ++ rest)
          have rightRead : readNode fuel (rightBytes ++ rest) = some (right, rest) :=
            ihRight rightWritten (by omega) rest
          simp [readNode, leftRead, rightRead]

/-- Running a quoted value. -/
def sampleRunner : PuzzleRunner where
  nodeFromBytes bytes :=
    match readNode bytes.length bytes with
    | some (node, _) => .ok node
    | none => .error "bad encoding"
  runProgram
    | .pair (.atom [1]) output, _ => .ok output
    | _, _ => .error "unimplemented operator"

def sampleSpend : SpendConditions where
  parentId := List.replicate 32 7
  puzzleHash := List.replicate 32 9
  coinAmount := 5

/-- A puzzle that quotes the creation of a coin. -/
def samplePuzzle : Sexp :=
  .pair (.atom [1])
    (ListTree.ofList []
      [ListTree.ofList [] [.atom [51], .atom (List.replicate 32 8), .atom [5]]])

/-- The generator that quotes the spend. -/
def sampleProgram : Sexp :=
  .pair (.atom [1])
    (ListTree.ofList []
      [ListTree.ofList []
        [ListTree.ofList [] [.atom sampleSpend.parentId, samplePuzzle, .atom [5], .atom []]]])

def sampleBytesOf (node : Sexp) : List UInt8 :=
  match ClvmCrates.sampleBytes node with
  | .ok bytes => bytes
  | .error _ => []

/-- The puzzle and the solution that a generator's output lists for a coin. -/
def sampleNodes (generatorOutput : Sexp) (coin : ProtocolCoin)
    : Except String (Sexp × Sexp) :=
  match generatorOutput with
  | .pair spends _ =>
      let listed := spends.spine.findSome? (fun spend =>
        match spend.spine with
        | [.atom parentId, puzzle, .atom amount, solution] =>
            if bytes32Of parentId = some coin.parentCoinInfo ∧ bigEndian amount = coin.amount.toNat
            then some (puzzle, solution)
            else none
        | _ => none)
      match listed with
      | some nodes => .ok nodes
      | none => .error "not found"
  | .atom _ => .error "not a list"

def sampleReader : BlockReader where
  toValue _ := .ok .null
  clvm := ClvmCrates.sampleCrates
  runner := sampleRunner
  generator :=
    {
      additionsAndRemovals := fun _ => .error "not a list",
      runBlockGenerator2 := fun bytes =>
        if bytes = sampleBytesOf sampleProgram then .ok [sampleSpend] else .error "not a list",
      nodeFromBytesBackrefs := sampleRunner.nodeFromBytes,
      setupGeneratorArgs := .ok (.atom []),
      getPuzzleAndSolutionForCoin := sampleNodes
    }

theorem sampleReader_documented : sampleReader.Documented where
  clvm := ClvmCrates.sampleCrates_documented
  nodeFromBytes_nodeToBytes := by
    intro node bytes written
    have read := readNode_sampleBytes written (Nat.le_refl bytes.length) []
    rw [List.append_nil] at read
    simp only [sampleReader, sampleRunner, read]
  nodeFromBytes_nil := nofun
  hashes := by
    intro generator spends generated spend member
    simp only [sampleReader] at generated
    split at generated
    · cases generated
      rw [List.mem_singleton.mp member]
      exact ⟨rfl, rfl⟩
    · cases generated

def sampleBlock : FullBlock where
  foliageTransactionBlock := none
  transactionsInfo := none
  transactionsGenerator := some (sampleBytesOf sampleProgram)

def sampleWire : BlockWire sampleReader.blocks where
  requestBlockHeader _ _ := .rejected
  requestBlock _ _ := .answered sampleBlock

def silentCoinset : CoinsetClient :=
  .withTransport "https://api.coinset.org" (fun _ _ => .error (.coinsetHttp "unreachable"))
    (fun _ _ => "invalid type")

theorem getBlockSpendsWithConditions_extends_sample
    : sampleReader.Documented
      ∧ ExtendsSpends (.steady samplePool 0) sampleWire silentCoinset :=
  ⟨sampleReader_documented,
    getBlockSpendsWithConditions_extends sampleReader_documented (.steady samplePool 0) sampleWire
      silentCoinset⟩

/-- The one spend and its one condition. -/
example
    : ((sampleReader.blockSpendsWithConditions 9 sampleBlock).bind Except.toOption).map
        (fun items => items.map (·.conditions.length))
      = some [1] := by
  decide

end ChiaQuery
