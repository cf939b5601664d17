import ChiaQuery.Peer.PuzzleQuery

/-! What the backend asks one connection, and what it makes of the replies. Every read parses
its caller's text before it sends anything, and from then on depends on the peer alone.
-/

namespace ChiaQuery

open ChiaQuery.Library

/-- Why a request that cannot be rejected came to nothing. -/
inductive RequestFailure where
  | timedOut
  | failed (text : String)
  deriving DecidableEq, Repr

def RequestFailure.error : RequestFailure → ChiaQueryError
  | .timedOut => .peerConnection "request timed out"
  | .failed text => .peerConnection text

namespace Reply

variable {α : Type*}

/-- The response, where a rejection is a failure of the read. -/
def orError (timeout rejection : String) : Reply α → Except ChiaQueryError α
  | timedOut => .error (.peerConnection timeout)
  | failed text => .error (.peerConnection text)
  | rejected => .error (.peerRejection rejection)
  | answered response => .ok response

/-- The response, where a rejection is the peer's word that there is nothing. -/
def orAbsent : Reply α → Except ChiaQueryError (Option α)
  | timedOut => .error (.peerConnection "request timed out")
  | failed text => .error (.peerConnection text)
  | rejected => .ok none
  | answered response => .ok (some response)

theorem orError_eq_ok_iff {timeout rejection : String} {reply : Reply α} {response : α}
    : reply.orError timeout rejection = .ok response ↔ reply = answered response := by
  cases reply <;> simp [orError]

theorem orAbsent_eq_ok_iff {reply : Reply α} {found : Option α}
    : reply.orAbsent = .ok found
      ↔ reply = rejected ∧ found = none
        ∨ ∃ response, reply = answered response ∧ found = some response := by
  cases reply <;> simp [orAbsent, eq_comm]

end Reply

/-- `PuzzleSolutionResponse`, which names the coin and not the coin itself. -/
structure PuzzleSolution where
  coinName : Bytes32
  puzzle : List UInt8
  solution : List UInt8
  deriving DecidableEq, Repr

/-- `TransactionAck`. -/
structure TransactionAck where
  status : UInt8
  error : Option String
  deriving DecidableEq, Repr

/-- The crate's `SpendBundle`. -/
structure SpendBundle where
  coinSpends : List CoinSpend
  aggregatedSignature : String
  deriving DecidableEq, Repr

/-- `chia_protocol::CoinSpend`. -/
structure ProtocolCoinSpend where
  coin : ProtocolCoin
  puzzleReveal : List UInt8
  solution : List UInt8
  deriving DecidableEq, Repr

/-- `chia_protocol::SpendBundle`. -/
structure ProtocolSpendBundle (Signature : Type) where
  coinSpends : List ProtocolCoinSpend
  aggregatedSignature : Signature
  deriving DecidableEq, Repr

/-- The parts of the chia crates the backend computes with. -/
structure ChiaCrates where
  Signature : Type
  /-- `Signature::from_bytes`. -/
  signatureFromBytes : List UInt8 → Except String Signature
  /-- `tree_hash_from_bytes`. -/
  treeHashFromBytes : List UInt8 → Except String Bytes32

/-- What each request comes to on every connection, and the peak the pool knows of the peer. A
walk over a peer's pages is given by what it comes to.
-/
structure PeerWire (crates : ChiaCrates) where
  announcedPeak : Peer → Option UInt32
  requestCoinState : Peer → List Bytes32 → Reply (List CoinState)
  walkPuzzleState : Peer → List Bytes32 → Bool → Except ChiaQueryError (List CoinState × UInt32)
  requestPuzzleAndSolution : Peer → Bytes32 → UInt32 → Reply PuzzleSolution
  requestChildren : Peer → Bytes32 → Except RequestFailure (List CoinState)
  requestAdditions : Peer → UInt32 → Bytes32 → Reply (List (Bytes32 × List ProtocolCoin))
  requestRemovals : Peer → UInt32 → Bytes32 → Reply (List (Bytes32 × Option ProtocolCoin))
  sendTransaction :
    Peer → ProtocolSpendBundle crates.Signature → Except RequestFailure TransactionAck

/-- `hex_bytes`. -/
def hexBytes (bytes : List UInt8) : String :=
  "0x" ++ String.ofList (bytes.flatMap (fun byte => hexDigits 2 byte.toNat))

theorem stripHexPrefix_hexBytes (bytes : List UInt8)
    : stripHexPrefix (hexBytes bytes)
      = bytes.flatMap (fun byte => hexDigits 2 byte.toNat) := by
  simp [stripHexPrefix, hexBytes]

/-- Rendered bytes are parsed back to themselves. -/
theorem parseHex_hexBytes (bytes : List UInt8) : parseHex (hexBytes bytes) = .ok bytes := by
  rw [parseHex, stripHexPrefix_hexBytes, hexDecode_bytes]

/-- `MempoolInclusion`. -/
inductive MempoolInclusion where
  | admitted
  | notAdmitted
  | failed
  | unknown
  deriving DecidableEq, Repr

/-- `TxStatus`. -/
structure TxStatus where
  status : String
  success : Bool
  inclusion : MempoolInclusion
  error : Option String
  deriving DecidableEq, Repr

/-- `ack_to_tx_status`. -/
def ackToTxStatus (ack : TransactionAck) : TxStatus :=
  let (label, inclusion) : String × MempoolInclusion :=
    if ack.status = 1 then ("SUCCESS", .admitted)
    else if ack.status = 2 then ("PENDING", .notAdmitted)
    else if ack.status = 3 then ("FAILED", .failed)
    else ("UNKNOWN", .unknown)
  {
    status := label,
    success := inclusion = .admitted,
    inclusion,
    error := ack.error
  }

/-- `AdditionsAndRemovals`. -/
structure AdditionsAndRemovals where
  additions : List CoinRecord
  removals : List CoinRecord
  deriving DecidableEq, Repr

/-- `additions_removals_to_response`. -/
def additionsRemovalsToResponse (additions : List (Bytes32 × List ProtocolCoin))
    (removals : List (Bytes32 × Option ProtocolCoin)) (height : UInt32)
    : AdditionsAndRemovals where
  additions := additions.flatMap (fun (_, coins) => coins.map (fun coin =>
    {
      coin := Coin.fromProtocol coin,
      confirmedBlockIndex := height,
      spentBlockIndex := 0,
      spent := false,
      coinbase := false,
      timestamp := 0
    }))
  removals := removals.filterMap (fun (_, coin) => coin.map (fun coin =>
    {
      coin := Coin.fromProtocol coin,
      confirmedBlockIndex := 0,
      spentBlockIndex := height,
      spent := true,
      coinbase := false,
      timestamp := 0
    }))

namespace PeerBackend

variable {crates : ChiaCrates}

/-- `verify_reveal_against_puzzle_hash`. -/
def verifyRevealAgainstPuzzleHash (crates : ChiaCrates) (spend : CoinSpend)
    : Except ChiaQueryError Unit := do
  let expected ← parseHex spend.coin.puzzleHash
  let reveal ← parseHex spend.puzzleReveal
  match crates.treeHashFromBytes reveal with
  | .error failure => throw (.peerRejection s!"puzzle reveal is not valid CLVM: {failure}")
  | .ok actual =>
      if lastBytes 32 actual.toNat = expected then return ()
      else
        throw
          (.peerRejection
            (s!"puzzle reveal hashes to {hex32 actual} but coin {spend.coin.parentCoinInfo} "
              ++ s!"is locked with {spend.coin.puzzleHash}"))

/-- `to_protocol_spend_bundle`'s conversion of one spend. -/
def toProtocolCoinSpend (spend : CoinSpend) : Except ChiaQueryError ProtocolCoinSpend := do
  let parentCoinInfo ← parseBytes32 spend.coin.parentCoinInfo
  let puzzleHash ← parseBytes32 spend.coin.puzzleHash
  let puzzleReveal ← parseHex spend.puzzleReveal
  let solution ← parseHex spend.solution
  return {
    coin := { parentCoinInfo, puzzleHash, amount := spend.coin.amount },
    puzzleReveal,
    solution
  }

/-- `to_protocol_spend_bundle`. -/
def toProtocolSpendBundle (crates : ChiaCrates) (bundle : SpendBundle)
    : Except ChiaQueryError (ProtocolSpendBundle crates.Signature) := do
  let coinSpends ← bundle.coinSpends.mapM toProtocolCoinSpend
  let signature ← parseHex bundle.aggregatedSignature
  if signature.length ≠ 96 then throw (.invalidRequest "signature must be 96 bytes")
  match crates.signatureFromBytes signature with
  | .ok aggregatedSignature => return { coinSpends, aggregatedSignature }
  | .error failure => throw (.invalidRequest s!"bad BLS signature: {failure}")

/-- `do_get_coin_record_by_name`. -/
def doGetCoinRecordByName (wire : PeerWire crates) (peer : Peer) (name : String)
    : Except ChiaQueryError CoinRecord := do
  let coinId ← parseBytes32 name
  let states ← (wire.requestCoinState peer [coinId]).orError "request timed out"
    "coin state request rejected"
  match states.head? with
  | some state => return coinStateToRecord state
  | none => throw (.peerRejection "coin not found")

/-- `do_get_coin_record_by_name_opt`. -/
def doGetCoinRecordByNameOpt (wire : PeerWire crates) (peer : Peer) (name : String)
    : Except ChiaQueryError (Option CoinRecord) := do
  let coinId ← parseBytes32 name
  let states ← (wire.requestCoinState peer [coinId]).orError "request timed out"
    "coin state request rejected"
  return states.head?.map coinStateToRecord

/-- `do_get_puzzle_and_solution_raw`. -/
def doGetPuzzleAndSolutionRaw (wire : PeerWire crates) (peer : Peer) (coinId : String)
    (height : UInt32)
    : Except ChiaQueryError (Option CoinSpend) := do
  let id ← parseBytes32 coinId
  match ← (wire.requestPuzzleAndSolution peer id height).orAbsent with
  | none => return none
  | some response =>
      if response.coinName = id then
        return some {
          coin := Coin.fromProtocol
            { parentCoinInfo := response.coinName, puzzleHash := 0, amount := 0 },
          puzzleReveal := hexBytes response.puzzle,
          solution := hexBytes response.solution
        }
      else
        throw
          (.peerRejection
            (s!"peer answered about coin {hex32 response.coinName} when asked about "
              ++ coinId))

/-- The raw spend on the real coin, with its reveal checked against it. -/
def doGetSpendOf (wire : PeerWire crates) (peer : Peer) (coinId : String) (coin : ProtocolCoin)
    (height : UInt32)
    : Except ChiaQueryError (Option CoinSpend) := do
  match ← doGetPuzzleAndSolutionRaw wire peer coinId height with
  | none => return none
  | some raw =>
      let spend := { raw with coin := Coin.fromProtocol coin }
      verifyRevealAgainstPuzzleHash crates spend
      return some spend

/-- `do_get_coin_spend_opt`. -/
def doGetCoinSpendOpt (wire : PeerWire crates) (peer : Peer) (coinId : String)
    : Except ChiaQueryError (Option CoinSpend) := do
  let id ← parseBytes32 coinId
  let states ← (wire.requestCoinState peer [id]).orError "request timed out"
    "coin state rejected"
  match states.head? with
  | none => return none
  | some state =>
      match state.spentHeight with
      | none => return none
      | some spentHeight => doGetSpendOf wire peer coinId state.coin spentHeight

/-- `do_get_puzzle_and_solution_opt`. -/
def doGetPuzzleAndSolutionOpt (wire : PeerWire crates) (peer : Peer) (coinId : String)
    (height : UInt32)
    : Except ChiaQueryError (Option CoinSpend) := do
  let id ← parseBytes32 coinId
  let states ← (wire.requestCoinState peer [id]).orError "request timed out"
    "coin state rejected"
  match states.head? with
  | none => return none
  | some state => doGetSpendOf wire peer coinId state.coin height

/-- `do_puzzle_hash_query`, where its walk comes to an end. -/
def doPuzzleHashRead (wire : PeerWire crates) (peer : Peer) (hashes : List String)
    (includeHinted : Bool)
    : Except ChiaQueryError (HeightedSet CoinRecord) := do
  let puzzleHashes ← hashes.mapM parseBytes32
  supportedSet peer.socketAddr (wire.announcedPeak peer)
    (wire.walkPuzzleState peer puzzleHashes includeHinted)

/-- `do_coin_ids_query`. -/
def doCoinIdsQuery (wire : PeerWire crates) (peer : Peer) (names : List String)
    : Except ChiaQueryError (List CoinRecord) := do
  let ids ← names.mapM parseBytes32
  let states ← (wire.requestCoinState peer ids).orError "request timed out"
    "coin state request rejected"
  return coinStatesToRecords states

/-- `do_get_children`. -/
def doGetChildren (wire : PeerWire crates) (peer : Peer) (parentId : String)
    : Except ChiaQueryError (List CoinRecord) := do
  let coinName ← parseBytes32 parentId
  let states ← (wire.requestChildren peer coinName).mapError RequestFailure.error
  return coinStatesToRecords states

/-- `do_push_tx`. -/
def doPushTx (wire : PeerWire crates) (peer : Peer) (bundle : SpendBundle)
    : Except ChiaQueryError TxStatus := do
  let proto ← toProtocolSpendBundle crates bundle
  let ack ← (wire.sendTransaction peer proto).mapError RequestFailure.error
  return ackToTxStatus ack

/-- `do_get_additions_and_removals`. -/
def doGetAdditionsAndRemovals (wire : PeerWire crates) (peer : Peer) (height : UInt32)
    (headerHashHex : String)
    : Except ChiaQueryError AdditionsAndRemovals := do
  let headerHash ← parseBytes32 headerHashHex
  let additions ← (wire.requestAdditions peer height headerHash).orError
    "additions request timed out" "additions rejected"
  let removals ← (wire.requestRemovals peer height headerHash).orError
    "removals request timed out" "removals rejected"
  return additionsRemovalsToResponse additions removals height

/-- `peer_as_of`. -/
def peerAsOf (wire : PeerWire crates) (peer : Peer) : Except ChiaQueryError UInt32 :=
  match wire.announcedPeak peer with
  | some peak => .ok peak
  | none =>
      .error
        (.peerConnection "peer has announced no peak, so its answer cannot be held to a height")

/-- What a read without a height of its own found, as of the peer's announced peak. -/
def heightedAtPeak (wire : PeerWire crates) (peer : Peer)
    (read : Except ChiaQueryError (List CoinRecord))
    : Except ChiaQueryError (HeightedSet CoinRecord) := do
  let items ← read
  let asOfHeight ← peerAsOf wire peer
  return { items, asOfHeight }

/-- The puzzle-hash read is what the walk over the peer's pages comes to, page request after page
request.
-/
theorem doPuzzleHashRead_returns {wire : PeerWire crates} {peer : Peer} {hashes : List String}
    {includeHinted : Bool} {genesisChallenge : Bytes32} {replies : Nat → Reply PuzzleStatePage}
    (walks
      : ∀ puzzleHashes,
          hashes.mapM parseBytes32 = .ok puzzleHashes
          → Loop.Returns (Loop.after queryTurn replies (.start genesisChallenge))
              (wire.walkPuzzleState peer puzzleHashes includeHinted))
    : Loop.Returns
        (doPuzzleHashQuery genesisChallenge peer.socketAddr (wire.announcedPeak peer) hashes
          replies)
        (doPuzzleHashRead wire peer hashes includeHinted) := by
  cases parsed : hashes.mapM parseBytes32 with
  | error failure =>
      refine ⟨0, ?_⟩
      simp only [doPuzzleHashQuery, doPuzzleHashRead, parsed]
      rfl
  | ok puzzleHashes =>
      obtain ⟨requests, returned⟩ := walks puzzleHashes parsed
      refine ⟨requests, ?_⟩
      simp only [doPuzzleHashQuery, doPuzzleHashRead, parsed, returned]
      rfl

end PeerBackend

end ChiaQuery
