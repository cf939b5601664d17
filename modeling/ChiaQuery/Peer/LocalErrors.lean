import ChiaQuery.Peer.Frames
import ChiaQuery.Peer.Requests
import ChiaQuery.Peer.SetRead

/-! The read and write paths of the backend, and whom they eject. A path picks its peer before
it parses what its caller passed, and most take a parse failure for one of the peer's.
-/

namespace ChiaQuery

open ChiaQuery.Library

namespace PeerBackend

variable {crates : ChiaCrates}

/-- One attempt on a picked connection, which is ejected when the attempt fails. -/
def ejectOnFailure {β : Type*} (picked : Except ChiaQueryError (Peer × SocketAddr))
    (attempt : Peer → Except ChiaQueryError β)
    : Round β :=
  match picked with
  | .error failure => { result := .error failure, ejected := [] }
  | .ok (peer, address) =>
      match attempt peer with
      | .ok value => { result := .ok value, ejected := [] }
      | .error failure => { result := .error failure, ejected := [address] }

/-- The selection of `try_push_tx_excluding`. -/
def pickExcluding (views : PoolViews) (excluded : SocketAddr)
    : Except ChiaQueryError (Peer × SocketAddr) :=
  match PeerPool.selectPeerExcluding views.atPick views.nextIdx excluded with
  | some selected => .ok selected
  | none => .error (.peerConnection "no peer other than the one that refused is held")

/-- A picked peer is an entry of the pool. -/
theorem mem_of_pick {views : PoolViews} {peer : Peer} {address : SocketAddr}
    (picked : pick views = .ok (peer, address))
    : ∃ entry ∈ views.atPick, entry.peer = peer ∧ entry.address = address := by
  unfold pick at picked
  cases selected : PeerPool.selectPeer views.atPick views.nextIdx with
  | none =>
      rw [selected] at picked
      cases picked
  | some choice =>
      rw [selected] at picked
      cases picked
      exact PeerPool.exists_entry_of_selectPeer selected

section Paths

variable (views : PoolViews) (asked others : PeerWire crates)

/-- `try_get_coin_record_by_name`. -/
def tryGetCoinRecordByName (name : String) : Round CoinRecord :=
  ejectOnFailure (pick views) (fun peer => doGetCoinRecordByName asked peer name)

/-- `try_get_coin_record_by_name_opt`. -/
def tryGetCoinRecordByNameOpt (name : String) : Round (OptAnswer CoinRecord) :=
  readOptCorroborated views (fun peer => doGetCoinRecordByNameOpt asked peer name)
    (fun peer => doGetCoinRecordByNameOpt others peer name)

/-- `try_get_coin_spend_opt`. -/
def tryGetCoinSpendOpt (coinId : String) : Round (OptAnswer CoinSpend) :=
  readOptCorroborated views (fun peer => doGetCoinSpendOpt asked peer coinId)
    (fun peer => doGetCoinSpendOpt others peer coinId)

/-- `try_get_puzzle_and_solution`. -/
def tryGetPuzzleAndSolution (coinId : String) (height : UInt32)
    : Round (OptAnswer CoinSpend) :=
  readOptCorroborated views (fun peer => doGetPuzzleAndSolutionOpt asked peer coinId height)
    (fun peer => doGetPuzzleAndSolutionOpt others peer coinId height)

/-- `try_get_coin_records_by_puzzle_hashes`. -/
def tryGetCoinRecordsByPuzzleHashes (puzzleHashes : List String) (projection : SetProjection)
    : Round (SetAnswer CoinRecord) :=
  readSetCorroborated views (fun peer => doPuzzleHashRead asked peer puzzleHashes false)
    (fun peer => doPuzzleHashRead others peer puzzleHashes false) projection

/-- `try_get_coin_records_by_puzzle_hash`. -/
def tryGetCoinRecordsByPuzzleHash (puzzleHash : String) (projection : SetProjection)
    : Round (SetAnswer CoinRecord) :=
  tryGetCoinRecordsByPuzzleHashes views asked others [puzzleHash] projection

/-- `try_get_coin_records_by_hints`. -/
def tryGetCoinRecordsByHints (hints : List String) (projection : SetProjection)
    : Round (SetAnswer CoinRecord) :=
  readSetCorroborated views (fun peer => doPuzzleHashRead asked peer hints true)
    (fun peer => doPuzzleHashRead others peer hints true) projection

/-- `try_get_coin_records_by_hint`. -/
def tryGetCoinRecordsByHint (hint : String) (projection : SetProjection)
    : Round (SetAnswer CoinRecord) :=
  tryGetCoinRecordsByHints views asked others [hint] projection

/-- `try_get_coin_records_by_names`. -/
def tryGetCoinRecordsByNames (names : List String) (projection : SetProjection)
    : Round (SetAnswer CoinRecord) :=
  readSetCorroborated views
    (fun peer => heightedAtPeak asked peer (doCoinIdsQuery asked peer names))
    (fun peer => heightedAtPeak others peer (doCoinIdsQuery others peer names)) projection

/-- `try_get_children`. -/
def tryGetChildren (parentId : String) (projection : SetProjection)
    : Round (SetAnswer CoinRecord) :=
  readSetCorroborated views
    (fun peer => heightedAtPeak asked peer (doGetChildren asked peer parentId))
    (fun peer => heightedAtPeak others peer (doGetChildren others peer parentId)) projection

/-- `try_get_additions_and_removals`. -/
def tryGetAdditionsAndRemovals (height : UInt32) (headerHash : String)
    : Round AdditionsAndRemovals :=
  ejectOnFailure (pick views)
    (fun peer => doGetAdditionsAndRemovals asked peer height headerHash)

/-- `try_push_tx`. -/
def tryPushTx (bundle : SpendBundle) : Round TxStatus :=
  ejectOnFailure (pick views) (fun peer => doPushTx asked peer bundle)

/-- `try_push_tx_excluding`. -/
def tryPushTxExcluding (bundle : SpendBundle) (excluded : SocketAddr) : Round TxStatus :=
  ejectOnFailure (pickExcluding views excluded) (fun peer => doPushTx asked peer bundle)

/-- The first part of `try_get_puzzle_and_solution_auto`, which finds where the coin was spent. -/
def findSpend (wire : PeerWire crates) (peer : Peer) (coinId : String)
    : Except ChiaQueryError (ProtocolCoin × UInt32) := do
  let id ← parseBytes32 coinId
  let states ← (wire.requestCoinState peer [id]).orError "request timed out"
    "coin state rejected"
  match states.head? with
  | none => throw (.peerRejection "coin not found")
  | some state =>
      match state.spentHeight with
      | none => throw (.peerRejection "coin is not spent")
      | some spentHeight => return (state.coin, spentHeight)

/-- The second part of `try_get_puzzle_and_solution_auto`. -/
def fetchSpend (wire : PeerWire crates) (peer : Peer) (coinId : String) (coin : ProtocolCoin)
    (spentHeight : UInt32)
    : Except ChiaQueryError CoinSpend := do
  match ← doGetPuzzleAndSolutionRaw wire peer coinId spentHeight with
  | none => throw (.peerRejection "puzzle solution rejected")
  | some raw =>
      let spend := { raw with coin := Coin.fromProtocol coin }
      verifyRevealAgainstPuzzleHash crates spend
      return spend

/-- `try_get_puzzle_and_solution_auto`, which returns a failure of its first part as it is. -/
def tryGetPuzzleAndSolutionAuto (coinId : String) : Round CoinSpend :=
  match pick views with
  | .error failure => { result := .error failure, ejected := [] }
  | .ok (peer, address) =>
      match findSpend asked peer coinId with
      | .error failure => { result := .error failure, ejected := [] }
      | .ok (coin, spentHeight) =>
          ejectOnFailure (.ok (peer, address))
            (fun peer => fetchSpend asked peer coinId coin spentHeight)

end Paths

end PeerBackend

/-- The requests whose arguments the backend parses, one for each of its paths. -/
inductive PeerRequest where
  | coinRecordByName (name : String)
  | coinRecordByNameOpt (name : String)
  | coinSpendOpt (coinId : String)
  | puzzleAndSolution (coinId : String) (height : UInt32)
  | puzzleAndSolutionAuto (coinId : String)
  | puzzleHash (puzzleHash : String) (projection : SetProjection)
  | puzzleHashes (puzzleHashes : List String) (projection : SetProjection)
  | hint (hint : String) (projection : SetProjection)
  | hints (hints : List String) (projection : SetProjection)
  | names (names : List String) (projection : SetProjection)
  | children (parentId : String) (projection : SetProjection)
  | additionsAndRemovals (height : UInt32) (headerHash : String)
  | pushTx (bundle : SpendBundle)
  | pushTxExcluding (bundle : SpendBundle) (excluded : SocketAddr)
  deriving DecidableEq, Repr

namespace PeerRequest

variable {crates : ChiaCrates}

/-- What a request's path parses of its arguments, in its order. -/
def parse (crates : ChiaCrates) : PeerRequest → Except ChiaQueryError Unit
  | coinRecordByName name => (parseBytes32 name).map (fun _ => ())
  | coinRecordByNameOpt name => (parseBytes32 name).map (fun _ => ())
  | coinSpendOpt coinId => (parseBytes32 coinId).map (fun _ => ())
  | puzzleAndSolution coinId _ => (parseBytes32 coinId).map (fun _ => ())
  | puzzleAndSolutionAuto coinId => (parseBytes32 coinId).map (fun _ => ())
  | puzzleHash hash _ => ([hash].mapM parseBytes32).map (fun _ => ())
  | puzzleHashes hashes _ => (hashes.mapM parseBytes32).map (fun _ => ())
  | hint text _ => ([text].mapM parseBytes32).map (fun _ => ())
  | hints texts _ => (texts.mapM parseBytes32).map (fun _ => ())
  | names texts _ => (texts.mapM parseBytes32).map (fun _ => ())
  | children parentId _ => (parseBytes32 parentId).map (fun _ => ())
  | additionsAndRemovals _ headerHash => (parseBytes32 headerHash).map (fun _ => ())
  | pushTx bundle => (PeerBackend.toProtocolSpendBundle crates bundle).map (fun _ => ())
  | pushTxExcluding bundle _ =>
      (PeerBackend.toProtocolSpendBundle crates bundle).map (fun _ => ())

open PeerBackend in
/-- Whom the path of a request ejects. -/
def ejected (views : PoolViews) (asked others : PeerWire crates)
    : PeerRequest → List SocketAddr
  | coinRecordByName name => (tryGetCoinRecordByName views asked name).ejected
  | coinRecordByNameOpt name => (tryGetCoinRecordByNameOpt views asked others name).ejected
  | coinSpendOpt coinId => (tryGetCoinSpendOpt views asked others coinId).ejected
  | puzzleAndSolution coinId height =>
      (tryGetPuzzleAndSolution views asked others coinId height).ejected
  | puzzleAndSolutionAuto coinId => (tryGetPuzzleAndSolutionAuto views asked coinId).ejected
  | puzzleHash hash projection =>
      (tryGetCoinRecordsByPuzzleHash views asked others hash projection).ejected
  | puzzleHashes hashes projection =>
      (tryGetCoinRecordsByPuzzleHashes views asked others hashes projection).ejected
  | hint text projection =>
      (tryGetCoinRecordsByHint views asked others text projection).ejected
  | hints texts projection =>
      (tryGetCoinRecordsByHints views asked others texts projection).ejected
  | names texts projection =>
      (tryGetCoinRecordsByNames views asked others texts projection).ejected
  | children parentId projection =>
      (tryGetChildren views asked others parentId projection).ejected
  | additionsAndRemovals height headerHash =>
      (tryGetAdditionsAndRemovals views asked height headerHash).ejected
  | pushTx bundle => (tryPushTx views asked bundle).ejected
  | pushTxExcluding bundle excluded =>
      (tryPushTxExcluding views asked bundle excluded).ejected

/-- What the pool holds once the path of a request is through. -/
def poolAfter (entries : List PeerEntry) (nextIdx : UInt64) (asked others : PeerWire crates)
    (request : PeerRequest)
    : List PeerEntry :=
  (request.ejected (.steady entries nextIdx) asked others).foldl PeerPool.ejectPeer entries

/-- Which connection a request is picked. -/
def picked (views : PoolViews) : PeerRequest → Except ChiaQueryError (Peer × SocketAddr)
  | pushTxExcluding _ excluded => PeerBackend.pickExcluding views excluded
  | _ => PeerBackend.pick views

/-- The path that returns its parse failure before it looks at what its peer has done. -/
def parsesApart : PeerRequest → Bool
  | puzzleAndSolutionAuto _ => true
  | _ => false

/-- The peers of a pool that a request may be picked. -/
def eligible (entries : List PeerEntry) : PeerRequest → List PeerEntry
  | pushTxExcluding _ excluded => entries.filter (fun entry => entry.address ≠ excluded)
  | _ => entries

end PeerRequest

namespace PeerBackend

variable {crates : ChiaCrates} {views : PoolViews} {wire : PeerWire crates} {peer : Peer}
  {failure : ChiaQueryError}

/-- The address of a pick, if there was one. -/
def pickedAddress (picked : Except ChiaQueryError (Peer × SocketAddr)) : List SocketAddr :=
  (picked.toOption.map Prod.snd).toList

------------------------------------------------------------------------------------------
-- A path ejects the peer it picked for a read that fails on every peer
------------------------------------------------------------------------------------------

theorem ejectOnFailure_ejected {β : Type*}
    {picked : Except ChiaQueryError (Peer × SocketAddr)}
    {attempt : Peer → Except ChiaQueryError β}
    (fails : ∀ peer, attempt peer = .error failure)
    : (ejectOnFailure picked attempt).ejected = pickedAddress picked := by
  cases picked with
  | error nobody => rfl
  | ok selected =>
      simp only [ejectOnFailure, fails]
      rfl

theorem readOptCorroborated_ejected {α : Type*} [ChainClaim α]
    {readAsked readCorroborator : Peer → Except ChiaQueryError (Option α)}
    (fails : ∀ peer, readAsked peer = .error failure)
    : (readOptCorroborated views readAsked readCorroborator).ejected
      = pickedAddress (pick views) := by
  unfold readOptCorroborated
  cases pick views with
  | error nobody => rfl
  | ok selected =>
      simp only [fails]
      rfl

theorem readSetCorroborated_ejected {α : Type*} [SetMember α]
    {readAsked readCorroborator : Peer → Except ChiaQueryError (HeightedSet α)}
    {projection : SetProjection} (fails : ∀ peer, readAsked peer = .error failure)
    : (readSetCorroborated views readAsked readCorroborator projection).ejected
      = pickedAddress (pick views) := by
  unfold readSetCorroborated
  cases pick views with
  | error nobody => rfl
  | ok selected =>
      simp only [fails]
      rfl

/-- A computation fails where its first step does, whatever comes after. -/
theorem bind_of_error {ε α β : Type} {first : Except ε α} {failure : ε}
    (failed : first = .error failure) (rest : α → Except ε β)
    : (first >>= rest) = .error failure := by
  rw [failed]
  rfl

theorem error_of_map {ε α β : Type} {first : Except ε α} {compute : α → β} {failure : ε}
    (failed : first.map compute = .error failure)
    : first = .error failure := by
  cases first with
  | error earlier => simpa [Except.map] using failed
  | ok value => cases failed

/-- Nobody is picked from an empty pool only. -/
theorem selectPeer_eq_none_iff {entries : List PeerEntry} {nextIdx : UInt64}
    : PeerPool.selectPeer entries nextIdx = none ↔ entries = [] := by
  rw [PeerPool.selectPeer, Option.map_eq_none_iff, List.getElem?_eq_none_iff]
  constructor
  · intro beyond
    by_contra nonempty
    have positive := List.length_pos_iff.mpr nonempty
    have inside := Nat.mod_lt nextIdx.toNat positive
    omega
  · rintro rfl
    exact Nat.zero_le _

theorem pick_toOption (views : PoolViews)
    : (pick views).toOption = PeerPool.selectPeer views.atPick views.nextIdx := by
  unfold pick
  cases PeerPool.selectPeer views.atPick views.nextIdx <;> rfl

theorem pickExcluding_toOption (views : PoolViews) (excluded : SocketAddr)
    : (pickExcluding views excluded).toOption
      = PeerPool.selectPeerExcluding views.atPick views.nextIdx excluded := by
  unfold pickExcluding
  cases PeerPool.selectPeerExcluding views.atPick views.nextIdx excluded <;> rfl

end PeerBackend

namespace PeerRequest

open PeerBackend

variable {crates : ChiaCrates} {views : PoolViews} {asked others : PeerWire crates}
  {request : PeerRequest} {failure : ChiaQueryError}

/-- A request that does not parse has the peer it picked ejected, on every path but one. The
cases are the paths: each of them parses first in the read it hands its connection to.
-/
theorem ejected_of_unparsed (unparsed : request.parse crates = .error failure)
    : request.ejected views asked others
      = if request.parsesApart then [] else pickedAddress (request.picked views) := by
  cases request with
  | coinRecordByName name =>
      exact ejectOnFailure_ejected (fun _ => bind_of_error (error_of_map unparsed) _)
  | coinRecordByNameOpt name =>
      exact readOptCorroborated_ejected (fun _ => bind_of_error (error_of_map unparsed) _)
  | coinSpendOpt coinId =>
      exact readOptCorroborated_ejected (fun _ => bind_of_error (error_of_map unparsed) _)
  | puzzleAndSolution coinId height =>
      exact readOptCorroborated_ejected (fun _ => bind_of_error (error_of_map unparsed) _)
  | puzzleAndSolutionAuto coinId =>
      have apart : ∀ peer, findSpend asked peer coinId = .error failure :=
        fun _ => bind_of_error (error_of_map unparsed) _
      simp only [ejected, tryGetPuzzleAndSolutionAuto, parsesApart, if_true]
      cases pick views with
      | error nobody => rfl
      | ok selected => simp only [apart]
  | puzzleHash hash projection =>
      exact readSetCorroborated_ejected (fun _ => bind_of_error (error_of_map unparsed) _)
  | puzzleHashes hashes projection =>
      exact readSetCorroborated_ejected (fun _ => bind_of_error (error_of_map unparsed) _)
  | hint text projection =>
      exact readSetCorroborated_ejected (fun _ => bind_of_error (error_of_map unparsed) _)
  | hints texts projection =>
      exact readSetCorroborated_ejected (fun _ => bind_of_error (error_of_map unparsed) _)
  | names texts projection =>
      exact readSetCorroborated_ejected
        (fun _ => bind_of_error (bind_of_error (error_of_map unparsed) _) _)
  | children parentId projection =>
      exact readSetCorroborated_ejected
        (fun _ => bind_of_error (bind_of_error (error_of_map unparsed) _) _)
  | additionsAndRemovals height headerHash =>
      exact ejectOnFailure_ejected (fun _ => bind_of_error (error_of_map unparsed) _)
  | pushTx bundle =>
      exact ejectOnFailure_ejected (fun _ => bind_of_error (error_of_map unparsed) _)
  | pushTxExcluding bundle excluded =>
      exact ejectOnFailure_ejected (fun _ => bind_of_error (error_of_map unparsed) _)

/-- A request's pick is a selection from the peers it may be picked. -/
theorem picked_toOption (entries : List PeerEntry) (nextIdx : UInt64) (request : PeerRequest)
    : (request.picked (.steady entries nextIdx)).toOption
      = PeerPool.selectPeer (request.eligible entries) nextIdx := by
  cases request
  case pushTxExcluding bundle excluded => exact pickExcluding_toOption _ excluded
  all_goals exact pick_toOption _

theorem eligible_subset (entries : List PeerEntry) (request : PeerRequest)
    : request.eligible entries ⊆ entries := by
  cases request
  case pushTxExcluding bundle excluded => exact List.filter_subset_self _
  all_goals exact List.Subset.refl _

/-- Ejecting a held address changes the pool. -/
theorem ejectPeer_ne {entries : List PeerEntry} {entry : PeerEntry} (held : entry ∈ entries)
    : PeerPool.ejectPeer entries entry.address ≠ entries := by
  intro same
  rw [← same] at held
  have other := (List.mem_filter.mp held).2
  simp at other

/-- A request that does not parse leaves the pool as it is on the path that parses apart, and
where there is nobody to pick; otherwise the picked peer is gone.
-/
theorem unparsed_keeps_pool_iff (asked others : PeerWire crates) (entries : List PeerEntry)
    (nextIdx : UInt64) (unparsed : request.parse crates = .error failure)
    : request.poolAfter entries nextIdx asked others = entries
      ↔ request.parsesApart = true ∨ request.eligible entries = [] := by
  rw [poolAfter, ejected_of_unparsed unparsed]
  cases apart : request.parsesApart with
  | true => simp
  | false =>
      simp only [pickedAddress, picked_toOption]
      cases selected : PeerPool.selectPeer (request.eligible entries) nextIdx with
      | none => simp [selectPeer_eq_none_iff.mp selected]
      | some choice =>
          obtain ⟨entry, eligible, -, held⟩ := PeerPool.exists_entry_of_selectPeer selected
          have somebody : request.eligible entries ≠ [] := List.ne_nil_of_mem eligible
          have changed := ejectPeer_ne (request.eligible_subset entries eligible)
          rw [held] at changed
          simpa [somebody] using changed

/-- Crates that accept every signature and puzzle. -/
def sampleCrates : ChiaCrates where
  Signature := Unit
  signatureFromBytes _ := .ok ()
  treeHashFromBytes _ := .ok 0

/-- Connections on which every request times out. -/
def silentWire : PeerWire sampleCrates where
  announcedPeak _ := none
  requestCoinState _ _ := .timedOut
  walkPuzzleState _ _ _ := .error (.peerConnection "request timed out")
  requestPuzzleAndSolution _ _ _ := .timedOut
  requestChildren _ _ := .error .timedOut
  requestAdditions _ _ _ := .timedOut
  requestRemovals _ _ _ := .timedOut
  sendTransaction _ _ := .error .timedOut

theorem unparsed_keeps_pool_sample
    : (puzzleAndSolutionAuto "").poolAfter samplePool 0 silentWire silentWire = samplePool :=
  (unparsed_keeps_pool_iff silentWire silentWire samplePool 0 rfl).mpr (Or.inl rfl)

/-- A name that is no hash has a peer ejected that was never asked anything. -/
theorem unparsed_name_ejects
    : ¬ ∀ (asked others : PeerWire sampleCrates) (entries : List PeerEntry) (nextIdx : UInt64)
        (request : PeerRequest) (failure : ChiaQueryError),
        request.parse sampleCrates = .error failure
        → request.poolAfter entries nextIdx asked others = entries := by
  intro claim
  have unparsed : (coinRecordByName "").parse sampleCrates
      = .error (.invalidRequest "expected 32 bytes") := rfl
  have kept := claim silentWire silentWire samplePool 0 _ _ unparsed
  rw [poolAfter, ejected_of_unparsed unparsed] at kept
  exact absurd kept (by decide)

end PeerRequest

end ChiaQuery
