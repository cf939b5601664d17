import ChiaQuery.LightClient.CacheReads
import ChiaQuery.LightClient.PagedWalks
import ChiaQuery.Peer.Requests
import ChiaQuery.Registry.Views

/-! The light client's provider: what its reads make of the cache, of a peer's replies and of the
peak. Every failure is an error of the read, never an absence.
-/

namespace ChiaQuery.LightClient

open ChiaQuery.Library ChiaQuery.Registry

/-- Lower-case the ASCII letters of a text. -/
def toAsciiLowercase (text : String) : List Char :=
  text.toList.map (fun letter =>
    if 'A' ≤ letter ∧ letter ≤ 'Z' then Char.ofNat (letter.toNat + 32) else letter)

/-- `LightClientError::looks_like_timeout`. -/
def looksLikeTimeout (message : String) : Bool :=
  "timed out".toList <:+: toAsciiLowercase message
    ∨ "timeout".toList <:+: toAsciiLowercase message

/-- `From<LightClientError> for ChainSourceError`. -/
def LightClientError.toChainSource : LightClientError → ChainSourceError
  | .timeout => .timeout
  | .transport text => if looksLikeTimeout text then .timeout else .transport text
  | .rejected text => .transport text
  | .malformed text => .malformed text
  | .peerDiscoveryFailed => .transport "peer discovery failed"
  | .notConnected => .transport "light client is not connected"

/-- What becomes of a future that a synchronous read blocks on. -/
inductive Blocking (α : Type*) where
  | ran (output : α)
  | currentThread
  | panicked
  deriving DecidableEq, Repr

/-- `run_blocking`. -/
def runBlocking {α : Type*} : Blocking α → Except ChainSourceError α
  | .ran output => .ok output
  | .currentThread =>
      .error
        (.transport
          ("chia-query ChainSource facade requires a multi-thread tokio runtime; it was invoked "
            ++ "from a current-thread runtime. Build the provider on a multi-thread runtime, or "
            ++ "wrap the call in tokio::task::spawn_blocking (see SPEC §7)."))
  | .panicked =>
      .error
        (.transport
          "chia-query ChainSource facade caught a panic while blocking on the async runtime")

/-- A read of the fetcher that a synchronous read blocks on. -/
def runFetch {α : Type*} (fetched : Blocking (Except LightClientError α))
    : Except ChainSourceError α := do
  let result ← runBlocking fetched
  result.mapError LightClientError.toChainSource

namespace PooledFetcher

/-- What a request comes to, where a rejection is a failure of the read. -/
def orError {α : Type*} (rejection : String) : Reply α → Except LightClientError α
  | .timedOut => .error .timeout
  | .failed text => .error (.transport text)
  | .rejected => .error (.rejected rejection)
  | .answered response => .ok response

/-- `coin_states`, on the session it drew. -/
def coinStates (session : Except LightClientError Peer)
    (requestCoinState : Peer → List Bytes32 → Reply (List CoinState)) (ids : List Bytes32)
    : Except LightClientError (List CoinState) := do
  let peer ← session
  orError "coin-state request rejected" (requestCoinState peer ids)

/-- `puzzle_and_solution`, on the session it drew. -/
def puzzleAndSolution (session : Except LightClientError Peer)
    (requestPuzzleAndSolution : Peer → Bytes32 → UInt32 → Reply PuzzleSolution) (id : Bytes32)
    (height : UInt32)
    : Except LightClientError (List UInt8 × List UInt8) := do
  let peer ← session
  let response ←
    orError "peer rejected puzzle/solution for a known-spent coin"
      (requestPuzzleAndSolution peer id height)
  return (response.puzzle, response.solution)

/-- `puzzle_states`, on the one session it drew, after a number of its page requests. -/
def puzzleStates (session : Except LightClientError Peer) (genesisChallenge : Bytes32)
    (requestPuzzleState : Peer → Nat → Reply PuzzleStatePage) (requests : Nat)
    : Loop PuzzleWalk (Except LightClientError (List CoinState)) :=
  match session with
  | .error failure => .returned (.error failure)
  | .ok peer => collectPaged genesisChallenge (requestPuzzleState peer) requests

end PooledFetcher

/-- `clamp_record_heights_to_peak`. -/
def clampRecordHeightsToPeak (record : IfaceCoinRecord) : Option UInt32 → IfaceCoinRecord
  | none => record
  | some peak =>
      { record with
        confirmedHeight := record.confirmedHeight.map (fun confirmed => min confirmed peak),
        spentHeight := record.spentHeight.map (fun spent => min spent peak) }

/-- `verify_reveal_matches`. -/
def verifyRevealMatches (crates : ChiaCrates) (puzzle : List UInt8) (expected : Bytes32)
    : Except ChainSourceError Unit :=
  match crates.treeHashFromBytes puzzle with
  | .error failure => .error (.malformed s!"undecodable puzzle reveal: {failure}")
  | .ok actual =>
      if actual ≠ expected then
        .error (.malformed "puzzle reveal does not hash to the coin's puzzle hash")
      else .ok ()

namespace LightClientProvider

/-- `peak_height`, from the cache's peak. -/
def peakHeight (peak : Blocking (Option (UInt32 × Bytes32)))
    : Except ChainSourceError (Option UInt32) := do
  let peak ← runBlocking peak
  return peak.map (fun known => known.1)

variable (fromCoinState : CoinState → IfaceCoinRecord)

/-- A coin state as it is reported, held to the peak that was read. -/
def reported (peak : Option UInt32) (state : CoinState) : IfaceCoinRecord :=
  clampRecordHeightsToPeak (fromCoinState state) peak

/-- `coin_record`, which reads the peak first. `found` is what `coin_state` blocks on. -/
def coinRecord (peak : Blocking (Option (UInt32 × Bytes32)))
    (found : Blocking (Except LightClientError (Option CoinState)))
    : Except ChainSourceError (Option IfaceCoinRecord) := do
  let peak ← peakHeight peak
  let state ← runFetch found
  return state.map (reported fromCoinState peak)

/-- The reads of lists, which read the peak last. -/
def coinRecords (fetched : Blocking (Except LightClientError (List CoinState)))
    (peak : Blocking (Option (UInt32 × Bytes32)))
    : Except ChainSourceError (List IfaceCoinRecord) := do
  let states ← runFetch fetched
  let peak ← peakHeight peak
  return states.map (reported fromCoinState peak)

/-- `coin_records_by_puzzle_hash`, where `fetched` is what `puzzle_states` comes to. -/
def coinRecordsByPuzzleHash (fetched : Blocking (Except LightClientError (List CoinState)))
    (peak : Blocking (Option (UInt32 × Bytes32)))
    : Except ChainSourceError (List IfaceCoinRecord) :=
  coinRecords fromCoinState fetched peak

/-- `coin_records_by_parent`, where `fetched` is what `children` comes to. -/
def coinRecordsByParent (fetched : Blocking (Except LightClientError (List CoinState)))
    (peak : Blocking (Option (UInt32 × Bytes32)))
    : Except ChainSourceError (List IfaceCoinRecord) :=
  coinRecords fromCoinState fetched peak

/-- `coin_spend`. `found` is what `coin_state` blocks on, `reveal` what `puzzle_and_solution` comes
to at a height.
-/
def coinSpend (crates : ChiaCrates)
    (found : Blocking (Except LightClientError (Option CoinState)))
    (reveal : UInt32 → Blocking (Except LightClientError (List UInt8 × List UInt8)))
    : Except ChainSourceError (Option Registry.ProtocolCoinSpend) := do
  match ← runFetch found with
  | none => return none
  | some state =>
      match state.spentHeight with
      | none => return none
      | some spentHeight =>
          let (puzzle, solution) ← runFetch (reveal spentHeight)
          verifyRevealMatches crates puzzle state.coin.puzzleHash
          return some { coin := state.coin, puzzleReveal := puzzle, solution }

end LightClientProvider

end ChiaQuery.LightClient
