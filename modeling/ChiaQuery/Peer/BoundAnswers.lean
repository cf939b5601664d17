import ChiaQuery.LightClient.Cache
import ChiaQuery.Peer.LocalErrors

/-! Which coin the backend's reads of a single coin answer about. Each goes by the first coin
state of a reply, and only the reveal of a spend is held to the coin in it.
-/

namespace ChiaQuery

namespace PeerBackend

variable {crates : ChiaCrates}

/-- The first coin state that a peer answers a name with. -/
structure FirstState (wire : PeerWire crates) (peer : Peer) (name : String) (id : Bytes32)
    (state : CoinState)
    : Prop where
  parsed : parseBytes32 name = .ok id
  answered : ∃ later, wire.requestCoinState peer [id] = .answered (state :: later)

/-- A peer reveals the puzzle of a coin when asked for a spend at a height. -/
structure Reveals (wire : PeerWire crates) (peer : Peer) (id : Bytes32) (height : UInt32)
    (coin : ProtocolCoin) (response : PuzzleSolution)
    : Prop where
  answered : wire.requestPuzzleAndSolution peer id height = .answered response
  named : response.coinName = id
  hashes : crates.treeHashFromBytes response.puzzle = .ok coin.puzzleHash

/-- The spend of a coin with what a peer revealed. -/
def spendOf (coin : ProtocolCoin) (response : PuzzleSolution) : CoinSpend where
  coin := Coin.fromProtocol coin
  puzzleReveal := hexBytes response.puzzle
  solution := hexBytes response.solution

/-- The coin that a name asks for. -/
def IsAskedFor (coinId : ProtocolCoin → Bytes32) (name : String) (coin : Coin) : Prop :=
  ∃ asked, Coin.fromProtocol asked = coin ∧ parseBytes32 name = .ok (coinId asked)

/-- The puzzle reveal of a spend hashes to the puzzle hash of its coin. -/
def RevealMatches (crates : ChiaCrates) (spend : CoinSpend) : Prop :=
  ∃ reveal hash,
    parseHex spend.puzzleReveal = .ok reveal ∧ crates.treeHashFromBytes reveal = .ok hash
    ∧ spend.coin.puzzleHash = hex32 hash

/-- The reads of the backend that answer about one coin. -/
inductive CoinRead where
  | coinRecordByName
  | coinSpend
  | puzzleAndSolution (height : UInt32)
  deriving DecidableEq, Repr

/-- Whatever a read returns is about the coin that was asked for, and carries its puzzle. -/
def CoinRead.IsBound (coinId : ProtocolCoin → Bytes32) (wire : PeerWire crates) (peer : Peer)
    (name : String)
    : CoinRead → Prop
  | coinRecordByName =>
      ∀ record,
        doGetCoinRecordByNameOpt wire peer name = .ok (some record)
        → IsAskedFor coinId name record.coin
  | coinSpend =>
      ∀ spend,
        doGetCoinSpendOpt wire peer name = .ok (some spend)
        → IsAskedFor coinId name spend.coin ∧ RevealMatches crates spend
  | puzzleAndSolution height =>
      ∀ spend,
        doGetPuzzleAndSolutionOpt wire peer name height = .ok (some spend)
        → IsAskedFor coinId name spend.coin ∧ RevealMatches crates spend

/-- The replies that a read returns something on, besides a first coin state. -/
def CoinRead.GoesBy (wire : PeerWire crates) (peer : Peer) (id : Bytes32) (state : CoinState)
    : CoinRead → Prop
  | coinRecordByName => True
  | coinSpend =>
      ∃ height response,
        state.spentHeight = some height ∧ Reveals wire peer id height state.coin response
  | puzzleAndSolution height => ∃ response, Reveals wire peer id height state.coin response

/-- Every first coin state that a read goes by is of the coin that was asked for. -/
def CoinRead.IsSentAskedCoin (coinId : ProtocolCoin → Bytes32) (wire : PeerWire crates)
    (peer : Peer) (name : String) (read : CoinRead)
    : Prop :=
  ∀ id state,
    FirstState wire peer name id state → read.GoesBy wire peer id state
    → coinId state.coin = id

section Reads

variable {wire : PeerWire crates} {peer : Peer} {name : String} {id : Bytes32}
  {height : UInt32} {coin : ProtocolCoin} {spend : CoinSpend}

------------------------------------------------------------------------------------------
-- What the reads return
------------------------------------------------------------------------------------------

/-- A reveal is accepted exactly when it hashes to the puzzle hash of the coin. -/
theorem verifyReveal_eq_ok_iff {response : PuzzleSolution}
    : verifyRevealAgainstPuzzleHash crates (spendOf coin response) = .ok ()
      ↔ crates.treeHashFromBytes response.puzzle = .ok coin.puzzleHash := by
  have expected
      : parseHex (spendOf coin response).coin.puzzleHash
        = .ok (lastBytes 32 coin.puzzleHash.toNat) :=
    parseHex_hex32 coin.puzzleHash
  have reveal : parseHex (spendOf coin response).puzzleReveal = .ok response.puzzle :=
    parseHex_hexBytes response.puzzle
  unfold verifyRevealAgainstPuzzleHash
  rw [expected, reveal]
  cases hashed : crates.treeHashFromBytes response.puzzle with
  | error failure =>
      simp only [bind, Except.bind, hashed]
      simp [throw, throwThe, MonadExceptOf.throw]
  | ok actual =>
      simp only [bind, Except.bind, hashed]
      by_cases same : lastBytes 32 actual.toNat = lastBytes 32 coin.puzzleHash.toNat
      · simp only [lastBytes_injective same, if_true, pure, Except.pure]
      · have differ : actual ≠ coin.puzzleHash := fun equal => same (equal ▸ rfl)
        simp [if_neg same, differ, throw, throwThe, MonadExceptOf.throw]

/-- What the name-only spend of a peer's reply holds. -/
theorem doGetPuzzleAndSolutionRaw_eq_some_iff {raw : CoinSpend}
    : doGetPuzzleAndSolutionRaw wire peer name height = .ok (some raw)
      ↔ ∃ id response,
          parseBytes32 name = .ok id
          ∧ wire.requestPuzzleAndSolution peer id height = .answered response
          ∧ response.coinName = id
          ∧ raw
            = spendOf { parentCoinInfo := response.coinName, puzzleHash := 0, amount := 0 }
                response := by
  simp only [doGetPuzzleAndSolutionRaw, bind, bind_eq_ok_iff, Reply.orAbsent_eq_ok_iff]
  constructor
  · intro h
    obtain ⟨id, parsed, found, replied, made⟩ := h
    rcases replied with ⟨-, rfl⟩ | ⟨response, answered, rfl⟩
    · cases made
    · simp only at made
      split at made
      · rename_i named
        cases made
        exact ⟨id, response, parsed, answered, named, rfl⟩
      · cases made
  · intro h
    obtain ⟨id, response, parsed, answered, named, rfl⟩ := h
    refine ⟨id, parsed, some response, Or.inr ⟨response, answered, rfl⟩, ?_⟩
    simp only [named, if_true]
    rfl

/-- A spend is served exactly when the peer reveals the coin's puzzle. -/
theorem doGetSpendOf_eq_some_iff
    : doGetSpendOf wire peer name coin height = .ok (some spend)
      ↔ ∃ id response,
          parseBytes32 name = .ok id ∧ Reveals wire peer id height coin response
          ∧ spend = spendOf coin response := by
  simp only [doGetSpendOf, bind, bind_eq_ok_iff]
  constructor
  · intro h
    obtain ⟨found, served, made⟩ := h
    cases found with
    | none => cases made
    | some raw =>
        obtain ⟨id, response, parsed, answered, named, rfl⟩ :=
          doGetPuzzleAndSolutionRaw_eq_some_iff.mp served
        obtain ⟨⟨⟩, verified, kept⟩ := bind_eq_ok_iff.mp made
        cases kept
        exact ⟨id, response, parsed, ⟨answered, named, verifyReveal_eq_ok_iff.mp verified⟩, rfl⟩
  · intro h
    obtain ⟨id, response, parsed, reveals, rfl⟩ := h
    refine ⟨_, doGetPuzzleAndSolutionRaw_eq_some_iff.mpr
      ⟨id, response, parsed, reveals.answered, reveals.named, rfl⟩, ?_⟩
    exact bind_eq_ok_iff.mpr ⟨(), verifyReveal_eq_ok_iff.mpr reveals.hashes, rfl⟩

theorem doGetCoinRecordByNameOpt_eq_some_iff {record : CoinRecord}
    : doGetCoinRecordByNameOpt wire peer name = .ok (some record)
      ↔ ∃ id state, FirstState wire peer name id state ∧ record = coinStateToRecord state := by
  simp only [doGetCoinRecordByNameOpt, bind, bind_eq_ok_iff, Reply.orError_eq_ok_iff]
  constructor
  · intro h
    obtain ⟨id, parsed, states, answered, made⟩ := h
    cases states with
    | nil => cases made
    | cons state later =>
        cases made
        exact ⟨id, state, ⟨parsed, later, answered⟩, rfl⟩
  · intro h
    obtain ⟨id, state, ⟨parsed, later, answered⟩, rfl⟩ := h
    exact ⟨id, parsed, state :: later, answered, rfl⟩

/-- The start of both spend reads: what comes of the first coin state, if there is one. -/
def ofFirstState (wire : PeerWire crates) (peer : Peer) (name : String)
    (serve : CoinState → Except ChiaQueryError (Option CoinSpend))
    : Except ChiaQueryError (Option CoinSpend) := do
  let id ← parseBytes32 name
  let states ← (wire.requestCoinState peer [id]).orError "request timed out"
    "coin state rejected"
  match states.head? with
  | none => return none
  | some state => serve state

theorem ofFirstState_eq_some_iff
    {serve : CoinState → Except ChiaQueryError (Option CoinSpend)}
    : ofFirstState wire peer name serve = .ok (some spend)
      ↔ ∃ id state, FirstState wire peer name id state ∧ serve state = .ok (some spend) := by
  simp only [ofFirstState, bind, bind_eq_ok_iff, Reply.orError_eq_ok_iff]
  constructor
  · intro h
    obtain ⟨id, parsed, states, answered, served⟩ := h
    cases states with
    | nil => cases served
    | cons state later => exact ⟨id, state, ⟨parsed, later, answered⟩, served⟩
  · intro h
    obtain ⟨id, state, ⟨parsed, later, answered⟩, served⟩ := h
    exact ⟨id, parsed, state :: later, answered, served⟩

/-- The spend read goes by the height that the first coin state was spent at. -/
theorem doGetCoinSpendOpt_eq_some_iff
    : doGetCoinSpendOpt wire peer name = .ok (some spend)
      ↔ ∃ id state height response,
          FirstState wire peer name id state ∧ state.spentHeight = some height
          ∧ Reveals wire peer id height state.coin response
          ∧ spend = spendOf state.coin response := by
  refine ofFirstState_eq_some_iff.trans ?_
  constructor
  · intro h
    obtain ⟨id, state, first, served⟩ := h
    split at served
    · cases served
    · rename_i height spent
      obtain ⟨other, response, parsed, reveals, rfl⟩ := doGetSpendOf_eq_some_iff.mp served
      cases first.parsed.symm.trans parsed
      exact ⟨id, state, height, response, first, spent, reveals, rfl⟩
  · intro h
    obtain ⟨id, state, height, response, first, spent, reveals, rfl⟩ := h
    refine ⟨id, state, first, ?_⟩
    simp only [spent]
    exact doGetSpendOf_eq_some_iff.mpr ⟨id, response, first.parsed, reveals, rfl⟩

/-- The puzzle-and-solution read goes by the height that it was asked for. -/
theorem doGetPuzzleAndSolutionOpt_eq_some_iff
    : doGetPuzzleAndSolutionOpt wire peer name height = .ok (some spend)
      ↔ ∃ id state response,
          FirstState wire peer name id state ∧ Reveals wire peer id height state.coin response
          ∧ spend = spendOf state.coin response := by
  refine ofFirstState_eq_some_iff.trans ?_
  constructor
  · intro h
    obtain ⟨id, state, first, served⟩ := h
    obtain ⟨other, response, parsed, reveals, rfl⟩ := doGetSpendOf_eq_some_iff.mp served
    cases first.parsed.symm.trans parsed
    exact ⟨id, state, response, first, reveals, rfl⟩
  · intro h
    obtain ⟨id, state, response, first, reveals, rfl⟩ := h
    exact ⟨id, state, first,
      doGetSpendOf_eq_some_iff.mpr ⟨id, response, first.parsed, reveals, rfl⟩⟩

------------------------------------------------------------------------------------------
-- Whose coin they are about
------------------------------------------------------------------------------------------

variable {coinId : ProtocolCoin → Bytes32} {state : CoinState}

/-- The coin of a first state is the one asked for exactly when its id is. -/
theorem isAskedFor_iff (first : FirstState wire peer name id state)
    : IsAskedFor coinId name (Coin.fromProtocol state.coin) ↔ coinId state.coin = id := by
  constructor
  · intro h
    obtain ⟨asked, same, parsed⟩ := h
    rw [Coin.fromProtocol_injective same, first.parsed] at parsed
    exact (Except.ok.inj parsed).symm
  · intro same
    exact ⟨state.coin, rfl, same ▸ first.parsed⟩

/-- The reveal of every spend that is returned matches its coin. -/
theorem Reveals.matches {response : PuzzleSolution}
    (h : Reveals wire peer id height coin response)
    : RevealMatches crates (spendOf coin response) :=
  ⟨response.puzzle, coin.puzzleHash, parseHex_hexBytes _, h.hashes, rfl⟩

/-- Over every reply of a peer, a read returns only answers about the coin that was asked for
exactly when every first coin state that it goes by is of that coin.
-/
theorem read_isBound_iff (crates : ChiaCrates) (coinId : ProtocolCoin → Bytes32)
    (wire : PeerWire crates) (peer : Peer) (name : String) (read : CoinRead)
    : read.IsBound coinId wire peer name ↔ read.IsSentAskedCoin coinId wire peer name := by
  cases read with
  | coinRecordByName =>
      constructor
      · intro bound id state first _
        have about :=
          bound _ (doGetCoinRecordByNameOpt_eq_some_iff.mpr ⟨id, state, first, rfl⟩)
        exact (isAskedFor_iff first).mp about
      · intro asked record returned
        obtain ⟨id, state, first, rfl⟩ := doGetCoinRecordByNameOpt_eq_some_iff.mp returned
        exact (isAskedFor_iff first).mpr (asked id state first trivial)
  | coinSpend =>
      constructor
      · intro bound id state first goesBy
        obtain ⟨height, response, spent, reveals⟩ := goesBy
        have about :=
          bound _ (doGetCoinSpendOpt_eq_some_iff.mpr
            ⟨id, state, height, response, first, spent, reveals, rfl⟩)
        exact (isAskedFor_iff first).mp about.1
      · intro asked spend returned
        obtain ⟨id, state, height, response, first, spent, reveals, rfl⟩ :=
          doGetCoinSpendOpt_eq_some_iff.mp returned
        have about := asked id state first ⟨height, response, spent, reveals⟩
        exact ⟨(isAskedFor_iff first).mpr about, reveals.matches⟩
  | puzzleAndSolution height =>
      constructor
      · intro bound id state first goesBy
        obtain ⟨response, reveals⟩ := goesBy
        have about :=
          bound _ (doGetPuzzleAndSolutionOpt_eq_some_iff.mpr
            ⟨id, state, response, first, reveals, rfl⟩)
        exact (isAskedFor_iff first).mp about.1
      · intro asked spend returned
        obtain ⟨id, state, response, first, reveals, rfl⟩ :=
          doGetPuzzleAndSolutionOpt_eq_some_iff.mp returned
        have about := asked id state first ⟨response, reveals⟩
        exact ⟨(isAskedFor_iff first).mpr about, reveals.matches⟩

end Reads

open PeerRequest LightClient

/-- Connections on which every question about coins is answered with one coin. -/
def strayWire : PeerWire sampleCrates :=
  {
    silentWire with
    requestCoinState := fun _ _ =>
      .answered [{ coin := sampleCoin, createdHeight := some 9, spentHeight := none }]
  }

/-- The record of another coin is returned for the name that was asked for. -/
theorem stray_coin_is_returned
    : ¬ ∀ (crates : ChiaCrates) (coinId : ProtocolCoin → Bytes32) (wire : PeerWire crates)
        (peer : Peer) (name : String) (read : CoinRead),
        read.IsBound coinId wire peer name := by
  intro claim
  have bound :=
    claim sampleCrates sampleCoinId strayWire (sampleEntry 1).peer (hex32 0) .coinRecordByName
  have first
      : FirstState strayWire (sampleEntry 1).peer (hex32 0) 0
          { coin := sampleCoin, createdHeight := some 9, spentHeight := none } :=
    ⟨parseBytes32_hex32 0, [], rfl⟩
  have about :=
    bound _ (doGetCoinRecordByNameOpt_eq_some_iff.mpr ⟨0, _, first, rfl⟩)
  exact absurd ((isAskedFor_iff first).mp about) (by decide)

end PeerBackend

end ChiaQuery
