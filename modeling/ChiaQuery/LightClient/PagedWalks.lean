import ChiaQuery.Peer.PuzzleQuery
import Mathlib.Order.Nat

/-! The two walks over the pages of a puzzle-hash read. The light client's is bounded in its
pages and its coin states and refuses a height that does not advance; the backend's goes on for
as long as the peer's pages say so.
-/

namespace ChiaQuery

open ChiaQuery.Library

/-- `MAX_PUZZLE_STATE_PAGES`. -/
def maxPuzzleStatePages : Nat := 10000

/-- `MAX_ACCUMULATED_COIN_STATES`. -/
def maxAccumulatedCoinStates : Nat := 500000

namespace LightClient

/-- `LightClientError`. -/
inductive LightClientError where
  | transport (text : String)
  | rejected (text : String)
  | malformed (text : String)
  | timeout
  | peerDiscoveryFailed
  | notConnected
  deriving DecidableEq, Repr

/-- `fetch_page` of `puzzle_states`, from what its request comes to. -/
def fetchPage : Reply PuzzleStatePage → Except LightClientError PuzzleStatePage
  | .timedOut => .error .timeout
  | .failed text => .error (.transport text)
  | .rejected => .error (.rejected "puzzle-state request rejected")
  | .answered page => .ok page

/-- The pass of `collect_paged` over one page. -/
def collectTurn (walk : PuzzleWalk) (reply : Reply PuzzleStatePage)
    : Loop PuzzleWalk (Except LightClientError (List CoinState)) :=
  match fetchPage reply with
  | .error failure => .returned (.error failure)
  | .ok page =>
      let all := (walk.take page).states
      if maxAccumulatedCoinStates < all.length then
        .returned
          (.error
            (.rejected s!"puzzle-state response exceeded {maxAccumulatedCoinStates} coins"))
      else if page.isFinished then .returned (.ok all)
      else if walk.previousHeight.any (fun previous => page.height ≤ previous) then
        .returned (.error (.rejected "puzzle-state paging did not advance the height"))
      else .running (walk.take page)

/-- `collect_paged`, after a number of its page requests. -/
def collectPaged (genesisChallenge : Bytes32) (replies : Nat → Reply PuzzleStatePage)
    : Nat → Loop PuzzleWalk (Except LightClientError (List CoinState)) :=
  Loop.within maxPuzzleStatePages
    (fun _ => .error (.rejected s!"puzzle-state paging exceeded {maxPuzzleStatePages} pages"))
    collectTurn replies (.start genesisChallenge)

end LightClient

/-- Along the first pages every height is above the one before. -/
def Advances (replies : Nat → Reply PuzzleStatePage) (pages : Nat) : Prop :=
  ∀ index earlier later,
    index + 1 < pages
    → replies index = .answered earlier → replies (index + 1) = .answered later
    → earlier.height < later.height

/-- A stream of pages violates the bounds when it goes on for too many pages, brings too many
coin states, or does not advance.
-/
inductive Violates (replies : Nat → Reply PuzzleStatePage) : Prop where
  | endless (reaches : StreamReaches replies maxPuzzleStatePages)
  | tooMany (pages : Nat) (reaches : StreamReaches replies pages) (page : PuzzleStatePage)
      (answered : replies pages = .answered page)
      (more : maxAccumulatedCoinStates < stateCount replies (pages + 1))
  | stuck (pages : Nat) (reaches : StreamReaches replies pages)
      (stays : ¬ Advances replies pages)

/-- A walk over a stream of pages is bounded: it has returned once it made the most page requests
there may be, never keeps or returns more coin states than there may be, and returns no answer
from a stream that violates the bounds. `size` counts the coin states of an answer.
-/
structure IsBounded {ε β : Type*} (replies : Nat → Reply PuzzleStatePage) (size : β → Nat)
    (walkAfter : Nat → Loop PuzzleWalk (Except ε β))
    : Prop where
  ends : ∃ result, walkAfter maxPuzzleStatePages = .returned result
  kept :
    ∀ requests walk,
      walkAfter requests = .running walk → walk.states.length ≤ maxAccumulatedCoinStates
  returned :
    ∀ requests answer,
      walkAfter requests = .returned (.ok answer) → size answer ≤ maxAccumulatedCoinStates
  refused : Violates replies → ∀ requests answer, walkAfter requests ≠ .returned (.ok answer)

/-- The pages of a stream keep the bounds themselves: the walk is ended by a failed request or a
finished page in time, and unless it fails there too, the heights advanced up to it and all the
coin states are few enough.
-/
def KeepsBounds (announced : Option UInt32) (replies : Nat → Reply PuzzleStatePage) : Prop :=
  ∃ last < maxPuzzleStatePages,
    StreamReaches replies last ∧ ¬ Unfinished (replies last)
    ∧ stateCount replies last ≤ maxAccumulatedCoinStates
    ∧ ∀ page,
        replies last = .answered page → asOfIsSupported announced page.height = true
        → stateCount replies (last + 1) ≤ maxAccumulatedCoinStates ∧ Advances replies last

variable {replies : Nat → Reply PuzzleStatePage} {pages last requests : Nat}
  {genesisChallenge : Bytes32} {walk next : PuzzleWalk} {reply : Reply PuzzleStatePage}

theorem Advances.mono (h : Advances replies last) (le : pages ≤ last) : Advances replies pages :=
  fun index earlier later bound => h index earlier later (Nat.lt_of_lt_of_le bound le)

/-- A stream that stops in time, with few enough coin states and advancing heights, violates
nothing.
-/
theorem not_violates (inTime : last < maxPuzzleStatePages)
    (stops : ¬ Unfinished (replies last))
    (few : stateCount replies (last + 1) ≤ maxAccumulatedCoinStates)
    (advances : Advances replies last)
    : ¬ Violates replies := by
  intro violates
  cases violates with
  | endless reaches => exact stops (reaches last inTime)
  | tooMany pages reaches page answered more =>
      have earlier := reaches.le_of_stops stops
      have fewer : stateCount replies (pages + 1) ≤ stateCount replies (last + 1) :=
        stateCount_mono replies (Nat.succ_le_succ earlier)
      omega
  | stuck pages reaches stays => exact stays (advances.mono (reaches.le_of_stops stops))

namespace LightClient

------------------------------------------------------------------------------------------
-- The light client's walk
------------------------------------------------------------------------------------------

/-- What the light client's walk has found of a stream while it goes on. -/
structure CollectInvariant (replies : Nat → Reply PuzzleStatePage) (pages : Nat)
    (walk : PuzzleWalk)
    : Prop where
  reaches : StreamReaches replies pages
  counted : walk.states.length = stateCount replies pages
  few : stateCount replies pages ≤ maxAccumulatedCoinStates
  advances : Advances replies pages
  previous :
    ∀ earlier page,
      pages = earlier + 1 → replies earlier = .answered page
      → walk.previousHeight = some page.height

/-- A pass goes on from an unfinished page that adds few enough states and advances. -/
theorem collectTurn_running (h : collectTurn walk reply = .running next)
    : ∃ page, reply = .answered page ∧ page.isFinished = false ∧ next = walk.take page
        ∧ (walk.take page).states.length ≤ maxAccumulatedCoinStates
        ∧ ∀ previous ∈ walk.previousHeight, previous < page.height := by
  cases reply with
  | timedOut => cases h
  | failed text => cases h
  | rejected => cases h
  | answered page =>
      simp only [collectTurn, fetchPage] at h
      split at h
      · cases h
      · rename_i few
        split at h
        · cases h
        · rename_i unfinished
          split at h
          · cases h
          · rename_i advanced
            cases h
            refine ⟨page, rfl, by simpa using unfinished, rfl, by omega, ?_⟩
            intro previous known
            simpa [Option.mem_def.mp known] using advanced

/-- A pass answers from a finished page that adds few enough states. -/
theorem collectTurn_finished {states : List CoinState}
    (h : collectTurn walk reply = .returned (.ok states))
    : ∃ page, reply = .answered page ∧ page.isFinished = true
        ∧ states = (walk.take page).states
        ∧ (walk.take page).states.length ≤ maxAccumulatedCoinStates := by
  cases reply with
  | timedOut => cases h
  | failed text => cases h
  | rejected => cases h
  | answered page =>
      simp only [collectTurn, fetchPage] at h
      split at h
      · cases h
      · rename_i few
        split at h
        · rename_i finished
          cases h
          exact ⟨page, rfl, finished, rfl, by omega⟩
        · split at h <;> cases h

/-- An unfinished page that adds few enough states and advances is taken. -/
theorem collectTurn_of_unfinished {page : PuzzleStatePage} (unfinished : page.isFinished = false)
    (few : (walk.take page).states.length ≤ maxAccumulatedCoinStates)
    (advanced : ∀ previous ∈ walk.previousHeight, previous < page.height)
    : collectTurn walk (.answered page) = .running (walk.take page) := by
  have stuck : walk.previousHeight.any (fun previous => page.height ≤ previous) = false := by
    rw [Option.any_eq_false_iff_get]
    intro known
    have above := advanced _ (Option.get_mem known)
    simpa using above
  simp [collectTurn, fetchPage, Nat.not_lt.mpr few, unfinished, stuck]

/-- A finished page that adds few enough states ends the walk. -/
theorem collectTurn_of_finished {page : PuzzleStatePage} (finished : page.isFinished = true)
    (few : (walk.take page).states.length ≤ maxAccumulatedCoinStates)
    : collectTurn walk (.answered page) = .returned (.ok (walk.take page).states) := by
  simp [collectTurn, fetchPage, Nat.not_lt.mpr few, finished]

theorem collectInvariant_start
    : CollectInvariant replies 0 (PuzzleWalk.start genesisChallenge) where
  reaches := fun _ bound => absurd bound (Nat.not_lt_zero _)
  counted := rfl
  few := Nat.zero_le _
  advances := fun _ _ _ bound => absurd bound (Nat.not_lt_zero _)
  previous := fun _ _ same => absurd same (Nat.succ_ne_zero _).symm

theorem CollectInvariant.step (h : CollectInvariant replies pages walk)
    (running : collectTurn walk (replies pages) = .running next)
    : CollectInvariant replies (pages + 1) next := by
  obtain ⟨page, answered, unfinished, rfl, few, advanced⟩ := collectTurn_running running
  have counted : (walk.take page).states.length = stateCount replies (pages + 1) := by
    simp [PuzzleWalk.take, stateCount, answered, Reply.stateCount, h.counted]
  constructor
  · intro index bound
    rcases Nat.lt_succ_iff_lt_or_eq.mp bound with earlier | rfl
    · exact h.reaches index earlier
    · exact ⟨page, answered, unfinished⟩
  · exact counted
  · exact counted ▸ few
  · intro index earlier later bound earlierAnswered laterAnswered
    rcases Nat.lt_succ_iff_lt_or_eq.mp bound with before | rfl
    · exact h.advances index earlier later before earlierAnswered laterAnswered
    · -- The newest page is compared with the height the walk remembers of the one before it.
      rw [answered] at laterAnswered
      cases laterAnswered
      exact advanced _ (h.previous index earlier rfl earlierAnswered)
  · intro earlier last same lastAnswered
    obtain rfl : pages = earlier := by omega
    rw [answered] at lastAnswered
    cases lastAnswered
    rfl

theorem collecting_invariant
    (h
      : Loop.after collectTurn replies (.start genesisChallenge) requests = .running walk)
    : CollectInvariant replies requests walk :=
  Loop.running_invariant collectInvariant_start (fun _ _ _ => CollectInvariant.step) requests
    walk h

/-- What the light client's walk answers, it collected from a stream that violates nothing. -/
theorem collectPaged_answered {answer : List CoinState}
    (h : collectPaged genesisChallenge replies requests = .returned (.ok answer))
    : answer.length ≤ maxAccumulatedCoinStates ∧ ¬ Violates replies := by
  obtain ⟨turns, inTime, returned⟩ := Loop.within_returned h (by simp)
  obtain ⟨last, bound, walk, running, ended⟩ := Loop.exists_turn_of_returned returned
  obtain ⟨page, answered, finished, rfl, few⟩ := collectTurn_finished ended
  have found := collecting_invariant running
  have counted : (walk.take page).states.length = stateCount replies (last + 1) := by
    simp [PuzzleWalk.take, stateCount, answered, Reply.stateCount, found.counted]
  refine ⟨few, not_violates (by omega) ?_ (counted ▸ few) found.advances⟩
  intro unfinished
  exact finished_not_unfinished answered finished unfinished

/-- The light client's walk is bounded on every stream of pages. -/
theorem collectPaged_isBounded (genesisChallenge : Bytes32)
    (replies : Nat → Reply PuzzleStatePage)
    : IsBounded replies List.length (collectPaged genesisChallenge replies) where
  ends := Loop.exists_within_returned _ _
  kept := by
    intro requests walk running
    have found := collecting_invariant (Loop.within_running_iff.mp running).2
    exact found.counted ▸ found.few
  returned := fun _ _ answered => (collectPaged_answered answered).1
  refused := fun violates _ _ answered => (collectPaged_answered answered).2 violates

end LightClient

namespace PeerBackend

------------------------------------------------------------------------------------------
-- The backend's walk
------------------------------------------------------------------------------------------

/-- The bounds of a puzzle-hash query, whose answer holds as many records as coin states. -/
abbrev QueryIsBounded (genesisChallenge : Bytes32) (address : SocketAddr)
    (announced : Option UInt32) (hashes : List String) (replies : Nat → Reply PuzzleStatePage)
    : Prop :=
  IsBounded replies (fun answer : HeightedSet CoinRecord => answer.items.length)
    (doPuzzleHashQuery genesisChallenge address announced hashes replies)

variable {address : SocketAddr} {announced : Option UInt32} {hashes : List String}

/-- A query over hashes that do not parse makes no request. -/
theorem queryIsBounded_of_unparsed {failure : ChiaQueryError}
    (unparsed : hashes.mapM parseBytes32 = .error failure)
    : QueryIsBounded genesisChallenge address announced hashes replies := by
  have returned : ∀ requests,
      doPuzzleHashQuery genesisChallenge address announced hashes replies requests
        = .returned (.error failure) := by
    intro requests
    simp only [doPuzzleHashQuery, unparsed]
  constructor
  · exact ⟨.error failure, returned _⟩
  · intro requests walk running
    cases (returned requests).symm.trans running
  · intro requests answer answered
    cases (returned requests).symm.trans answered
  · intro _ requests answer answered
    cases (returned requests).symm.trans answered

/-- Pages that keep the bounds themselves keep the query bounded. -/
theorem queryIsBounded_of_keeps (keeps : KeepsBounds announced replies)
    : QueryIsBounded genesisChallenge address announced hashes replies := by
  obtain ⟨last, inTime, reaches, stops, few, final⟩ := keeps
  -- Whatever page an answer was given at, it is the one the stream stops at.
  have answered_few : ∀ requests answer,
      doPuzzleHashQuery genesisChallenge address announced hashes replies requests
        = .returned (.ok answer)
      → answer.items.length = stateCount replies (last + 1)
        ∧ stateCount replies (last + 1) ≤ maxAccumulatedCoinStates
        ∧ Advances replies last := by
    intro requests answer h
    obtain ⟨turn, page, earlier, answered, finished, supported, -, counted⟩ := query_answered h
    obtain rfl : turn = last :=
      reaches.last_unique stops earlier (finished_not_unfinished answered finished)
    exact ⟨counted, final page answered supported⟩
  constructor
  · cases ended
      : doPuzzleHashQuery genesisChallenge address announced hashes replies
          maxPuzzleStatePages with
    | returned result => exact ⟨result, rfl⟩
    | running walk => exact absurd ((query_running ended).1 last inTime) stops
  · intro requests walk running
    obtain ⟨earlier, counted⟩ := query_running running
    have fewer := stateCount_mono replies (earlier.le_of_stops stops)
    omega
  · intro requests answer h
    obtain ⟨counted, bounded, -⟩ := answered_few requests answer h
    omega
  · intro violates requests answer h
    obtain ⟨-, bounded, advances⟩ := answered_few requests answer h
    exact not_violates inTime stops bounded advances violates

/-- A bounded query over hashes that parse met pages that keep the bounds themselves. -/
theorem keepsBounds_of_query {puzzleHashes : List Bytes32}
    (parsed : hashes.mapM parseBytes32 = .ok puzzleHashes)
    (bounded : QueryIsBounded genesisChallenge address announced hashes replies)
    : KeepsBounds announced replies := by
  have stopsInTime : ¬ StreamReaches replies maxPuzzleStatePages := by
    intro reaches
    obtain ⟨result, ended⟩ := bounded.ends
    obtain ⟨walk, running⟩ := exists_query_running parsed reaches
    cases ended.symm.trans running
  obtain ⟨last, inTime, reaches, stops⟩ := exists_last stopsInTime
  obtain ⟨walk, running⟩ := exists_query_running parsed reaches
  have kept := bounded.kept last walk running
  refine ⟨last, inTime, reaches, stops, (query_running running).2 ▸ kept, ?_⟩
  intro page answered supported
  have finished : page.isFinished = true := by
    by_contra unfinished
    exact stops ⟨page, answered, by simpa using unfinished⟩
  obtain ⟨answer, returned⟩ := query_of_finished parsed reaches answered finished supported
  constructor
  · by_contra more
    exact bounded.refused (.tooMany last reaches page answered (by omega)) _ answer returned
  · by_contra stays
    exact bounded.refused (.stuck last reaches stays) _ answer returned

/-- The backend's query is bounded exactly on pages that keep the bounds themselves, and where
its hashes do not parse.
-/
theorem query_isBounded_iff (genesisChallenge : Bytes32) (address : SocketAddr)
    (announced : Option UInt32) (hashes : List String)
    (replies : Nat → Reply PuzzleStatePage)
    : QueryIsBounded genesisChallenge address announced hashes replies
      ↔ (∃ failure, hashes.mapM parseBytes32 = .error failure)
        ∨ KeepsBounds announced replies := by
  constructor
  · intro bounded
    cases parsed : hashes.mapM parseBytes32 with
    | error failure => exact Or.inl ⟨failure, rfl⟩
    | ok puzzleHashes => exact Or.inr (keepsBounds_of_query parsed bounded)
  · intro h
    rcases h with ⟨failure, unparsed⟩ | keeps
    · exact queryIsBounded_of_unparsed unparsed
    · exact queryIsBounded_of_keeps keeps

/-- Empty pages at one height, none of which is the last. -/
def endlessPages (_ : Nat) : Reply PuzzleStatePage :=
  .answered { coinStates := [], height := 0, headerHash := 0, isFinished := false }

/-- A peer keeps the query asking for pages for as long as it likes. -/
theorem endless_pages_are_followed
    : ¬ ∀ (genesisChallenge : Bytes32) (address : SocketAddr) (announced : Option UInt32)
        (hashes : List String) (replies : Nat → Reply PuzzleStatePage),
        QueryIsBounded genesisChallenge address announced hashes replies := by
  intro claim
  have bounded := claim 0 (sampleEntry 1).address (some 100) [] endlessPages
  have reaches : StreamReaches endlessPages maxPuzzleStatePages := fun _ _ => ⟨_, rfl, rfl⟩
  have parsed : ([] : List String).mapM parseBytes32 = .ok [] := rfl
  obtain ⟨walk, running⟩ := exists_query_running parsed reaches
  obtain ⟨result, ended⟩ := bounded.ends
  cases ended.symm.trans running

end PeerBackend

end ChiaQuery
