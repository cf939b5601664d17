import ChiaQuery.Library.StreamLoop
import ChiaQuery.Peer.PoolEntries
import ChiaQuery.Types.Hex

/-! The walk over a peer's pages that answers a puzzle-hash query, and the support its final
height needs. The peer decides with every page whether another one is asked for.
-/

namespace ChiaQuery

open ChiaQuery.Library

/-- What one awaited request comes to. -/
inductive Reply (α : Type*) where
  | answered (response : α)
  | rejected
  | failed (text : String)
  | timedOut
  deriving DecidableEq, Repr

/-- `RespondPuzzleState`, and the light client's `PuzzleStatePage`. -/
structure PuzzleStatePage where
  coinStates : List CoinState
  height : UInt32
  headerHash : Bytes32
  isFinished : Bool
  deriving DecidableEq, Repr

/-- A paged walk between two requests: where the next one continues, and the states so far. -/
structure PuzzleWalk where
  previousHeight : Option UInt32
  headerHash : Bytes32
  states : List CoinState
  deriving DecidableEq, Repr

/-- A walk before its first request. -/
def PuzzleWalk.start (genesisChallenge : Bytes32) : PuzzleWalk where
  previousHeight := none
  headerHash := genesisChallenge
  states := []

/-- The walk continues behind a page. -/
def PuzzleWalk.take (walk : PuzzleWalk) (page : PuzzleStatePage) : PuzzleWalk where
  previousHeight := some page.height
  headerHash := page.headerHash
  states := walk.states ++ page.coinStates

/-- The `Debug` rendering of an announced peak. -/
def announcedText : Option UInt32 → String
  | none => "None"
  | some peak => s!"Some({peak})"

namespace PeerPool

/-- `announced_peak`. -/
def announcedPeak (entries : List PeerEntry) (address : SocketAddr) : Option UInt32 :=
  ((entries.find? (fun entry => entry.address = address)).map PeerEntry.lastPeak).filter
    (fun peak => 0 < peak)

end PeerPool

namespace PeerBackend

/-- One page request of `do_puzzle_hash_query`, and what it makes of the reply. -/
def queryTurn (walk : PuzzleWalk)
    : Reply PuzzleStatePage → Loop PuzzleWalk (Except ChiaQueryError (List CoinState × UInt32))
  | .timedOut => .returned (.error (.peerConnection "request timed out"))
  | .failed text => .returned (.error (.peerConnection text))
  | .rejected => .returned (.error (.peerRejection "puzzle state request rejected"))
  | .answered page =>
      if page.isFinished then .returned (.ok ((walk.take page).states, page.height))
      else .running (walk.take page)

/-- What `do_puzzle_hash_query` makes of a finished walk: the height it states has to be
supported by the peak its peer has announced.
-/
def supportedSet (address : SocketAddr) (announced : Option UInt32)
    : Except ChiaQueryError (List CoinState × UInt32)
      → Except ChiaQueryError (HeightedSet CoinRecord)
  | .error failure => .error failure
  | .ok (states, asOfHeight) =>
      if asOfIsSupported announced asOfHeight then
        .ok { items := coinStatesToRecords states, asOfHeight }
      else
        .error
          (.peerRejection
            (s!"peer {address} answered as of height {asOfHeight}, which its own announced "
              ++ s!"peak ({announcedText announced}) does not support"))

/-- `do_puzzle_hash_query`, after a number of its page requests. -/
def doPuzzleHashQuery (genesisChallenge : Bytes32) (address : SocketAddr)
    (announced : Option UInt32) (hashes : List String) (replies : Nat → Reply PuzzleStatePage)
    (requests : Nat)
    : Loop PuzzleWalk (Except ChiaQueryError (HeightedSet CoinRecord)) :=
  match hashes.mapM parseBytes32 with
  | .error failure => .returned (.error failure)
  | .ok _ =>
      (Loop.after queryTurn replies (.start genesisChallenge) requests).andThen
        (supportedSet address announced)

end PeerBackend

/-- A page that makes the walk ask for another one. -/
def Unfinished (reply : Reply PuzzleStatePage) : Prop :=
  ∃ page, reply = .answered page ∧ page.isFinished = false

/-- Each of the first pages is unfinished. -/
def StreamReaches (replies : Nat → Reply PuzzleStatePage) (pages : Nat) : Prop :=
  ∀ index < pages, Unfinished (replies index)

theorem finished_not_unfinished {reply : Reply PuzzleStatePage} {page : PuzzleStatePage}
    (answered : reply = .answered page) (finished : page.isFinished = true)
    : ¬ Unfinished reply := by
  rintro ⟨other, same, unfinished⟩
  rw [answered] at same
  cases same
  simp [finished] at unfinished

/-- How many coin states a reply brings. -/
def Reply.stateCount : Reply PuzzleStatePage → Nat
  | .answered page => page.coinStates.length
  | _ => 0

/-- How many coin states the first replies bring together. -/
def stateCount (replies : Nat → Reply PuzzleStatePage) : Nat → Nat
  | 0 => 0
  | pages + 1 => stateCount replies pages + (replies pages).stateCount

/-- The coin states that a reply brings. -/
def Reply.coinStates : Reply PuzzleStatePage → List CoinState
  | .answered page => page.coinStates
  | _ => []

/-- The coin states of the first replies, in the order they came. -/
def collected (replies : Nat → Reply PuzzleStatePage) (pages : Nat) : List CoinState :=
  (List.range pages).flatMap (fun index => (replies index).coinStates)

section Pages

variable {replies : Nat → Reply PuzzleStatePage} {pages last : Nat}

theorem stateCount_mono (replies : Nat → Reply PuzzleStatePage) (le : pages ≤ last)
    : stateCount replies pages ≤ stateCount replies last := by
  induction le with
  | refl => exact Nat.le_refl _
  | step _ ih => exact Nat.le_trans ih (Nat.le_add_right _ _)

theorem collected_succ (replies : Nat → Reply PuzzleStatePage) (pages : Nat)
    : collected replies (pages + 1)
      = collected replies pages ++ (replies pages).coinStates := by
  simp [collected, List.range_succ]

theorem length_collected (replies : Nat → Reply PuzzleStatePage) (pages : Nat)
    : (collected replies pages).length = stateCount replies pages := by
  induction pages with
  | zero => rfl
  | succ pages ih =>
      rw [collected_succ, List.length_append, ih, stateCount]
      cases replies pages <;> rfl

/-- A walk that goes on from the pages it takes only holds their states in order, by induction on
the requests.
-/
theorem states_of_running {ρ : Type*}
    {turn : PuzzleWalk → Reply PuzzleStatePage → Loop PuzzleWalk ρ} {genesisChallenge : Bytes32}
    {walk : PuzzleWalk}
    (takes
      : ∀ walk reply next,
          turn walk reply = .running next
          → ∃ page, reply = .answered page ∧ next = walk.take page)
    (h : Loop.after turn replies (.start genesisChallenge) pages = .running walk)
    : walk.states = collected replies pages := by
  have kept : ∀ pages (walk : PuzzleWalk),
      Loop.after turn replies (.start genesisChallenge) pages = .running walk
      → walk.states = collected replies pages := by
    refine Loop.running_invariant ?_ ?_
    · rfl
    · intro pages state next kept running
      obtain ⟨page, answered, rfl⟩ := takes state _ next running
      rw [collected_succ, answered, ← kept]
      rfl
  exact kept pages walk h

/-- No walk passes the page it stops at. -/
theorem StreamReaches.le_of_stops (reaches : StreamReaches replies pages)
    (stops : ¬ Unfinished (replies last))
    : pages ≤ last := by
  by_contra beyond
  exact stops (reaches last (by omega))

/-- A stream stops at one page only. -/
theorem StreamReaches.last_unique {other : Nat} (reaches : StreamReaches replies last)
    (stops : ¬ Unfinished (replies last)) (otherReaches : StreamReaches replies other)
    (otherStops : ¬ Unfinished (replies other))
    : other = last :=
  Nat.le_antisymm (otherReaches.le_of_stops stops) (reaches.le_of_stops otherStops)

/-- A stream that does not go on for a number of pages stops at one of them, by induction on
their number.
-/
theorem exists_last (stops : ¬ StreamReaches replies pages)
    : ∃ last < pages, StreamReaches replies last ∧ ¬ Unfinished (replies last) := by
  induction pages with
  | zero => exact absurd (fun index bound => absurd bound (Nat.not_lt_zero index)) stops
  | succ pages ih =>
      by_cases reaches : StreamReaches replies pages
      · refine ⟨pages, Nat.lt_succ_self pages, reaches, ?_⟩
        intro unfinished
        apply stops
        intro index bound
        rcases Nat.lt_succ_iff_lt_or_eq.mp bound with earlier | rfl
        · exact reaches index earlier
        · exact unfinished
      · obtain ⟨last, bound, stopped⟩ := ih reaches
        exact ⟨last, Nat.lt_succ_of_lt bound, stopped⟩

end Pages

namespace PeerBackend

variable {walk next : PuzzleWalk} {reply : Reply PuzzleStatePage}
  {replies : Nat → Reply PuzzleStatePage} {genesisChallenge : Bytes32} {requests : Nat}

/-- A turn goes on from an unfinished page only, and keeps its states. -/
theorem queryTurn_running (h : queryTurn walk reply = .running next)
    : ∃ page, reply = .answered page ∧ page.isFinished = false ∧ next = walk.take page := by
  cases reply with
  | timedOut => cases h
  | failed text => cases h
  | rejected => cases h
  | answered page =>
      simp only [queryTurn] at h
      split at h
      · cases h
      · rename_i unfinished
        cases h
        exact ⟨page, rfl, by simpa using unfinished, rfl⟩

/-- A turn answers from a finished page only. -/
theorem queryTurn_finished {states : List CoinState} {asOfHeight : UInt32}
    (h : queryTurn walk reply = .returned (.ok (states, asOfHeight)))
    : ∃ page, reply = .answered page ∧ page.isFinished = true
        ∧ states = (walk.take page).states ∧ asOfHeight = page.height := by
  cases reply with
  | timedOut => cases h
  | failed text => cases h
  | rejected => cases h
  | answered page =>
      simp only [queryTurn] at h
      split at h
      · rename_i finished
        cases h
        exact ⟨page, rfl, finished, rfl, rfl⟩
      · cases h

theorem exists_queryTurn_running (walk : PuzzleWalk) (reply : Reply PuzzleStatePage)
    : (∃ next, queryTurn walk reply = .running next) ↔ Unfinished reply := by
  constructor
  · intro h
    obtain ⟨next, running⟩ := h
    obtain ⟨page, answered, unfinished, -⟩ := queryTurn_running running
    exact ⟨page, answered, unfinished⟩
  · intro h
    obtain ⟨page, rfl, unfinished⟩ := h
    exact ⟨walk.take page, by simp [queryTurn, unfinished]⟩

/-- A walk is still under way exactly when every page so far was unfinished. -/
theorem exists_walking_iff
    : (∃ walk, Loop.after queryTurn replies (.start genesisChallenge) requests = .running walk)
      ↔ StreamReaches replies requests :=
  Loop.exists_running_iff exists_queryTurn_running requests

/-- A walk under way keeps every state it has been sent. -/
theorem walking_states
    (h : Loop.after queryTurn replies (.start genesisChallenge) requests = .running walk)
    : walk.states.length = stateCount replies requests := by
  rw [← length_collected]
  refine congrArg List.length (states_of_running ?_ h)
  intro walk reply next running
  obtain ⟨page, answered, -, taken⟩ := queryTurn_running running
  exact ⟨page, answered, taken⟩

variable {address : SocketAddr} {announced : Option UInt32} {hashes : List String}

/-- What a finished walk needs to be answered with. -/
theorem supportedSet_ok {walked : Except ChiaQueryError (List CoinState × UInt32)}
    {answer : HeightedSet CoinRecord} (h : supportedSet address announced walked = .ok answer)
    : ∃ states asOfHeight,
        walked = .ok (states, asOfHeight) ∧ asOfIsSupported announced asOfHeight = true
        ∧ answer = { items := coinStatesToRecords states, asOfHeight } := by
  cases walked with
  | error failure => cases h
  | ok finished =>
      obtain ⟨states, asOfHeight⟩ := finished
      simp only [supportedSet] at h
      split at h
      · rename_i supported
        cases h
        exact ⟨states, asOfHeight, rfl, supported, rfl⟩
      · cases h

/-- A query under way has met unfinished pages only, and keeps all their states. -/
theorem query_running
    (h
      : doPuzzleHashQuery genesisChallenge address announced hashes replies requests
        = .running walk)
    : StreamReaches replies requests ∧ walk.states.length = stateCount replies requests := by
  cases parsed : hashes.mapM parseBytes32 with
  | error failure => simp [doPuzzleHashQuery, parsed] at h
  | ok puzzleHashes =>
      simp only [doPuzzleHashQuery, parsed, Loop.andThen_running] at h
      exact ⟨exists_walking_iff.mp ⟨walk, h⟩, walking_states h⟩

/-- A query whose hashes parse is under way as long as the pages are unfinished. -/
theorem exists_query_running {puzzleHashes : List Bytes32}
    (parsed : hashes.mapM parseBytes32 = .ok puzzleHashes)
    (reaches : StreamReaches replies requests)
    : ∃ walk,
        doPuzzleHashQuery genesisChallenge address announced hashes replies requests
          = .running walk := by
  obtain ⟨walk, running⟩ := exists_walking_iff.mpr reaches
  refine ⟨walk, ?_⟩
  simp only [doPuzzleHashQuery, parsed, Loop.andThen_running]
  exact running

/-- A query whose hashes parse answers at a finished page of a supported height. -/
theorem query_of_finished {puzzleHashes : List Bytes32} {last : Nat} {page : PuzzleStatePage}
    (parsed : hashes.mapM parseBytes32 = .ok puzzleHashes) (reaches : StreamReaches replies last)
    (answered : replies last = .answered page) (finished : page.isFinished = true)
    (supported : asOfIsSupported announced page.height = true)
    : ∃ answer,
        doPuzzleHashQuery genesisChallenge address announced hashes replies (last + 1)
          = .returned (.ok answer) := by
  have walking
      : ∃ walk, Loop.after queryTurn replies (.start genesisChallenge) last = .running walk :=
    exists_walking_iff.mpr reaches
  obtain ⟨walk, running⟩ := walking
  have turned := Loop.after_succ_of_running running
  refine
    ⟨{ items := coinStatesToRecords (walk.take page).states, asOfHeight := page.height }, ?_⟩
  simp only [doPuzzleHashQuery, parsed, turned, queryTurn, answered, finished, if_true,
    Loop.andThen, supportedSet, supported]

/-- A query that answers has walked up to a finished page, whose height its peer's announcements
support, and answers with the states of all the pages.
-/
theorem query_answered {answer : HeightedSet CoinRecord}
    (h
      : doPuzzleHashQuery genesisChallenge address announced hashes replies requests
        = .returned (.ok answer))
    : ∃ last page,
        StreamReaches replies last ∧ replies last = .answered page ∧ page.isFinished = true
        ∧ asOfIsSupported announced page.height = true
        ∧ answer.asOfHeight = page.height
        ∧ answer.items.length = stateCount replies (last + 1) := by
  cases parsed : hashes.mapM parseBytes32 with
  | error failure => simp [doPuzzleHashQuery, parsed] at h
  | ok puzzleHashes =>
      simp only [doPuzzleHashQuery, parsed] at h
      obtain ⟨walked, returned, settled⟩ := Loop.andThen_returned h
      obtain ⟨states, asOfHeight, rfl, supported, rfl⟩ := supportedSet_ok settled
      obtain ⟨last, -, walk, running, ended⟩ := Loop.exists_turn_of_returned returned
      obtain ⟨page, answered, finished, rfl, rfl⟩ := queryTurn_finished ended
      refine ⟨last, page, exists_walking_iff.mp ⟨walk, running⟩, answered, finished, supported,
        rfl, ?_⟩
      simp [coinStatesToRecords, PuzzleWalk.take, walking_states running, stateCount, answered,
        Reply.stateCount]

end PeerBackend

end ChiaQuery
