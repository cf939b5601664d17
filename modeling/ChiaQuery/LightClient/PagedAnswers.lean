import ChiaQuery.LightClient.Provider

/-! What the light client's walk over the pages of a puzzle-hash read asks for and answers with.
Every request continues behind the page before it, and an answer is all the pages in order.
-/

namespace ChiaQuery

open ChiaQuery.Library

/-- A finished page arrives before any bound is violated. -/
structure FinishesAt (replies : Nat → Reply PuzzleStatePage) (last : Nat) : Prop where
  inTime : last < maxPuzzleStatePages
  reaches : StreamReaches replies last
  finished : ∃ page, replies last = .answered page ∧ page.isFinished = true
  few : (collected replies (last + 1)).length ≤ maxAccumulatedCoinStates
  advances : Advances replies last

variable {replies : Nat → Reply PuzzleStatePage} {pages last requests : Nat}
  {genesisChallenge : Bytes32} {walk : PuzzleWalk}

/-- What was collected of the first pages is no more than what is collected later. -/
theorem length_collected_mono (le : pages ≤ last)
    : (collected replies pages).length ≤ (collected replies last).length := by
  simpa only [length_collected] using stateCount_mono replies le

/-- Where each height is above the one before, every height is above all earlier ones, by
induction on the later page.
-/
theorem Advances.lt_of_lt {earlier later : Nat} {earlierPage laterPage : PuzzleStatePage}
    (h : Advances replies pages) (reaches : StreamReaches replies pages)
    (lt : earlier < later) (bound : later < pages)
    (earlierAnswered : replies earlier = .answered earlierPage)
    (laterAnswered : replies later = .answered laterPage)
    : earlierPage.height < laterPage.height := by
  induction later generalizing laterPage with
  | zero => exact absurd lt (Nat.not_lt_zero _)
  | succ later ih =>
      rcases Nat.lt_succ_iff_lt_or_eq.mp lt with before | rfl
      · obtain ⟨middle, answered, -⟩ := reaches later (Nat.lt_of_succ_lt bound)
        exact UInt32.lt_trans (ih before (Nat.lt_of_succ_lt bound) answered)
          (h later middle laterPage bound answered laterAnswered)
      · exact h earlier earlierPage laterPage bound earlierAnswered laterAnswered

/-- A stream finishes at one page only. -/
theorem FinishesAt.last_eq (h : FinishesAt replies last) (other : FinishesAt replies pages)
    : pages = last := by
  obtain ⟨page, answered, finished⟩ := h.finished
  obtain ⟨otherPage, otherAnswered, otherFinished⟩ := other.finished
  exact h.reaches.last_unique (finished_not_unfinished answered finished) other.reaches
    (finished_not_unfinished otherAnswered otherFinished)

namespace LightClient

/-- The page request that `collect_paged` makes behind a number of others, if it does. -/
def pageRequest (genesisChallenge : Bytes32) (replies : Nat → Reply PuzzleStatePage)
    (requests : Nat)
    : Option (Option UInt32 × Bytes32) :=
  match collectPaged genesisChallenge replies requests with
  | .running walk => some (walk.previousHeight, walk.headerHash)
  | .returned _ => none

/-- `collect_paged` walks the pages of a stream in order and within its bounds. -/
structure WalksInOrder (genesisChallenge : Bytes32) (replies : Nat → Reply PuzzleStatePage)
    : Prop where
  ends : ∃ result, collectPaged genesisChallenge replies maxPuzzleStatePages = .returned result
  bounded :
    ∀ requests,
      maxPuzzleStatePages ≤ requests → pageRequest genesisChallenge replies requests = none
  first : pageRequest genesisChallenge replies 0 = some (none, genesisChallenge)
  handsOver :
    ∀ requests request,
      pageRequest genesisChallenge replies (requests + 1) = some request
      → (pageRequest genesisChallenge replies requests).isSome
        ∧ ∃ page,
            replies requests = .answered page ∧ request = (some page.height, page.headerHash)
  climbs :
    ∀ earlier later low high earlierHash laterHash,
      earlier < later
      → pageRequest genesisChallenge replies earlier = some (some low, earlierHash)
      → pageRequest genesisChallenge replies later = some (some high, laterHash)
      → low < high
  answers :
    ∀ all,
      Loop.Returns (collectPaged genesisChallenge replies) (.ok all)
      ↔ ∃ last, FinishesAt replies last ∧ all = collected replies (last + 1)
  few :
    ∀ all,
      Loop.Returns (collectPaged genesisChallenge replies) (.ok all)
      → all.length ≤ maxAccumulatedCoinStates

------------------------------------------------------------------------------------------
-- Requests
------------------------------------------------------------------------------------------

/-- A request is made in the turns below the most there may be, with the walk's cursor. -/
theorem pageRequest_eq_some_iff {request : Option UInt32 × Bytes32}
    : pageRequest genesisChallenge replies requests = some request
      ↔ requests < maxPuzzleStatePages
        ∧ ∃ walk,
            Loop.after collectTurn replies (.start genesisChallenge) requests = .running walk
            ∧ request = (walk.previousHeight, walk.headerHash) := by
  unfold pageRequest
  cases stands : collectPaged genesisChallenge replies requests with
  | running walk =>
      obtain ⟨inTime, running⟩ := Loop.within_running_iff.mp stands
      simp [inTime, running, eq_comm]
  | returned result =>
      constructor
      · intro h
        cases h
      · intro h
        obtain ⟨inTime, walk, running, -⟩ := h
        cases stands.symm.trans (Loop.within_running_iff.mpr ⟨inTime, running⟩)

/-- A walk that goes on has its cursor behind the page it last took. -/
theorem exists_page_of_collecting
    (h
      : Loop.after collectTurn replies (.start genesisChallenge) (requests + 1)
        = .running walk)
    : ∃ page earlier,
        replies requests = .answered page
        ∧ Loop.after collectTurn replies (.start genesisChallenge) requests
          = .running earlier
        ∧ walk = earlier.take page := by
  obtain ⟨earlier, before, went⟩ := Loop.exists_turn_of_running h
  obtain ⟨page, answered, -, taken, -⟩ := collectTurn_running went
  exact ⟨page, earlier, answered, before, taken⟩

/-- The cursor of every request but the first is that of the page before it. -/
theorem pageRequest_succ {request : Option UInt32 × Bytes32}
    (h : pageRequest genesisChallenge replies (requests + 1) = some request)
    : (pageRequest genesisChallenge replies requests).isSome
      ∧ ∃ page,
          replies requests = .answered page
          ∧ request = (some page.height, page.headerHash) := by
  obtain ⟨inTime, walk, running, rfl⟩ := pageRequest_eq_some_iff.mp h
  obtain ⟨page, earlier, answered, before, rfl⟩ := exists_page_of_collecting running
  refine ⟨?_, page, answered, rfl⟩
  have made := pageRequest_eq_some_iff.mpr ⟨Nat.lt_of_succ_lt inTime, earlier, before, rfl⟩
  exact Option.isSome_of_eq_some made

/-- A request with a height follows the page that has it. -/
theorem exists_page_of_pageRequest {height : UInt32} {headerHash : Bytes32}
    (h : pageRequest genesisChallenge replies requests = some (some height, headerHash))
    : ∃ earlier page,
        requests = earlier + 1 ∧ replies earlier = .answered page ∧ page.height = height := by
  cases requests with
  | zero => cases h
  | succ earlier =>
      obtain ⟨-, page, answered, same⟩ := pageRequest_succ h
      cases same
      exact ⟨earlier, page, rfl, answered, rfl⟩

theorem pageRequest_climbs {earlier later : Nat} {low high : UInt32}
    {earlierHash laterHash : Bytes32} (lt : earlier < later)
    (earlierMade
      : pageRequest genesisChallenge replies earlier = some (some low, earlierHash))
    (laterMade : pageRequest genesisChallenge replies later = some (some high, laterHash))
    : low < high := by
  obtain ⟨before, earlierPage, rfl, earlierAnswered, rfl⟩ :=
    exists_page_of_pageRequest earlierMade
  obtain ⟨behind, laterPage, rfl, laterAnswered, rfl⟩ := exists_page_of_pageRequest laterMade
  obtain ⟨-, walk, running, -⟩ := pageRequest_eq_some_iff.mp laterMade
  have found := collecting_invariant running
  exact found.advances.lt_of_lt found.reaches (by omega) (Nat.lt_succ_self behind)
    earlierAnswered laterAnswered

------------------------------------------------------------------------------------------
-- Answers
------------------------------------------------------------------------------------------

/-- A walk that goes on holds the states of its pages in order. -/
theorem collecting_states
    (h : Loop.after collectTurn replies (.start genesisChallenge) requests = .running walk)
    : walk.states = collected replies requests := by
  refine states_of_running ?_ h
  intro walk reply next running
  obtain ⟨page, answered, -, taken, -⟩ := collectTurn_running running
  exact ⟨page, answered, taken⟩

/-- A walk holds the states of all pages once it took the last of them. -/
theorem states_take {page : PuzzleStatePage}
    (h : Loop.after collectTurn replies (.start genesisChallenge) requests = .running walk)
    (answered : replies requests = .answered page)
    : (walk.take page).states = collected replies (requests + 1) := by
  rw [collected_succ, answered, ← collecting_states h]
  rfl

/-- A walk gets to the page that a stream finishes at, by induction on the pages before it. -/
theorem exists_collecting (h : FinishesAt replies last)
    (genesisChallenge : Bytes32) (le : pages ≤ last)
    : ∃ walk,
        Loop.after collectTurn replies (.start genesisChallenge) pages = .running walk := by
  induction pages with
  | zero => exact ⟨_, rfl⟩
  | succ pages ih =>
      obtain ⟨walk, running⟩ := ih (Nat.le_of_succ_le le)
      obtain ⟨page, answered, unfinished⟩ := h.reaches pages le
      refine ⟨walk.take page, ?_⟩
      rw [Loop.after_succ_of_running running, answered]
      have few : (walk.take page).states.length ≤ maxAccumulatedCoinStates := by
        rw [states_take running answered]
        exact Nat.le_trans (length_collected_mono (by omega)) h.few
      refine collectTurn_of_unfinished unfinished few ?_
      intro previous known
      cases pages with
      | zero =>
          cases running
          cases known
      | succ earlier =>
          -- The walk remembers the height of the page before, which the stream is above.
          obtain ⟨before, beforeAnswered, -⟩ := h.reaches earlier (by omega)
          rw [(collecting_invariant running).previous earlier before rfl beforeAnswered] at known
          cases known
          exact h.advances earlier before page (by omega) beforeAnswered answered

/-- The walk answers a stream that finishes in time with all of its pages. -/
theorem collect_of_finishes (h : FinishesAt replies last) (genesisChallenge : Bytes32)
    : Loop.after collectTurn replies (.start genesisChallenge) (last + 1)
      = .returned (.ok (collected replies (last + 1))) := by
  obtain ⟨walk, running⟩ := exists_collecting h genesisChallenge (Nat.le_refl last)
  obtain ⟨page, answered, finished⟩ := h.finished
  have taken := states_take running answered
  rw [Loop.after_succ_of_running running, answered, ← taken]
  exact collectTurn_of_finished finished (taken ▸ h.few)

/-- What the walk answers with, it collected up to a page that the stream finishes at. -/
theorem exists_finishesAt {turns : Nat} {all : List CoinState}
    (h
      : Loop.after collectTurn replies (.start genesisChallenge) turns = .returned (.ok all))
    (inTime : turns ≤ maxPuzzleStatePages)
    : ∃ last, FinishesAt replies last ∧ all = collected replies (last + 1) := by
  obtain ⟨last, bound, walk, running, ended⟩ := Loop.exists_turn_of_returned h
  obtain ⟨page, answered, finished, rfl, few⟩ := collectTurn_finished ended
  have taken := states_take running answered
  have found := collecting_invariant running
  refine ⟨last, ?_, taken⟩
  exact {
    inTime := Nat.lt_of_lt_of_le bound inTime
    reaches := found.reaches
    finished := ⟨page, answered, finished⟩
    few := taken ▸ few
    advances := found.advances
  }

/-- `collect_paged` returns exactly the pages of streams that finish before any bound is
violated.
-/
theorem collectPaged_returns_iff {all : List CoinState}
    : Loop.Returns (collectPaged genesisChallenge replies) (.ok all)
      ↔ ∃ last, FinishesAt replies last ∧ all = collected replies (last + 1) := by
  unfold collectPaged
  rw [Loop.returns_within_iff (by simp)]
  constructor
  · intro h
    exact exists_finishesAt h (Nat.le_refl _)
  · intro h
    obtain ⟨last, finishes, rfl⟩ := h
    exact Loop.after_returned_mono finishes.inTime (collect_of_finishes finishes genesisChallenge)

/-- Over every stream of pages, `collect_paged` walks them in order and within its bounds. -/
theorem collectPaged_walksInOrder (genesisChallenge : Bytes32)
    (replies : Nat → Reply PuzzleStatePage)
    : WalksInOrder genesisChallenge replies where
  ends := Loop.exists_within_returned _ _
  bounded := by
    intro requests late
    by_contra made
    obtain ⟨request, made⟩ := Option.ne_none_iff_exists'.mp made
    have inTime := (pageRequest_eq_some_iff.mp made).1
    omega
  first := rfl
  handsOver := fun _ _ made => pageRequest_succ made
  climbs := fun _ _ _ _ _ _ => pageRequest_climbs
  answers := fun _ => collectPaged_returns_iff
  few := by
    intro all returned
    obtain ⟨last, finishes, rfl⟩ := collectPaged_returns_iff.mp returned
    exact finishes.few

end LightClient

end ChiaQuery
