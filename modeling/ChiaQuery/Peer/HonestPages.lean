import ChiaQuery.Peer.HonestHistory
import ChiaQuery.Peer.PuzzleQuery
import ChiaQuery.Peer.SetSoundness
import ChiaQuery.Router.LoweredHeights

/-! What the pages of an honest node add up to. Between two pages the node may learn of further
blocks, and a coin that is spent meanwhile is listed twice. What a walk collects up to a last page
still tells the chain as it stood at every height up to that page's.
-/

namespace ChiaQuery

open ChiaQuery.Library

/-- A read of one peer fails, or makes the claims of the chain at every height up to the one that
its answer is dated at.
-/
def TellsHistory (history : History) (read : Except ChiaQueryError (HeightedSet CoinRecord))
    : Prop :=
  ∀ set,
    read = .ok set
    → ∀ height ≤ set.asOfHeight,
        PeerBackend.claimsAt set height = fingerprint (history.snapshot height)

namespace ChainCoin

/-- What a node at a tip reports of a coin. -/
def stateAt (known : ChainCoin) (tip : UInt32) : CoinState where
  coin := known.coin
  createdHeight := some known.created
  spentHeight := known.spent.filter (fun spent => spent ≤ tip)

/-- Where a coin changed last, as far as a node at a tip knows. -/
def lastChange (known : ChainCoin) (tip : UInt32) : UInt32 :=
  (known.spent.filter (fun spent => spent ≤ tip)).getD known.created

end ChainCoin

/-- A page of an honest node at a tip that is asked to go on behind a height: it reports the coins
which changed last behind that height and no higher than the page's, and is the last one only at
the tip.
-/
structure HonestPage (history : History) (previous : Option UInt32) (tip : UInt32)
    (page : PuzzleStatePage)
    : Prop where
  states
    : ∀ state,
        state ∈ page.coinStates
        ↔ ∃ known ∈ history.coins,
            (∀ height ∈ previous, height < known.lastChange tip)
            ∧ known.lastChange tip ≤ page.height
            ∧ known.stateAt tip = state
  finished : page.isFinished = true → page.height = tip
  known : page.height ≤ tip

/-- The replies of an honest node to the requests of a walk. Its tip, which rises, is `tips index`
when it answers the request of that number.
-/
structure HonestReplies (history : History) (genesisChallenge : Bytes32)
    (replies : Nat → Reply PuzzleStatePage) (tips : Nat → UInt32)
    : Prop where
  rises : ∀ index, tips index ≤ tips (index + 1)
  pages
    : ∀ index walk page,
        Loop.after PeerBackend.queryTurn replies (.start genesisChallenge) index = .running walk
        → replies index = .answered page
        → HonestPage history walk.previousHeight (tips index) page

------------------------------------------------------------------------------------------
-- Coins between two tips
------------------------------------------------------------------------------------------

section Coins

variable {history : History} {known : ChainCoin} {tip later height : UInt32}

theorem coinStateToRecord_stateAt (known : ChainCoin) (tip : UInt32)
    : coinStateToRecord (known.stateAt tip) = known.recordAt tip :=
  rfl

theorem identity_recordAt (known : ChainCoin) (tip later : UInt32)
    : identity (known.recordAt tip) = identity (known.recordAt later) :=
  rfl

/-- A spend that the node learns of is the last change from then on, so what last changed by an
earlier tip has not changed since.
-/
theorem spent_of_lastChange_le (rises : tip ≤ later) (settled : known.lastChange later ≤ tip)
    : known.spent.filter (fun spent => spent ≤ tip)
      = known.spent.filter (fun spent => spent ≤ later) := by
  unfold ChainCoin.lastChange at settled
  cases seen : known.spent with
  | none => rfl
  | some spent =>
      rw [seen] at settled
      by_cases known : spent ≤ later
      · have last : spent ≤ tip := by simpa [Option.filter, known] using settled
        simp [Option.filter, known, last]
      · have unknown : ¬ spent ≤ tip := fun early => known (Std.le_trans early rises)
        simp [Option.filter, known, unknown]

theorem recordAt_of_lastChange_le (rises : tip ≤ later)
    (settled : known.lastChange later ≤ tip)
    : known.recordAt tip = known.recordAt later := by
  simp only [ChainCoin.recordAt, spent_of_lastChange_le rises settled]

theorem lastChange_of_lastChange_le (rises : tip ≤ later)
    (settled : known.lastChange later ≤ tip)
    : known.lastChange tip = known.lastChange later := by
  simp only [ChainCoin.lastChange, spent_of_lastChange_le rises settled]

/-- No coin that a node knows changed behind its tip. -/
theorem lastChange_le (created : known.created ≤ tip) : known.lastChange tip ≤ tip := by
  unfold ChainCoin.lastChange
  cases seen : known.spent.filter (fun spent => spent ≤ tip) with
  | none => exact created
  | some spent => exact of_decide_eq_true (Option.filter_eq_some_iff.mp seen).2

/-- The coins of a history are told apart by their records. -/
theorem known_of_identity {other : ChainCoin} (listed : known ∈ history.coins)
    (otherListed : other ∈ history.coins)
    (same : identity (other.recordAt tip) = identity (known.recordAt later))
    : other = known :=
  List.inj_on_of_nodup_map history.distinct otherListed listed
    (identity_fromProtocol_injective same)

end Coins

------------------------------------------------------------------------------------------
-- What a walk has covered
------------------------------------------------------------------------------------------

/-- What the collected states claim of each coin at a height. -/
def heldClaims (states : List CoinState) (height : UInt32) : Fingerprint :=
  fingerprint (normaliseAt (coinStatesToRecords states) height)

/-- The states claim last, of every coin that changed last up to `reached`, what a node at the tip
reports of it.
-/
def Covers (history : History) (states : List CoinState) (reached tip : UInt32) : Prop :=
  ∀ known ∈ history.coins,
    known.lastChange tip ≤ reached
    → ∀ height,
        known.created ≤ height
        → (heldClaims states height)[identity (known.recordAt tip)]?
          = some (chainClaim (heldAt height (known.recordAt tip)))

/-- The states are ones that a node has reported. -/
def Genuine (history : History) (states : List CoinState) : Prop :=
  ∀ state ∈ states, ∃ known ∈ history.coins, ∃ tip, known.stateAt tip = state

section Pages

variable {history : History} {states : List CoinState} {previous : Option UInt32}
  {page : PuzzleStatePage} {tip height : UInt32}

theorem heldClaims_append (states later : List CoinState) (height : UInt32) (coin : String)
    : (heldClaims (states ++ later) height)[coin]?
      = (heldClaims later height)[coin]?.or (heldClaims states height)[coin]? := by
  unfold heldClaims coinStatesToRecords normaliseAt
  rw [List.map_append, List.filter_append, List.map_append]
  exact getElem?_collectBy_append _ _ _ _ _

theorem mem_normalised {record : CoinRecord}
    : record ∈ normaliseAt (coinStatesToRecords states) height
      ↔ ∃ state ∈ states,
          createdHeight (coinStateToRecord state) ≤ height
          ∧ heldAt height (coinStateToRecord state) = record := by
  rw [mem_normaliseAt]
  simp [coinStatesToRecords]

theorem HonestPage.genuine (honest : HonestPage history previous tip page)
    : Genuine history page.coinStates := by
  intro state member
  obtain ⟨known, listed, -, -, same⟩ := (honest.states state).mp member
  exact ⟨known, listed, tip, same⟩

/-- What a page claims of a coin of the history, if the page reports it. -/
theorem HonestPage.exists_of_claim (honest : HonestPage history previous tip page)
    {record : CoinRecord}
    (member : record ∈ normaliseAt (coinStatesToRecords page.coinStates) height)
    {known : ChainCoin} (listed : known ∈ history.coins)
    (same : identity record = identity (known.recordAt tip))
    : record = heldAt height (known.recordAt tip)
      ∧ ∀ behind ∈ previous, behind < known.lastChange tip := by
  obtain ⟨state, reported, -, rfl⟩ := mem_normalised.mp member
  obtain ⟨other, otherListed, recent, -, rfl⟩ := (honest.states state).mp reported
  rw [identity_heldAt, coinStateToRecord_stateAt] at same
  cases known_of_identity listed otherListed same
  exact ⟨rfl, recent⟩

/-- A coin that the page reports is claimed as the node knows it. -/
theorem HonestPage.claims_of_recent (honest : HonestPage history previous tip page)
    {known : ChainCoin} (listed : known ∈ history.coins)
    (recent : ∀ behind ∈ previous, behind < known.lastChange tip)
    (changed : known.lastChange tip ≤ page.height) (created : known.created ≤ height)
    : (heldClaims page.coinStates height)[identity (known.recordAt tip)]?
      = some (chainClaim (heldAt height (known.recordAt tip))) := by
  have reported : known.stateAt tip ∈ page.coinStates :=
    (honest.states _).mpr ⟨known, listed, recent, changed, rfl⟩
  have member : heldAt height (known.recordAt tip)
      ∈ normaliseAt (coinStatesToRecords page.coinStates) height :=
    mem_normalised.mpr ⟨known.stateAt tip, reported, created, rfl⟩
  have named : identity (heldAt height (known.recordAt tip)) = identity (known.recordAt tip) :=
    identity_heldAt height _
  rw [← named]
  apply collectBy_eq_some_of_mem member
  intro other otherMember same
  rw [(honest.exists_of_claim otherMember listed (same.trans named)).1]

/-- A coin that changed last no higher than the height the page goes on behind is not claimed. -/
theorem HonestPage.no_claim (honest : HonestPage history previous tip page)
    {known : ChainCoin} (listed : known ∈ history.coins) {behind : UInt32}
    (held : behind ∈ previous) (settled : known.lastChange tip ≤ behind)
    : (heldClaims page.coinStates height)[identity (known.recordAt tip)]? = none := by
  rw [← Option.not_isSome_iff_eq_none]
  intro claimed
  obtain ⟨record, member, same⟩ := collectBy_isSome_iff.mp claimed
  have recent := (honest.exists_of_claim member listed same).2 behind held
  exact Std.not_le.mpr recent settled

/-- The next page covers what changed since: a coin that it does not report has not changed since
it was covered.
-/
theorem Covers.take {walk : PuzzleWalk}
    (honest : HonestPage history walk.previousHeight tip page)
    (before
      : ∀ reached ∈ walk.previousHeight,
          ∃ earlier,
            reached ≤ earlier ∧ earlier ≤ tip ∧ Covers history walk.states reached earlier)
    : Covers history (walk.take page).states page.height tip := by
  intro known listed changed height created
  have pages : (walk.take page).states = walk.states ++ page.coinStates := rfl
  rw [pages, heldClaims_append]
  by_cases recent : ∀ reached ∈ walk.previousHeight, reached < known.lastChange tip
  · rw [honest.claims_of_recent listed recent changed created, Option.some_or]
  · push Not at recent
    obtain ⟨reached, held, late⟩ := recent
    have settled := Std.not_lt.mp late
    obtain ⟨earlier, knew, rises, covers⟩ := before reached held
    have unchanged := Std.le_trans settled knew
    have claimed := covers known listed
      ((lastChange_of_lastChange_le rises unchanged).trans_le settled) height created
    rw [recordAt_of_lastChange_le rises unchanged] at claimed
    rw [honest.no_claim listed held settled, Option.none_or, claimed]

theorem Genuine.append {later : List CoinState} (genuine : Genuine history states)
    (more : Genuine history later)
    : Genuine history (states ++ later) := by
  intro state member
  rcases List.mem_append.mp member with earlier | added
  · exact genuine state earlier
  · exact more state added

/-- States that cover all the coins up to the tip make the claims of the snapshots below it. -/
theorem heldClaims_eq_snapshot (genuine : Genuine history states)
    (covers : Covers history states tip tip) (below : height ≤ tip)
    : heldClaims states height = fingerprint (history.snapshot height) := by
  have once : OneValueEach identity chainClaim (history.snapshot height) := by
    intro left leftHeld right rightHeld same
    rw [snapshot_identity_injective leftHeld rightHeld same]
  apply Std.ExtTreeMap.ext_getElem?
  intro coin
  cases told : (fingerprint (history.snapshot height))[coin]? with
  | some claim =>
      obtain ⟨record, member, rfl, rfl⟩ := exists_of_collectBy_eq_some told
      obtain ⟨known, listed, created, rfl⟩ := mem_snapshot.mp member
      have changed := lastChange_le (Std.le_trans created below)
      have claimed := covers known listed changed height created
      rw [heldAt_recordAt known below] at claimed
      exact claimed
  | none =>
      rw [← Option.not_isSome_iff_eq_none]
      intro claimed
      obtain ⟨record, member, rfl⟩ := collectBy_isSome_iff.mp claimed
      obtain ⟨state, reported, created, rfl⟩ := mem_normalised.mp member
      obtain ⟨known, listed, seen, rfl⟩ := genuine state reported
      have snapshot : known.recordAt height ∈ history.snapshot height :=
        mem_snapshot.mpr ⟨known, listed, created, rfl⟩
      have present := fingerprint_isSome_of_mem snapshot
      rw [identity_heldAt, coinStateToRecord_stateAt, identity_recordAt known seen height,
        ← Option.not_isSome_iff_eq_none] at told
      exact told present

end Pages

------------------------------------------------------------------------------------------
-- Walks
------------------------------------------------------------------------------------------

section Walks

variable {history : History} {genesisChallenge : Bytes32}
  {replies : Nat → Reply PuzzleStatePage} {tips : Nat → UInt32}

/-- What a walk has collected before the request of a number: it covers what it goes on behind. -/
structure WalkCovers (history : History) (tips : Nat → UInt32) (index : Nat) (walk : PuzzleWalk)
    : Prop where
  genuine : Genuine history walk.states
  covered
    : ∀ reached ∈ walk.previousHeight,
        ∃ earlier,
          reached ≤ earlier ∧ earlier ≤ tips index ∧ Covers history walk.states reached earlier

/-- By induction on the requests, along a walk that goes on. -/
theorem HonestReplies.walkCovers
    (honest : HonestReplies history genesisChallenge replies tips)
    : ∀ index walk,
        Loop.after PeerBackend.queryTurn replies (.start genesisChallenge) index = .running walk
        → WalkCovers history tips index walk := by
  intro index
  induction index with
  | zero =>
      intro walk running
      cases running
      constructor
      · exact fun _ absurd => nomatch absurd
      · exact fun _ absurd => nomatch absurd
  | succ index ih =>
      intro next running
      obtain ⟨walk, before, went⟩ := Loop.exists_turn_of_running running
      obtain ⟨page, answered, -, rfl⟩ := PeerBackend.queryTurn_running went
      have covers := ih walk before
      have given := honest.pages index walk page before answered
      refine ⟨covers.genuine.append given.genuine, ?_⟩
      intro reached held
      cases held
      exact ⟨tips index, given.known, honest.rises index, .take given covers.covered⟩

/-- What a walk over the pages of an honest node has collected when it ends tells the chain, though
the node has learned of further blocks between its pages.
-/
theorem HonestReplies.heldClaims_eq
    (honest : HonestReplies history genesisChallenge replies tips) {requests : Nat}
    {states : List CoinState} {asOfHeight height : UInt32}
    (returned
      : Loop.after PeerBackend.queryTurn replies (.start genesisChallenge) requests
        = .returned (.ok (states, asOfHeight)))
    (below : height ≤ asOfHeight)
    : heldClaims states height = fingerprint (history.snapshot height) := by
  obtain ⟨last, -, walk, running, stopped⟩ := Loop.exists_turn_of_returned returned
  obtain ⟨page, answered, finished, rfl, rfl⟩ := PeerBackend.queryTurn_finished stopped
  have covers := honest.walkCovers last walk running
  have given := honest.pages last walk page running answered
  have all := Covers.take given covers.covered
  rw [← given.finished finished] at all
  exact heldClaims_eq_snapshot (covers.genuine.append given.genuine) all below

/-- A finished walk that is answered with keeps its states and its height. -/
theorem tellsHistory_of_supportedSet {address : SocketAddr} {announced : Option UInt32}
    {walked : Except ChiaQueryError (List CoinState × UInt32)}
    (tells
      : ∀ states asOfHeight,
          walked = .ok (states, asOfHeight)
          → ∀ height ≤ asOfHeight,
              heldClaims states height = fingerprint (history.snapshot height))
    : TellsHistory history (PeerBackend.supportedSet address announced walked) := by
  intro set found height below
  obtain ⟨states, asOfHeight, rfl, -, rfl⟩ := PeerBackend.supportedSet_ok found
  exact tells states asOfHeight rfl height below

/-- A query to an honest node fails or tells the chain, however many pages the node answers with
and whatever it learns between them.
-/
theorem honest_pages_tell_history {address : SocketAddr} {announced : Option UInt32}
    {hashes : List String} (honest : HonestReplies history genesisChallenge replies tips)
    {requests : Nat} {result : Except ChiaQueryError (HeightedSet CoinRecord)}
    (returned
      : PeerBackend.doPuzzleHashQuery genesisChallenge address announced hashes replies requests
        = .returned result)
    : TellsHistory history result := by
  unfold PeerBackend.doPuzzleHashQuery at returned
  split at returned
  · cases returned
    exact fun _ absurd => nomatch absurd
  · obtain ⟨walked, ended, rfl⟩ := Loop.andThen_returned returned
    apply tellsHistory_of_supportedSet
    rintro states asOfHeight rfl height below
    exact honest.heldClaims_eq ended below

end Walks

------------------------------------------------------------------------------------------
-- A coin that is spent between two pages
------------------------------------------------------------------------------------------

/-- The page that a node at a tip answers with. -/
def History.pageAt (history : History) (previous : Option UInt32) (tip height : UInt32)
    : PuzzleStatePage where
  coinStates :=
    (history.coins.filter (fun known =>
      previous.all (fun behind => behind < known.lastChange tip)
        && known.lastChange tip ≤ height)).map (fun known => known.stateAt tip)
  height
  headerHash := 0
  isFinished := height = tip

theorem honest_pageAt {history : History} {previous : Option UInt32} {tip height : UInt32}
    (known : height ≤ tip)
    : HonestPage history previous tip (history.pageAt previous tip height) where
  states state := by
    simp [History.pageAt, List.mem_map, List.mem_filter, Option.all_eq_true, and_assoc]
  finished := of_decide_eq_true
  known := known

/-- A node at 100 that reports the changes up to 50, and at 103, where a coin that it has reported
has been spent, the others.
-/
def movingReplies : Nat → Reply PuzzleStatePage
  | 0 => .answered (PeerBackend.sampleHistory.pageAt none 100 50)
  | _ => .answered (PeerBackend.sampleHistory.pageAt (some 50) 103 103)

def movingTips : Nat → UInt32
  | 0 => 100
  | _ => 103

/-- What the walk over these pages comes to. -/
def movingWalk : Except ChiaQueryError (List CoinState × UInt32) :=
  .ok
    ((PeerBackend.sampleHistory.pageAt none 100 50).coinStates
      ++ (PeerBackend.sampleHistory.pageAt (some 50) 103 103).coinStates, 103)

theorem returns_movingReplies
    : Loop.after PeerBackend.queryTurn movingReplies (.start 0) 2 = .returned movingWalk := by
  rfl

theorem honest_movingReplies
    : HonestReplies PeerBackend.sampleHistory 0 movingReplies movingTips where
  rises index := by
    cases index with
    | zero => decide
    | succ index => exact Std.le_refl _
  pages := by
    intro index walk page running answered
    match index with
    | 0 =>
        cases running
        cases answered
        exact honest_pageAt (by decide)
    | 1 =>
        cases running
        cases answered
        exact honest_pageAt (by decide)
    | index + 2 =>
        rw [Loop.after_returned_mono (Nat.le_add_left 2 index) returns_movingReplies] at running
        cases running

/-- The coin that is spent between the pages is reported twice. -/
theorem honest_pages_tell_history_sample
    : ∃ set,
        PeerBackend.doPuzzleHashQuery 0 (sampleEntry 1).address (some 103) [hex32 2]
            movingReplies 2
          = .returned (.ok set)
        ∧ set.items.map CoinRecord.spent = [false, true, false]
        ∧ TellsHistory PeerBackend.sampleHistory (.ok set) := by
  have returned
      : PeerBackend.doPuzzleHashQuery 0 (sampleEntry 1).address (some 103) [hex32 2]
            movingReplies 2
        = .returned (PeerBackend.supportedSet (sampleEntry 1).address (some 103) movingWalk) := by
    unfold PeerBackend.doPuzzleHashQuery
    have parsed : [hex32 2].mapM parseBytes32 = .ok [2] :=
      mapM_eq_ok_iff.mpr (.cons (parseBytes32_hex32 2) .nil)
    rw [parsed]
    simp only [returns_movingReplies]
    rfl
  exact ⟨_, returned, rfl, honest_pages_tell_history honest_movingReplies returned⟩

end ChiaQuery
