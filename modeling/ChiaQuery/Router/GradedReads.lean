import ChiaQuery.Router.Ladders

/-! The router's graded reads and what a reported contradiction does to them. A ladder takes
every failed attempt for a silent one, so a contradiction only fails the read when nothing
asked afterwards answers it.
-/

namespace ChiaQuery

/-- What a population read asks the peers and coinset. -/
inductive SetQuestion where
  | hint (hint : String)
  | hints (hints : List String)
  | names (names : List String)
  | puzzleHash (puzzleHash : String)
  | puzzleHashes (puzzleHashes : List String)
  | children (parentId : String)
  deriving DecidableEq, Repr

/-- `CoinSpendWithConditions`, for any rendering of a condition. -/
structure CoinSpendWithConditions (κ : Type) where
  coinSpend : CoinSpend
  conditions : List κ

/-- What the tiers answer to each question a router asks them; a set question is asked once
for each round of a call, and each round has its own answers.
-/
structure Sources (κ : Type) where
  coinRecord : String → OptAttempts CoinRecord
  coinSpend : String → OptAttempts CoinSpend
  puzzleAndSolution : String → UInt32 → OptAttempts CoinSpend
  puzzleAndSolutionWithConditions
    : String → Option UInt32 → Except ChiaQueryError (CoinSpendWithConditions κ)
  runPuzzleConditions : CoinSpend → List κ
  blockRecord : UInt32 → OptAttempts BlockRecord
  sets : SetQuestion → SetProjection → Nat → SetAttempts

/-- Tiers of which none answers anything. -/
def Sources.silent {κ : Type} : Sources κ where
  coinRecord _ := .silent
  coinSpend _ := .silent
  puzzleAndSolution _ _ := .silent
  puzzleAndSolutionWithConditions _ _ := .error .peerDiscoveryFailed
  runPuzzleConditions _ := []
  blockRecord _ := .silent
  sets _ _ _ := .silent

/-- `Option::ok_or` after `?`: an absence becomes the given failure. -/
def okOr {α : Type*} (outcome : Except ChiaQueryError (Option α)) (failure : ChiaQueryError)
    : Except ChiaQueryError α :=
  match outcome with
  | .ok (some value) => .ok value
  | .ok none => .error failure
  | .error error => .error error

namespace QueryRouter

variable {κ : Type} (fallback : Bool) (sources : Sources κ)

/-- `get_coin_record_by_name_opt`. -/
def getCoinRecordByNameOpt (name : String) : Except ChiaQueryError (Option CoinRecord) :=
  peerThenCoinsetOpt fallback (sources.coinRecord name)

/-- `get_coin_record_by_name`. -/
def getCoinRecordByName (name : String) : Except ChiaQueryError CoinRecord :=
  okOr (getCoinRecordByNameOpt fallback sources name)
    (.peerRejection s!"no coin record for {name}")

/-- `get_coin_spend_opt`. -/
def getCoinSpendOpt (coinId : String) : Except ChiaQueryError (Option CoinSpend) :=
  peerThenCoinsetOpt fallback (sources.coinSpend coinId)

/-- `get_block_record_by_height_opt`. -/
def getBlockRecordByHeightOpt (height : UInt32)
    : Except ChiaQueryError (Option BlockRecord) :=
  peerThenCoinsetOpt fallback (sources.blockRecord height)

/-- `get_block_record_by_height`. -/
def getBlockRecordByHeight (height : UInt32) : Except ChiaQueryError BlockRecord :=
  okOr (getBlockRecordByHeightOpt fallback sources height)
    (.peerRejection s!"no block record at height {height}")

/-- `block_timestamp_opt`. -/
def blockTimestampOpt (height : UInt32) : Except ChiaQueryError (Option UInt64) :=
  (getBlockRecordByHeightOpt fallback sources height).map
    (fun record => record.bind BlockRecord.timestamp)

/-- The ladder `get_puzzle_and_solution` goes through: at a given height, or at the height
the coin-spend read resolves.
-/
def puzzleAndSolutionAttempts (coinId : String) (height : Option UInt32)
    : OptAttempts CoinSpend :=
  match height with
  | some height => sources.puzzleAndSolution coinId height
  | none => sources.coinSpend coinId

/-- `get_puzzle_and_solution`. -/
def getPuzzleAndSolution (coinId : String) (height : Option UInt32)
    : Except ChiaQueryError CoinSpend :=
  okOr
    (match height with
    | some height => peerThenCoinsetOpt fallback (sources.puzzleAndSolution coinId height)
    | none => getCoinSpendOpt fallback sources coinId)
    (.peerRejection s!"no spend for coin {coinId}: it is unknown or unspent")

/-- `get_puzzle_and_solution_with_conditions`. -/
def getPuzzleAndSolutionWithConditions (coinId : String) (height : Option UInt32)
    : Except ChiaQueryError (CoinSpendWithConditions κ) :=
  match getPuzzleAndSolution fallback sources coinId height with
  | .error _ =>
      if fallback then sources.puzzleAndSolutionWithConditions coinId height
      else .error (.peerRejection "could not retrieve puzzle and solution")
  | .ok coinSpend =>
      .ok { coinSpend, conditions := sources.runPuzzleConditions coinSpend }

/-- One graded round of a population read, the `round`-th of its call. -/
def setRound (question : SetQuestion) (projection : SetProjection) (round : Nat)
    : Except ChiaQueryError (CorroboratedSet CoinRecord) :=
  peerThenCoinsetSet fallback (sources.sets question projection round) projection

/-- `get_coin_records_by_hint_graded`. -/
def getCoinRecordsByHintGraded (hint : String) (projection : SetProjection)
    : Except ChiaQueryError (CorroboratedSet CoinRecord) :=
  setRound fallback sources (.hint hint) projection 0

/-- `get_coin_records_by_hints_graded`. -/
def getCoinRecordsByHintsGraded (hints : List String) (projection : SetProjection)
    : Except ChiaQueryError (CorroboratedSet CoinRecord) :=
  setRound fallback sources (.hints hints) projection 0

/-- `get_coin_records_by_names_graded`. -/
def getCoinRecordsByNamesGraded (names : List String) (projection : SetProjection)
    : Except ChiaQueryError (CorroboratedSet CoinRecord) :=
  setRound fallback sources (.names names) projection 0

/-- `get_coin_records_by_puzzle_hash_graded`. -/
def getCoinRecordsByPuzzleHashGraded (puzzleHash : String) (projection : SetProjection)
    : Except ChiaQueryError (CorroboratedSet CoinRecord) :=
  setRound fallback sources (.puzzleHash puzzleHash) projection 0

/-- `get_coin_records_by_puzzle_hashes_graded`. -/
def getCoinRecordsByPuzzleHashesGraded (puzzleHashes : List String)
    (projection : SetProjection)
    : Except ChiaQueryError (CorroboratedSet CoinRecord) :=
  setRound fallback sources (.puzzleHashes puzzleHashes) projection 0

/-- The rounds of a parent-ids read, one for each id in order. -/
def childRounds (parentIds : List String) (projection : SetProjection)
    : List (Except ChiaQueryError (CorroboratedSet CoinRecord)) :=
  parentIds.zipIdx.map (fun (parentId, round) =>
    setRound fallback sources (.children parentId) projection round)

/-- The loop of `get_coin_records_by_parent_ids_graded`, from what it has collected. -/
def mergeRounds (items : List CoinRecord) (asOfHeight : UInt32)
    : List (Except ChiaQueryError (CorroboratedSet CoinRecord))
      → Except ChiaQueryError (List CoinRecord × UInt32)
  | [] => .ok (items, asOfHeight)
  | .error failure :: _ => .error failure
  | .ok answer :: rest =>
      mergeRounds (items ++ answer.items) (min asOfHeight answer.asOfHeight) rest

/-- `u32::MAX`. -/
def maxHeight : UInt32 := 4294967295

/-- `get_coin_records_by_parent_ids_graded`. -/
def getCoinRecordsByParentIdsGraded (parentIds : List String) (projection : SetProjection)
    : Except ChiaQueryError (CorroboratedSet CoinRecord) :=
  (mergeRounds [] maxHeight (childRounds fallback sources parentIds projection)).map
    (fun (items, asOfHeight) =>
      { items, asOfHeight := if parentIds.isEmpty then 0 else asOfHeight })

end QueryRouter

------------------------------------------------------------------------------------------
-- The graded reads and what a contradiction leaves of them
------------------------------------------------------------------------------------------

/-- The router's population reads. -/
inductive SetRead where
  | byHint (hint : String)
  | byHints (hints : List String)
  | byNames (names : List String)
  | byPuzzleHash (puzzleHash : String)
  | byPuzzleHashes (puzzleHashes : List String)
  | byParentIds (parentIds : List String)
  deriving DecidableEq, Repr

namespace SetRead

open QueryRouter

variable {κ : Type}

/-- The graded form of a population read. -/
def graded (fallback : Bool) (sources : Sources κ) (read : SetRead)
    (projection : SetProjection)
    : Except ChiaQueryError (CorroboratedSet CoinRecord) :=
  match read with
  | byHint hint => getCoinRecordsByHintGraded fallback sources hint projection
  | byHints hints => getCoinRecordsByHintsGraded fallback sources hints projection
  | byNames names => getCoinRecordsByNamesGraded fallback sources names projection
  | byPuzzleHash puzzleHash =>
      getCoinRecordsByPuzzleHashGraded fallback sources puzzleHash projection
  | byPuzzleHashes puzzleHashes =>
      getCoinRecordsByPuzzleHashesGraded fallback sources puzzleHashes projection
  | byParentIds parentIds =>
      getCoinRecordsByParentIdsGraded fallback sources parentIds projection

/-- The fail-closed wrapper (`get_coin_records_by_hint` and its siblings) of a graded read,
which drops the height.
-/
def ungraded (fallback : Bool) (sources : Sources κ) (read : SetRead)
    (projection : SetProjection)
    : Except ChiaQueryError (List CoinRecord) :=
  (read.graded fallback sources projection).map CorroboratedSet.items

/-- The questions a population read asks, in order. -/
def questions : SetRead → List SetQuestion
  | byHint hint => [.hint hint]
  | byHints hints => [.hints hints]
  | byNames names => [.names names]
  | byPuzzleHash puzzleHash => [.puzzleHash puzzleHash]
  | byPuzzleHashes puzzleHashes => [.puzzleHashes puzzleHashes]
  | byParentIds parentIds => parentIds.map .children

/-- What the tiers answer to the rounds of a population read. -/
def attempts (sources : Sources κ) (read : SetRead) (projection : SetProjection)
    : List SetAttempts :=
  read.questions.zipIdx.map (fun (question, round) =>
    sources.sets question projection round)

end SetRead

/-- The router's reads that go through a graded ladder. -/
inductive GradedRead where
  | coinRecordByNameOpt (name : String)
  | coinRecordByName (name : String)
  | coinSpendOpt (coinId : String)
  | blockRecordByHeightOpt (height : UInt32)
  | blockRecordByHeight (height : UInt32)
  | blockTimestampOpt (height : UInt32)
  | puzzleAndSolution (coinId : String) (height : Option UInt32)
  | puzzleAndSolutionWithConditions (coinId : String) (height : Option UInt32)
  | gradedSet (read : SetRead) (projection : SetProjection)
  | set (read : SetRead) (projection : SetProjection)
  deriving DecidableEq, Repr

namespace GradedRead

open QueryRouter

variable {κ : Type}

/-- What a read answers with. -/
def Answer (κ : Type) : GradedRead → Type
  | coinRecordByNameOpt _ => Option CoinRecord
  | coinRecordByName _ => CoinRecord
  | coinSpendOpt _ => Option CoinSpend
  | blockRecordByHeightOpt _ => Option BlockRecord
  | blockRecordByHeight _ => BlockRecord
  | blockTimestampOpt _ => Option UInt64
  | puzzleAndSolution _ _ => CoinSpend
  | puzzleAndSolutionWithConditions _ _ => CoinSpendWithConditions κ
  | gradedSet _ _ => CorroboratedSet CoinRecord
  | set _ _ => List CoinRecord

/-- The router method behind a read. -/
def run (fallback : Bool) (sources : Sources κ)
    : (read : GradedRead) → Except ChiaQueryError (read.Answer κ)
  | coinRecordByNameOpt name => getCoinRecordByNameOpt fallback sources name
  | coinRecordByName name => getCoinRecordByName fallback sources name
  | coinSpendOpt coinId => getCoinSpendOpt fallback sources coinId
  | blockRecordByHeightOpt height => getBlockRecordByHeightOpt fallback sources height
  | blockRecordByHeight height => getBlockRecordByHeight fallback sources height
  | blockTimestampOpt height =>
      QueryRouter.blockTimestampOpt fallback sources height
  | puzzleAndSolution coinId height => getPuzzleAndSolution fallback sources coinId height
  | puzzleAndSolutionWithConditions coinId height =>
      getPuzzleAndSolutionWithConditions fallback sources coinId height
  | gradedSet read projection => read.graded fallback sources projection
  | set read projection => read.ungraded fallback sources projection

/-- Whether a peer attempt behind a read reported a contradiction. -/
def contradicted (sources : Sources κ) : GradedRead → Bool
  | coinRecordByNameOpt name | coinRecordByName name =>
      (sources.coinRecord name).contradicted
  | coinSpendOpt coinId => (sources.coinSpend coinId).contradicted
  | blockRecordByHeightOpt height | blockRecordByHeight height
  | blockTimestampOpt height => (sources.blockRecord height).contradicted
  | puzzleAndSolution coinId height | puzzleAndSolutionWithConditions coinId height =>
      (puzzleAndSolutionAttempts sources coinId height).contradicted
  | gradedSet read projection | set read projection =>
      (read.attempts sources projection).any SetAttempts.contradicted

/-- Whether the tiers answer a contradicted read all the same: a later source of its ladder
answers, and for a parent-ids read some source of every round does.
-/
def answeredAnyway (fallback : Bool) (sources : Sources κ) : GradedRead → Bool
  | coinRecordByNameOpt name =>
      (sources.coinRecord name).answeredLater fallback false
  | coinRecordByName name => (sources.coinRecord name).answeredLater fallback true
  | coinSpendOpt coinId => (sources.coinSpend coinId).answeredLater fallback false
  | blockRecordByHeightOpt height | blockTimestampOpt height =>
      (sources.blockRecord height).answeredLater fallback false
  | blockRecordByHeight height =>
      (sources.blockRecord height).answeredLater fallback true
  | puzzleAndSolution coinId height =>
      (puzzleAndSolutionAttempts sources coinId height).answeredLater fallback true
  | puzzleAndSolutionWithConditions coinId height =>
      (puzzleAndSolutionAttempts sources coinId height).answeredLater fallback true
      || (fallback && (sources.puzzleAndSolutionWithConditions coinId height).isOk)
  | gradedSet read projection | set read projection =>
      (read.attempts sources projection).all (fun attempts =>
        attempts.answers fallback projection)

end GradedRead

------------------------------------------------------------------------------------------
-- Whether a single answer is Ok
------------------------------------------------------------------------------------------

theorem okOr_isOk {α : Type*} (outcome : Except ChiaQueryError (Option α))
    (failure : ChiaQueryError)
    : (okOr outcome failure).isOk = answersAs true outcome := by
  rcases outcome with _ | (_ | _) <;> rfl

theorem answersAs_false {α : Type*} (outcome : Except ChiaQueryError (Option α))
    : answersAs false outcome = outcome.isOk := by
  rcases outcome with _ | (_ | _) <;> rfl

theorem map_isOk {α β : Type*} (outcome : Except ChiaQueryError α) (f : α → β)
    : (outcome.map f).isOk = outcome.isOk := by
  cases outcome <;> rfl

/-- A disagreement is a failure. -/
theorem not_isOk_of_reportsDisagreement {α : Type*} {outcome : Except ChiaQueryError α}
    (h : reportsDisagreement outcome = true)
    : outcome.isOk = false := by
  cases outcome with
  | error failure => rfl
  | ok value => cases h

theorem OptAttempts.first_failed {α : Type*} {attempts : OptAttempts α}
    (h : attempts.contradicted = true)
    : attempts.first.isOk = false := by
  rcases Bool.or_eq_true_iff.mp h with hfirst | hretry
  · exact not_isOk_of_reportsDisagreement hfirst
  · simpa using (Bool.and_eq_true_iff.mp hretry).1

namespace QueryRouter

variable {κ : Type}

------------------------------------------------------------------------------------------
-- Reads that merge several rounds
------------------------------------------------------------------------------------------

/-- The loop over the rounds succeeds exactly when every round does, with what the rounds
returned put together. Induction on the rounds, generalised over what is collected.
-/
theorem mergeRounds_eq_ok_iff {items : List CoinRecord} {asOfHeight : UInt32}
    {rounds : List (Except ChiaQueryError (CorroboratedSet CoinRecord))}
    {merged : List CoinRecord × UInt32}
    : mergeRounds items asOfHeight rounds = .ok merged
      ↔ ∃ answers : List (CorroboratedSet CoinRecord),
          rounds = answers.map .ok
          ∧ merged
            = (items ++ answers.flatMap CorroboratedSet.items,
                (answers.map CorroboratedSet.asOfHeight).foldl min asOfHeight) := by
  induction rounds generalizing items asOfHeight with
  | nil =>
      constructor
      · intro h
        exact ⟨[], rfl, by simpa [mergeRounds] using h.symm⟩
      · rintro ⟨answers, hrounds, rfl⟩
        cases List.map_eq_nil_iff.mp hrounds.symm
        simp [mergeRounds]
  | cons round rest ih =>
      cases round with
      | error failure =>
          constructor
          · intro h
            cases h
          · rintro ⟨answers, hrounds, -⟩
            cases answers <;> cases hrounds
      | ok answer =>
          rw [mergeRounds, ih]
          constructor
          · rintro ⟨answers, rfl, rfl⟩
            exact ⟨answer :: answers, rfl, by simp⟩
          · rintro ⟨answers, hrounds, rfl⟩
            cases answers with
            | nil => cases hrounds
            | cons head tail =>
                simp only [List.map_cons, List.cons.injEq, Except.ok.injEq] at hrounds
                obtain ⟨rfl, rfl⟩ := hrounds
                exact ⟨tail, rfl, by simp⟩

theorem mergeRounds_isOk (items : List CoinRecord) (asOfHeight : UInt32)
    (rounds : List (Except ChiaQueryError (CorroboratedSet CoinRecord)))
    : (mergeRounds items asOfHeight rounds).isOk = rounds.all Except.isOk := by
  induction rounds generalizing items asOfHeight with
  | nil => rfl
  | cons round rest ih =>
      cases round with
      | error failure => rfl
      | ok answer => simpa [mergeRounds, Except.isOk, Except.toBool] using ih _ _

end QueryRouter

namespace SetRead

open QueryRouter

variable {κ : Type}

/-- A population read succeeds exactly when some tier answers each of its rounds. -/
theorem graded_isOk (fallback : Bool) (sources : Sources κ) (read : SetRead)
    (projection : SetProjection)
    : (read.graded fallback sources projection).isOk
      = (read.attempts sources projection).all (fun attempts =>
          attempts.answers fallback projection) := by
  have hsingle (question : SetQuestion)
      : (setRound fallback sources question projection 0).isOk
        = [sources.sets question projection 0].all (fun attempts =>
            attempts.answers fallback projection) := by
    simp [setRound, peerThenCoinsetSet_isOk]
  cases read with
  | byHint hint => exact hsingle _
  | byHints hints => exact hsingle _
  | byNames names => exact hsingle _
  | byPuzzleHash puzzleHash => exact hsingle _
  | byPuzzleHashes puzzleHashes => exact hsingle _
  | byParentIds parentIds =>
      simp only [graded, getCoinRecordsByParentIdsGraded, map_isOk, mergeRounds_isOk,
        childRounds, attempts, questions, List.all_map, List.zipIdx_map, Function.comp_def,
        setRound, peerThenCoinsetSet_isOk, Prod.map_fst, Prod.map_snd, id_eq]

end SetRead

namespace GradedRead

open QueryRouter

variable {κ : Type}

------------------------------------------------------------------------------------------
-- Every graded read
------------------------------------------------------------------------------------------

theorem optional_isOk {α : Type*} [ChainClaim α] {fallback : Bool}
    {attempts : OptAttempts α} (h : attempts.contradicted = true)
    : (peerThenCoinsetOpt fallback attempts).isOk
      = attempts.answeredLater fallback false := by
  rw [← answersAs_false, peerThenCoinsetOpt_answersAs (OptAttempts.first_failed h)]

theorem required_isOk {α : Type*} [ChainClaim α] {fallback : Bool}
    {attempts : OptAttempts α} (h : attempts.contradicted = true)
    (failure : ChiaQueryError)
    : (okOr (peerThenCoinsetOpt fallback attempts) failure).isOk
      = attempts.answeredLater fallback true := by
  rw [okOr_isOk, peerThenCoinsetOpt_answersAs (OptAttempts.first_failed h)]

theorem getPuzzleAndSolution_isOk {fallback : Bool} {sources : Sources κ} {coinId : String}
    {height : Option UInt32}
    (h : (puzzleAndSolutionAttempts sources coinId height).contradicted = true)
    : (getPuzzleAndSolution fallback sources coinId height).isOk
      = (puzzleAndSolutionAttempts sources coinId height).answeredLater fallback true := by
  cases height with
  | none => exact required_isOk h _
  | some height => exact required_isOk h _

theorem getPuzzleAndSolutionWithConditions_isOk (fallback : Bool) (sources : Sources κ)
    (coinId : String) (height : Option UInt32)
    : (getPuzzleAndSolutionWithConditions fallback sources coinId height).isOk
      = ((getPuzzleAndSolution fallback sources coinId height).isOk
        || (fallback && (sources.puzzleAndSolutionWithConditions coinId height).isOk)) := by
  unfold getPuzzleAndSolutionWithConditions
  cases getPuzzleAndSolution fallback sources coinId height with
  | ok coinSpend => rfl
  | error failure => cases fallback <;> rfl

/-- A contradicted read returns an answer exactly when the tiers answer it anyway. Cases on
the read; every ladder has left its first attempt behind.
-/
theorem run_isOk_of_contradicted {fallback : Bool} {sources : Sources κ} {read : GradedRead}
    (h : read.contradicted sources = true)
    : (read.run fallback sources).isOk = read.answeredAnyway fallback sources := by
  cases read with
  | coinRecordByNameOpt name => exact optional_isOk h
  | coinRecordByName name => exact required_isOk h _
  | coinSpendOpt coinId => exact optional_isOk h
  | blockRecordByHeightOpt height => exact optional_isOk h
  | blockRecordByHeight height => exact required_isOk h _
  | blockTimestampOpt height => exact (map_isOk _ _).trans (optional_isOk h)
  | puzzleAndSolution coinId height => exact getPuzzleAndSolution_isOk h
  | puzzleAndSolutionWithConditions coinId height =>
      refine (getPuzzleAndSolutionWithConditions_isOk fallback sources coinId height).trans ?_
      rw [getPuzzleAndSolution_isOk h]
      rfl
  | gradedSet read projection => exact read.graded_isOk fallback sources projection
  | set read projection =>
      exact (map_isOk _ _).trans (read.graded_isOk fallback sources projection)

/-- A reported contradiction fails the read exactly when nothing asked after it answers. -/
theorem contradiction_fails_read_iff (fallback : Bool) (sources : Sources κ)
    (read : GradedRead)
    : (read.contradicted sources = true
        → ∃ failure, read.run fallback sources = .error failure)
      ↔ ¬(read.contradicted sources = true
          ∧ read.answeredAnyway fallback sources = true) := by
  constructor
  · intro hfails both
    obtain ⟨hcontradicted, hanswered⟩ := both
    obtain ⟨failure, hfailure⟩ := hfails hcontradicted
    rw [← run_isOk_of_contradicted hcontradicted, hfailure] at hanswered
    cases hanswered
  · intro hquiet hcontradicted
    cases hrun : read.run fallback sources with
    | error failure => exact ⟨failure, rfl⟩
    | ok answer =>
        refine absurd ⟨hcontradicted, ?_⟩ hquiet
        rw [← run_isOk_of_contradicted hcontradicted, hrun]
        rfl

/-- Two peers contradict each other on a coin record, no peer is left to retry, and coinset's
lone answer is returned in place of the contradiction.
-/
theorem contradiction_answered
    : ¬ ∀ (fallback : Bool) (sources : Sources Unit) (read : GradedRead),
        read.contradicted sources = true
        → ∃ failure, read.run fallback sources = .error failure := by
  intro claim
  let disagreement : Except ChiaQueryError (OptAnswer CoinRecord) :=
    .error (.sourcesDisagree "peer 10.0.0.1:8444 reports present, peer 10.0.0.2:8444 absent")
  let record := PeerBackend.sampleRecord 1 50 none
  let sources : Sources Unit :=
    { Sources.silent with
      coinRecord := fun _ =>
        {
          first := disagreement,
          retry := .error (.peerConnection "no peers available"),
          coinset := .ok (some record)
        } }
  obtain ⟨failure, hfailure⟩ := claim true sources (.coinRecordByName "0xaa") rfl
  have hanswer
      : (GradedRead.coinRecordByName "0xaa").run true sources = .ok record := by
    rfl
  rw [hanswer] at hfailure
  cases hfailure

end GradedRead

end ChiaQuery
