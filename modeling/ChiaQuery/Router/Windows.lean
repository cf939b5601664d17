import ChiaQuery.Router.ParentIds

/-! Windows that have not settled. A peer round that is asked about one reports an
uncorroborated answer; whether the router still returns a set for it depends on what coinset
is asked and at which height.
-/

namespace ChiaQuery

open PeerBackend QueryRouter

/-- The inputs of one peer attempt at a population read. -/
structure PeerRound where
  views : PoolViews
  readAsked : Peer → Except ChiaQueryError (HeightedSet CoinRecord)
  readCorroborator : Peer → Except ChiaQueryError (HeightedSet CoinRecord)

/-- What the peers and coinset answer while one round of a population read is asked. -/
structure Exchange where
  first : PeerRound
  retry : PeerRound
  coinsetPeak : Except ChiaQueryError (Option UInt32)
  coinsetRaw : Except ChiaQueryError (List CoinRecord)

/-- The graded answer of one peer attempt. -/
def PeerRound.answer (round : PeerRound) (projection : SetProjection)
    : Except ChiaQueryError (SetAnswer CoinRecord) :=
  (readSetCorroborated round.views round.readAsked round.readCorroborator projection).result

/-- What the ladder of one round is given when its peer attempts are the rounds' answers. -/
def Exchange.attempts (exchange : Exchange) (projection : SetProjection) : SetAttempts where
  first := exchange.first.answer projection
  retry := exchange.retry.answer projection
  coinsetPeak := exchange.coinsetPeak
  coinsetRaw := exchange.coinsetRaw

/-- The sources behind population reads whose rounds are the given exchanges. -/
def Sources.ofExchanges {κ : Type} (exchanges : SetQuestion → Nat → Exchange) : Sources κ :=
  { Sources.silent with
    sets := fun question projection round => (exchanges question round).attempts projection }

namespace SetAttempts

/-- The height the tier that answers is held to, when one can answer. -/
def datedAt (attempts : SetAttempts) (projection : SetProjection) : Option UInt32 :=
  match attempts.first with
  | .ok answer => some answer.asOfHeight
  | .error _ =>
      match attempts.retry with
      | .ok answer => some answer.asOfHeight
      | .error _ => attempts.coinsetHeight projection

/-- Coinset cannot be what lets an unsettled window through: it is disabled, it fails, or
the height the answer is held to has reached the window.
-/
def WindowGuarded (fallback : Bool) (projection : SetProjection) (attempts : SetAttempts)
    : Prop :=
  fallback = false
  ∨ attempts.coinsetRaw.isOk = false
  ∨ ∀ height ∈ attempts.datedAt projection, windowHasSettled projection height = true

/-- A peer attempt never reports a corroborated set for an unsettled window. -/
def PeersSettled (projection : SetProjection) (attempts : SetAttempts) : Prop :=
  ∀ items height,
    attempts.first = .ok (.corroborated items height)
        ∨ attempts.retry = .ok (.corroborated items height)
    → windowHasSettled projection height = true

end SetAttempts

/-- The window check of the peer path. -/
theorem readSetCorroborated_settled {views : PoolViews}
    {readAsked readCorroborator : Peer → Except ChiaQueryError (HeightedSet CoinRecord)}
    {projection : SetProjection} {items : List CoinRecord} {height : UInt32}
    (h
      : (readSetCorroborated views readAsked readCorroborator projection).result
        = .ok (.corroborated items height))
    : windowHasSettled projection height = true := by
  obtain ⟨peer, asked, first, hpick, hread⟩ := exists_answer_of_readSetCorroborated h
  rw [readSetCorroborated_of_answer hpick hread] at h
  exact (corroborated_inv h).2.2.2

theorem Exchange.peersSettled (exchange : Exchange) (projection : SetProjection)
    : (exchange.attempts projection).PeersSettled projection := by
  intro items height h
  rcases h with h | h
  · exact readSetCorroborated_settled h
  · exact readSetCorroborated_settled h

namespace QueryRouter

/-- Settling an answer keeps the height it was held to. -/
theorem settleSetAnswer_asOfHeight {fallback : Bool} {answer : SetAnswer CoinRecord}
    {projection : SetProjection} {coinsetRaw : Except ChiaQueryError (List CoinRecord)}
    {set : CorroboratedSet CoinRecord}
    (h : settleSetAnswer fallback answer projection coinsetRaw = .ok set)
    : set.asOfHeight = answer.asOfHeight := by
  cases answer with
  | corroborated items height =>
      cases h
      rfl
  | uncorroborated items height =>
      cases fallback with
      | false => cases h
      | true =>
          cases coinsetRaw with
          | error failure => cases h
          | ok raw =>
              simp only [settleSetAnswer, consult, if_true, settleUncorroboratedSet] at h
              split at h
              · cases h
                rfl
              · cases h

/-- An uncorroborated answer is only settled by a coinset that is asked and answers. -/
theorem settleSetAnswer_needs_coinset {fallback : Bool} {items : List CoinRecord}
    {height : UInt32} {projection : SetProjection}
    {coinsetRaw : Except ChiaQueryError (List CoinRecord)} {set : CorroboratedSet CoinRecord}
    (h
      : settleSetAnswer fallback (.uncorroborated items height) projection coinsetRaw
        = .ok set)
    : fallback = true ∧ coinsetRaw.isOk = true := by
  cases fallback with
  | false => cases h
  | true =>
      cases coinsetRaw with
      | error failure => cases h
      | ok raw => exact ⟨rfl, rfl⟩

/-- What coinset alone returns is dated at coinset's own settled height. -/
theorem coinsetOnlySet_inv {attempts : SetAttempts} {projection : SetProjection}
    {peerError : ChiaQueryError} {set : CorroboratedSet CoinRecord}
    (h : coinsetOnlySet attempts projection peerError = .ok set)
    : attempts.coinsetHeight projection = some set.asOfHeight
      ∧ attempts.coinsetRaw.isOk = true := by
  unfold coinsetOnlySet at h
  split at h
  · cases h
  · cases h
  · rename_i peak hpeak
    split at h
    · cases h
    · rename_i height hheight
      split at h
      · cases h
      · rename_i raw hraw
        cases h
        exact ⟨by simp only [SetAttempts.coinsetHeight, hpeak, hheight], by rw [hraw]; rfl⟩

/-- What a ladder returns is dated at the height its answering tier is held to. -/
theorem peerThenCoinsetSet_datedAt {fallback : Bool} {attempts : SetAttempts}
    {projection : SetProjection} {set : CorroboratedSet CoinRecord}
    (h : peerThenCoinsetSet fallback attempts projection = .ok set)
    : attempts.datedAt projection = some set.asOfHeight := by
  unfold peerThenCoinsetSet at h
  split at h
  · rename_i answer hfirst
    simp only [SetAttempts.datedAt, hfirst, settleSetAnswer_asOfHeight h]
  · rename_i failure hfirst
    split at h
    · rename_i answer hretry
      simp only [SetAttempts.datedAt, hfirst, hretry, settleSetAnswer_asOfHeight h]
    · rename_i peerError hretry
      split at h
      · simp only [SetAttempts.datedAt, hfirst, hretry, (coinsetOnlySet_inv h).1]
      · cases h

/-- A peer answer that is settled is one for a settled window, unless coinset seconded it. -/
theorem settleSetAnswer_settled_or_coinset {fallback : Bool} {attempts : SetAttempts}
    {projection : SetProjection} {answer : SetAnswer CoinRecord}
    {set : CorroboratedSet CoinRecord} (hpeers : attempts.PeersSettled projection)
    (hattempt : attempts.first = .ok answer ∨ attempts.retry = .ok answer)
    (h : settleSetAnswer fallback answer projection attempts.coinsetRaw = .ok set)
    : windowHasSettled projection set.asOfHeight = true
      ∨ fallback = true ∧ attempts.coinsetRaw.isOk = true := by
  cases answer with
  | corroborated items height =>
      rw [settleSetAnswer_asOfHeight h]
      exact Or.inl (hpeers items height hattempt)
  | uncorroborated items height => exact Or.inr (settleSetAnswer_needs_coinset h)

/-- Past the peer path's own check only coinset can have answered for an unsettled window. -/
theorem peerThenCoinsetSet_settled_or_coinset {fallback : Bool} {attempts : SetAttempts}
    {projection : SetProjection} {set : CorroboratedSet CoinRecord}
    (hpeers : attempts.PeersSettled projection)
    (h : peerThenCoinsetSet fallback attempts projection = .ok set)
    : windowHasSettled projection set.asOfHeight = true
      ∨ fallback = true ∧ attempts.coinsetRaw.isOk = true := by
  unfold peerThenCoinsetSet at h
  split at h
  · rename_i answer hfirst
    exact settleSetAnswer_settled_or_coinset hpeers (Or.inl hfirst) h
  · split at h
    · rename_i answer hretry
      exact settleSetAnswer_settled_or_coinset hpeers (Or.inr hretry) h
    · split at h
      · rename_i hfallback
        exact Or.inr ⟨hfallback, (coinsetOnlySet_inv h).2⟩
      · cases h

/-- A round that returns a set returns one for a settled window exactly when it is guarded. -/
theorem peerThenCoinsetSet_settled_iff {fallback : Bool} {attempts : SetAttempts}
    {projection : SetProjection} {set : CorroboratedSet CoinRecord}
    (hpeers : attempts.PeersSettled projection)
    (h : peerThenCoinsetSet fallback attempts projection = .ok set)
    : windowHasSettled projection set.asOfHeight = true
      ↔ attempts.WindowGuarded fallback projection := by
  have hdated := peerThenCoinsetSet_datedAt h
  have hreached := peerThenCoinsetSet_settled_or_coinset hpeers h
  constructor
  · intro hsettled
    refine Or.inr (Or.inr ?_)
    rw [hdated]
    intro height hheight
    cases hheight
    exact hsettled
  · intro guarded
    rcases guarded with hoff | hraw | hheights
    · rcases hreached with hsettled | ⟨hon, -⟩
      · exact hsettled
      · rw [hoff] at hon
        cases hon
    · rcases hreached with hsettled | ⟨-, hok⟩
      · exact hsettled
      · rw [hraw] at hok
        cases hok
    · exact hheights set.asOfHeight hdated

/-- A window has settled at the lowest of some heights exactly when it has at all of them. -/
theorem windowHasSettled_foldl_min {projection : SetProjection} {heights : List UInt32}
    : windowHasSettled projection (heights.foldl min maxHeight) = true
      ↔ ∀ height ∈ heights, windowHasSettled projection height = true := by
  cases hstart : projection.startHeight with
  | none => simp [windowHasSettled, hstart]
  | some start =>
      simp only [windowHasSettled, hstart, Option.all_some, decide_eq_true_eq,
        le_foldl_min_iff, and_iff_right (le_maxHeight start)]

end QueryRouter

/-- A population read whose rounds all find an answer has coinset guarded in each of them,
and a read of no parents is about the window from height zero.
-/
def SetRead.WindowGuarded {κ : Type} (fallback : Bool) (sources : Sources κ)
    (read : SetRead) (projection : SetProjection)
    : Prop :=
  (read.questions = [] → windowHasSettled projection 0 = true)
  ∧ ((read.attempts sources projection).all (fun attempts =>
        attempts.answers fallback projection)
      = true
    → ∀ attempts ∈ read.attempts sources projection,
        attempts.WindowGuarded fallback projection)

section Reads

variable {κ : Type} {fallback : Bool} {projection : SetProjection}

theorem childRounds_eq (sources : Sources κ) (parentIds : List String)
    : childRounds fallback sources parentIds projection
      = ((SetRead.byParentIds parentIds).attempts sources projection).map
          (fun attempts => peerThenCoinsetSet fallback attempts projection) := by
  simp only [childRounds, SetRead.attempts, SetRead.questions, List.zipIdx_map,
    List.map_map, Function.comp_def, setRound, Prod.map_fst, Prod.map_snd, id_eq]

theorem attempts_peersSettled {exchanges : SetQuestion → Nat → Exchange} {read : SetRead}
    {attempts : SetAttempts}
    (member
      : attempts ∈ read.attempts (Sources.ofExchanges exchanges : Sources κ) projection)
    : attempts.PeersSettled projection := by
  obtain ⟨⟨question, round⟩, -, rfl⟩ := List.mem_map.mp member
  exact (exchanges question round).peersSettled projection

/-- When a list of rounds all answer, rounds and answers name each other. -/
theorem mem_of_map_eq_ok {α β : Type*} {ask : α → Except ChiaQueryError β}
    {rounds : List α} {answers : List β} (h : rounds.map ask = answers.map .ok)
    : (∀ round ∈ rounds, ∃ answer ∈ answers, ask round = .ok answer)
      ∧ ∀ answer ∈ answers, ∃ round ∈ rounds, ask round = .ok answer := by
  constructor
  · intro round member
    have hround : ask round ∈ answers.map .ok := h ▸ List.mem_map_of_mem member
    obtain ⟨answer, hanswer, hok⟩ := List.mem_map.mp hround
    exact ⟨answer, hanswer, hok.symm⟩
  · intro answer member
    have hanswer : .ok answer ∈ rounds.map ask := h ▸ List.mem_map_of_mem member
    exact List.mem_map.mp hanswer

/-- A parent-ids read that returns a set returns one for a settled window exactly when all
its rounds are guarded, because the lowest of their heights is the one reported.
-/
theorem byParentIds_settled_iff {sources : Sources κ} {parentIds : List String}
    {set : CorroboratedSet CoinRecord}
    (hpeers
      : ∀ attempts ∈ (SetRead.byParentIds parentIds).attempts sources projection,
          attempts.PeersSettled projection)
    (h : getCoinRecordsByParentIdsGraded fallback sources parentIds projection = .ok set)
    : windowHasSettled projection set.asOfHeight = true
      ↔ (parentIds = [] → windowHasSettled projection 0 = true)
        ∧ ∀ attempts ∈ (SetRead.byParentIds parentIds).attempts sources projection,
            attempts.WindowGuarded fallback projection := by
  obtain ⟨answers, hrounds, -, hheight⟩ := graded_byParentIds_inv h
  cases parentIds with
  | nil => simp [hheight, SetRead.attempts, SetRead.questions]
  | cons parentId rest =>
      rw [childRounds_eq] at hrounds
      have hanswers
          : (∀ answer ∈ answers, windowHasSettled projection answer.asOfHeight = true)
            ↔ ∀ attempts
                ∈ (SetRead.byParentIds (parentId :: rest)).attempts sources projection,
                attempts.WindowGuarded fallback projection := by
        obtain ⟨hasked, hanswered⟩ := mem_of_map_eq_ok hrounds
        constructor
        · intro hsettled attempts member
          obtain ⟨answer, hanswer, hok⟩ := hasked attempts member
          exact (peerThenCoinsetSet_settled_iff (hpeers attempts member) hok).mp
            (hsettled answer hanswer)
        · intro hguarded answer member
          obtain ⟨attempts, hattempts, hok⟩ := hanswered answer member
          exact (peerThenCoinsetSet_settled_iff (hpeers attempts hattempts) hok).mpr
            (hguarded attempts hattempts)
      rw [hheight]
      simp only [List.isEmpty_cons, Bool.false_eq_true, if_false, windowHasSettled_foldl_min,
        true_and, List.forall_mem_map, hanswers, reduceCtorEq, false_implies]

/-- A population read that returns a set returns one for a settled window exactly when all
its rounds are guarded. Cases on the read; only a parent-ids read asks several rounds.
-/
theorem graded_settled_iff {sources : Sources κ} {read : SetRead}
    {set : CorroboratedSet CoinRecord}
    (hpeers
      : ∀ attempts ∈ read.attempts sources projection, attempts.PeersSettled projection)
    (h : read.graded fallback sources projection = .ok set)
    : windowHasSettled projection set.asOfHeight = true
      ↔ (read.questions = [] → windowHasSettled projection 0 = true)
        ∧ ∀ attempts ∈ read.attempts sources projection,
            attempts.WindowGuarded fallback projection := by
  have hsingle {question : SetQuestion} (hquestion : read.questions = [question])
      (hround : setRound fallback sources question projection 0 = .ok set)
      : windowHasSettled projection set.asOfHeight = true
        ↔ (read.questions = [] → windowHasSettled projection 0 = true)
          ∧ ∀ attempts ∈ read.attempts sources projection,
              attempts.WindowGuarded fallback projection := by
    have hattempts
        : read.attempts sources projection = [sources.sets question projection 0] := by
      simp [SetRead.attempts, hquestion]
    have hguard := peerThenCoinsetSet_settled_iff
      (hpeers _ (by rw [hattempts]; exact List.mem_singleton.mpr rfl)) hround
    simp [hattempts, hquestion, hguard]
  cases read with
  | byHint hint => exact hsingle rfl h
  | byHints hints => exact hsingle rfl h
  | byNames names => exact hsingle rfl h
  | byPuzzleHash puzzleHash => exact hsingle rfl h
  | byPuzzleHashes puzzleHashes => exact hsingle rfl h
  | byParentIds parentIds =>
      rw [byParentIds_settled_iff hpeers h]
      simp [SetRead.questions]

/-- A population read never returns a set for an unsettled window exactly when coinset is
guarded in each of its rounds.
-/
theorem graded_window_settled_iff (fallback : Bool)
    (exchanges : SetQuestion → Nat → Exchange) (read : SetRead) (projection : SetProjection)
    : (∀ set,
        read.graded fallback (Sources.ofExchanges exchanges : Sources κ) projection = .ok set
        → windowHasSettled projection set.asOfHeight = true)
      ↔ read.WindowGuarded fallback (Sources.ofExchanges exchanges : Sources κ) projection
      := by
  have hok := read.graded_isOk fallback (Sources.ofExchanges exchanges : Sources κ) projection
  constructor
  · intro hsettled
    have hread
        : (read.attempts (Sources.ofExchanges exchanges : Sources κ) projection).all
              (fun attempts => attempts.answers fallback projection)
            = true
          → (read.questions = [] → windowHasSettled projection 0 = true)
            ∧ ∀ attempts
                ∈ read.attempts (Sources.ofExchanges exchanges : Sources κ) projection,
                attempts.WindowGuarded fallback projection := by
      intro hanswers
      rw [← hok] at hanswers
      cases hset : read.graded fallback (Sources.ofExchanges exchanges : Sources κ)
        projection with
      | error failure => simp [hset, Except.isOk, Except.toBool] at hanswers
      | ok set =>
          exact (graded_settled_iff (fun _ => attempts_peersSettled) hset).mp
            (hsettled set hset)
    refine ⟨fun hnone => ?_, fun hanswers => (hread hanswers).2⟩
    exact (hread (by simp [SetRead.attempts, hnone])).1 hnone
  · intro guarded set hset
    obtain ⟨hnone, hguarded⟩ := guarded
    refine (graded_settled_iff (fun _ => attempts_peersSettled) hset).mpr ⟨hnone, ?_⟩
    apply hguarded
    rw [← hok, hset]
    rfl

end Reads

/-- Three peers that agree about a coin they hold at height 100. -/
def sampleRound : PeerRound where
  views := .still samplePool
  readAsked _ := .ok { items := [sampleRecord 1 50 none], asOfHeight := 100 }
  readCorroborator _ := .ok { items := [sampleRecord 1 50 none], asOfHeight := 100 }

/-- Those peers, and a coinset at height 101 that knows of a coin created at 99. -/
def sampleExchange : Exchange where
  first := sampleRound
  retry := sampleRound
  coinsetPeak := .ok (some 101)
  coinsetRaw := .ok [sampleRecord 1 50 none, sampleRecord 2 99 none]

/-- Asked for the coins created from height 99 on, the peers can only speak about height 98,
and coinset's answer, in which a coin was created at 99, is taken to second an empty set.
-/
theorem unsettled_window_returned
    : ¬ ∀ (fallback : Bool) (exchanges : SetQuestion → Nat → Exchange) (read : SetRead)
        (projection : SetProjection) (set : CorroboratedSet CoinRecord),
        read.graded fallback (Sources.ofExchanges exchanges : Sources Unit) projection
          = .ok set
        → windowHasSettled projection set.asOfHeight = true := by
  intro claim
  have hset
      : (SetRead.byPuzzleHash "0xbb").graded true
          (Sources.ofExchanges (fun _ _ => sampleExchange) : Sources Unit)
          { startHeight := some 99 }
        = .ok { items := [], asOfHeight := 98 } :=
    rfl
  exact absurd (claim _ _ _ _ _ hset) (by decide)

end ChiaQuery
