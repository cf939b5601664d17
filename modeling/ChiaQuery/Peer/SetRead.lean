import ChiaQuery.Peer.ScalarRead

/-! The corroborated read of a set. Every source that answered is held to one common height,
and the round is graded by equality of the sources' fingerprints there.
-/

namespace ChiaQuery

open ChiaQuery.Library

/-- The sources of a round that answered, in order. -/
def Answers.answered {β : Type*} (answers : Answers β) : List (SocketAddr × β) :=
  answers.filterMap (fun (peerAddr, answer) =>
    match answer with
    | .ok value => some (peerAddr, value)
    | .error _ => none)

theorem Answers.mem_answered {β : Type*} {answers : Answers β} {peerAddr : SocketAddr}
    {value : β}
    : (peerAddr, value) ∈ answers.answered ↔ (peerAddr, .ok value) ∈ answers := by
  constructor
  · intro member
    obtain ⟨⟨source, answer⟩, hanswer, heq⟩ := List.mem_filterMap.mp member
    cases answer with
    | error failure => cases heq
    | ok other =>
        cases heq
        exact hanswer
  · exact fun member => List.mem_filterMap.mpr ⟨_, member, rfl⟩

theorem Answers.answered_filter_isOk {β : Type*} (answers : Answers β)
    : Answers.answered (answers.filter (fun answer => answer.2.isOk)) = answers.answered := by
  induction answers with
  | nil => rfl
  | cons answer rest ih =>
      obtain ⟨peerAddr, answer⟩ := answer
      cases answer with
      | error failure => simpa [Answers.answered, Except.isOk, Except.toBool] using ih
      | ok value => simpa [Answers.answered, Except.isOk, Except.toBool] using ih

namespace PeerBackend

section SetRound

variable {α : Type*} [SetMember α]

/-- A source's fingerprint at the height the round is held to. -/
def claimsAt (set : HeightedSet α) (height : UInt32) : Fingerprint :=
  fingerprint (normaliseAt set.items height)

/-- The height a round is held to: failed sources contribute none. -/
def roundHeight (first : HeightedSet α) (others : List (SocketAddr × HeightedSet α))
    (projection : SetProjection)
    : Option UInt32 :=
  commonHeight (first.asOfHeight :: others.map (fun other => other.2.asOfHeight))
    projection.endHeight

/-- How a source's set counts once the round's height is known. -/
def setVote (asked : SocketAddr) (claim : Fingerprint) (height : UInt32)
    (peerAddr : SocketAddr) (set : HeightedSet α)
    : Vote String :=
  match contradiction s!"peer {asked}" claim s!"peer {peerAddr}" (claimsAt set height) with
  | none => .agrees
  | some detail => .differs s!"at height {height}: {detail}"

/-- The comparison of every source with the first answer at a height. -/
def setTally (asked : SocketAddr) (first : HeightedSet α)
    (others : List (SocketAddr × HeightedSet α)) (height : UInt32)
    : Tally SocketAddr String :=
  count (others.map (fun (peerAddr, set) =>
    (peerAddr, setVote asked (claimsAt first height) height peerAddr set)))

/-- What `read_set_corroborated` makes of the sets it collected. -/
def settleSources (asked : SocketAddr) (ready : CorroborationReadiness)
    (first : HeightedSet α) (others : List (SocketAddr × HeightedSet α))
    (projection : SetProjection)
    : Except ChiaQueryError (SetAnswer α) :=
  match roundHeight first others projection with
  | none =>
      let asOf := first.asOfHeight :: others.map (fun other => other.2.asOfHeight)
      .error
        (.uncorroboratedPresence
          s!"no settled common height exists for the sources that answered ({asOf})")
  | some height =>
      let tally := setTally asked first others height
      match tally.disagreement with
      | some detail => .error (.sourcesDisagree detail)
      | none =>
          let items := project (normaliseAt first.items height) projection
          -- An unsettled window is never reported as corroborated, however many agree.
          if !windowHasSettled projection height then .ok (.uncorroborated items height)
          else if !corroborated ready tally.agreed then .ok (.uncorroborated items height)
          else .ok (.corroborated items height)

/-- `read_set_corroborated`, once the asked peer has answered. -/
def gradeSet (asked : SocketAddr) (ready : CorroborationReadiness) (first : HeightedSet α)
    (answers : Answers (HeightedSet α)) (projection : SetProjection)
    : Round (SetAnswer α) where
  result := settleSources asked ready first answers.answered projection
  ejected := answers.failures

/-- `read_set_corroborated`. -/
def readSetCorroborated (views : PoolViews)
    (readAsked readCorroborator : Peer → Except ChiaQueryError (HeightedSet α))
    (projection : SetProjection)
    : Round (SetAnswer α) :=
  match pick views with
  | .error failure => { result := .error failure, ejected := [] }
  | .ok (peer, asked) =>
      match readAsked peer with
      | .error failure => { result := .error failure, ejected := [asked] }
      | .ok first =>
          gradeSet asked (readiness views asked) first
            (askCorroborators views asked readCorroborator) projection

/-- Whether a source makes the first answer's claims at a height. -/
def agreesAt (first : HeightedSet α) (height : UInt32)
    (other : SocketAddr × HeightedSet α)
    : Prop :=
  claimsAt other.2 height = claimsAt first height

instance (first : HeightedSet α) (height : UInt32) (other : SocketAddr × HeightedSet α)
    : Decidable (agreesAt first height other) :=
  inferInstanceAs (Decidable (_ = _))

/-- How many sources make the first answer's claims at a height. -/
def agreeing (first : HeightedSet α) (others : List (SocketAddr × HeightedSet α))
    (height : UInt32)
    : Nat :=
  others.countP (fun other => agreesAt first height other)

theorem any_disagrees_iff {first : HeightedSet α} {height : UInt32}
    {others : List (SocketAddr × HeightedSet α)}
    : others.any (fun other => !decide (agreesAt first height other)) = true
      ↔ ∃ source ∈ others, claimsAt source.2 height ≠ claimsAt first height := by
  simp only [List.any_eq_true, Bool.not_eq_true', decide_eq_false_iff_not]
  exact Iff.rfl

theorem setVote_isAgreement (asked peerAddr : SocketAddr) (first : HeightedSet α)
    (height : UInt32) (set : HeightedSet α)
    : (setVote asked (claimsAt first height) height peerAddr set).isAgreement
      = decide (agreesAt first height (peerAddr, set)) := by
  unfold setVote
  split
  · rename_i h
    simp [Vote.isAgreement, agreesAt, contradiction_eq_none_iff.mp h]
  · rename_i detail h
    have hdiffer : claimsAt first height ≠ claimsAt set height := by
      intro same
      rw [contradiction_eq_none_iff.mpr same] at h
      cases h
    simp [Vote.isAgreement, agreesAt, hdiffer.symm]

theorem setVote_isDifference (asked peerAddr : SocketAddr) (first : HeightedSet α)
    (height : UInt32) (set : HeightedSet α)
    : (setVote asked (claimsAt first height) height peerAddr set).isDifference
      = !decide (agreesAt first height (peerAddr, set)) := by
  have h := setVote_isAgreement asked peerAddr first height set
  cases hvote : setVote asked (claimsAt first height) height peerAddr set with
  | agrees => simpa [hvote, Vote.isAgreement, Vote.isDifference] using h.symm
  | differs detail => simpa [hvote, Vote.isAgreement, Vote.isDifference] using h.symm
  | failed =>
      unfold setVote at hvote
      split at hvote <;> cases hvote

theorem setTally_agreed (asked : SocketAddr) (first : HeightedSet α)
    (others : List (SocketAddr × HeightedSet α)) (height : UInt32)
    : (setTally asked first others height).agreed = agreeing first others height := by
  simp [setTally, count_agreed, List.countP_map, Function.comp_def, setVote_isAgreement,
    agreeing]

theorem setTally_disagreement_isSome (asked : SocketAddr) (first : HeightedSet α)
    (others : List (SocketAddr × HeightedSet α)) (height : UInt32)
    : (setTally asked first others height).disagreement.isSome
      = others.any (fun other => !decide (agreesAt first height other)) := by
  simp only [setTally, count_disagreement_isSome, List.any_map, Function.comp_def,
    setVote_isDifference]

/-- The verdict of a set round, from its height and how many sources agree there. -/
theorem settleSources_verdict (asked : SocketAddr) (ready : CorroborationReadiness)
    (first : HeightedSet α) (others : List (SocketAddr × HeightedSet α))
    (projection : SetProjection)
    : verdict (settleSources asked ready first others projection)
      = match roundHeight first others projection with
        | none => .error .uncorroboratedPresence
        | some height =>
            let items := project (normaliseAt first.items height) projection
            if others.any (fun other => !decide (agreesAt first height other)) then
              .error .sourcesDisagree
            else if
              windowHasSettled projection height
              && corroborated ready (agreeing first others height)
            then .ok (.corroborated items height)
            else .ok (.uncorroborated items height) := by
  unfold settleSources
  cases roundHeight first others projection with
  | none => rfl
  | some height =>
      simp only
      rw [← setTally_disagreement_isSome asked, ← setTally_agreed asked]
      cases (setTally asked first others height).disagreement with
      | some detail => rfl
      | none =>
          cases windowHasSettled projection height with
          | false => rfl
          | true =>
              cases corroborated ready (setTally asked first others height).agreed <;> rfl

/-- A read whose asked peer answered is graded from that answer. -/
theorem readSetCorroborated_of_answer {views : PoolViews}
    {readAsked readCorroborator : Peer → Except ChiaQueryError (HeightedSet α)}
    {projection : SetProjection} {peer : Peer} {asked : SocketAddr} {first : HeightedSet α}
    (hpick : pick views = .ok (peer, asked)) (hread : readAsked peer = .ok first)
    : readSetCorroborated views readAsked readCorroborator projection
      = gradeSet asked (readiness views asked) first
          (askCorroborators views asked readCorroborator) projection := by
  simp only [readSetCorroborated, hpick, hread]

/-- A read that answers was answered by the peer it asked. -/
theorem exists_answer_of_readSetCorroborated {views : PoolViews}
    {readAsked readCorroborator : Peer → Except ChiaQueryError (HeightedSet α)}
    {projection : SetProjection} {answer : SetAnswer α}
    (h
      : (readSetCorroborated views readAsked readCorroborator projection).result
        = .ok answer)
    : ∃ peer asked first,
        pick views = .ok (peer, asked) ∧ readAsked peer = .ok first := by
  cases hpick : pick views with
  | error failure => simp [readSetCorroborated, hpick] at h
  | ok selected =>
      cases hread : readAsked selected.1 with
      | error failure => simp [readSetCorroborated, hpick, hread] at h
      | ok first => exact ⟨selected.1, selected.2, first, rfl, hread⟩

/-- A corroborated result is reported at the height of its round. -/
theorem roundHeight_of_corroborated {asked : SocketAddr} {ready : CorroborationReadiness}
    {first : HeightedSet α} {others : List (SocketAddr × HeightedSet α)}
    {projection : SetProjection} {items : List α} {height : UInt32}
    (h
      : settleSources asked ready first others projection
        = .ok (.corroborated items height))
    : roundHeight first others projection = some height := by
  have hverdict := settleSources_verdict asked ready first others projection
  rw [verdict_eq_ok_iff.mpr h] at hverdict
  cases hheight : roundHeight first others projection with
  | none => simp [hheight] at hverdict
  | some settled =>
      simp only [hheight] at hverdict
      split at hverdict
      · cases hverdict
      · split at hverdict
        · cases hverdict
          rfl
        · cases hverdict

/-- What a corroborated result says about its round. -/
theorem corroborated_inv {asked : SocketAddr} {ready : CorroborationReadiness}
    {first : HeightedSet α} {others : List (SocketAddr × HeightedSet α)}
    {projection : SetProjection} {items : List α} {height : UInt32}
    (h
      : settleSources asked ready first others projection
        = .ok (.corroborated items height))
    : items = project (normaliseAt first.items height) projection
      ∧ (∀ source ∈ others, claimsAt source.2 height = claimsAt first height)
      ∧ corroborationFloor ≤ agreeing first others height
      ∧ windowHasSettled projection height = true := by
  have hverdict := settleSources_verdict asked ready first others projection
  rw [verdict_eq_ok_iff.mpr h] at hverdict
  simp only [roundHeight_of_corroborated h] at hverdict
  split at hverdict
  · cases hverdict
  · rename_i hquiet
    split at hverdict
    · rename_i hsupported
      cases hverdict
      obtain ⟨hwindow, hfloor⟩ := Bool.and_eq_true_iff.mp hsupported
      refine ⟨rfl, ?_, ?_, hwindow⟩
      · intro source member
        by_contra hdiffer
        exact hquiet (any_disagrees_iff.mpr ⟨source, member, hdiffer⟩)
      · unfold corroborated at hfloor
        split at hfloor
        · simpa using hfloor
        · cases hfloor
    · cases hverdict

omit [SetMember α] in
theorem roundHeight_perm (first : HeightedSet α)
    {left right : List (SocketAddr × HeightedSet α)} (h : left.Perm right)
    (projection : SetProjection)
    : roundHeight first left projection = roundHeight first right projection :=
  commonHeight_perm ((h.map _).cons _) projection.endHeight

/-- What must hold of a round before its set is reported as corroborated. -/
structure IsSupported (views : PoolViews) (asked : SocketAddr) (first : HeightedSet α)
    (others : List (SocketAddr × HeightedSet α)) (projection : SetProjection)
    (height : UInt32)
    : Prop where
  armed : IsArmed views.atReadiness asked
  agreed : corroborationFloor ≤ agreeing first others height
  settled : windowHasSettled projection height = true

theorem isSupported_iff {views : PoolViews} {asked : SocketAddr} {first : HeightedSet α}
    {others : List (SocketAddr × HeightedSet α)} {projection : SetProjection}
    {height : UInt32}
    : (windowHasSettled projection height
        && corroborated (readiness views asked) (agreeing first others height)) = true
      ↔ IsSupported views asked first others projection height := by
  rw [Bool.and_eq_true]
  constructor
  · intro supported
    obtain ⟨settled, hfloor⟩ := supported
    obtain ⟨armed, agreed⟩ := PeerPool.corroborated_iff.mp hfloor
    exact ⟨armed, agreed, settled⟩
  · intro h
    exact ⟨h.settled, PeerPool.corroborated_iff.mpr ⟨h.armed, h.agreed⟩⟩

/-- How a set round is graded once the asked peer has answered `first`. -/
structure SetGrading (views : PoolViews) (asked : SocketAddr) (first : HeightedSet α)
    (answers : Answers (HeightedSet α)) (projection : SetProjection)
    (result : Except ChiaQueryError (SetAnswer α))
    : Prop where
  no_common_height
    : roundHeight first answers.answered projection = none
      → ∃ failure, result = .error failure
  contradicted
    : ∀ height,
        roundHeight first answers.answered projection = some height
        → (∃ source ∈ answers.answered,
            claimsAt source.2 height ≠ claimsAt first height)
        → ∃ detail, result = .error (.sourcesDisagree detail)
  corroborated_iff
    : ∀ height,
        roundHeight first answers.answered projection = some height
        → (∀ source ∈ answers.answered,
            claimsAt source.2 height = claimsAt first height)
        → ((∃ items asOf, result = .ok (.corroborated items asOf))
          ↔ IsSupported views asked first answers.answered projection height)
  items_and_height
    : ∀ height,
        roundHeight first answers.answered projection = some height
        → (∀ source ∈ answers.answered,
            claimsAt source.2 height = claimsAt first height)
        → let items := project (normaliseAt first.items height) projection
          result = .ok (.corroborated items height)
          ∨ result = .ok (.uncorroborated items height)
  failures_silent
    : ∀ others : Answers (HeightedSet α),
        others.filter (fun answer => answer.2.isOk)
          = answers.filter (fun answer => answer.2.isOk)
        → roundHeight first others.answered projection
            = roundHeight first answers.answered projection
          ∧ (∀ height,
              agreeing first others.answered height
              = agreeing first answers.answered height)
          ∧ (gradeSet asked (readiness views asked) first others projection).result
            = result
  order_free
    : ∀ shuffled : Answers (HeightedSet α),
        shuffled.Perm answers
        → roundHeight first shuffled.answered projection
            = roundHeight first answers.answered projection
          ∧ (∀ height,
              agreeing first shuffled.answered height
              = agreeing first answers.answered height)
          ∧ verdict (gradeSet asked (readiness views asked) first shuffled projection).result
            = verdict result

/-- Without a difference, the round reports the first answer at the common height. -/
theorem settleSources_of_agreement {asked : SocketAddr} {ready : CorroborationReadiness}
    {first : HeightedSet α} {others : List (SocketAddr × HeightedSet α)}
    {projection : SetProjection} {height : UInt32}
    (hheight : roundHeight first others projection = some height)
    (hsame : ∀ source ∈ others, claimsAt source.2 height = claimsAt first height)
    : settleSources asked ready first others projection
      = .ok
          (if windowHasSettled projection height
              && corroborated ready (agreeing first others height)
            then .corroborated (project (normaliseAt first.items height) projection) height
            else .uncorroborated (project (normaliseAt first.items height) projection) height)
        := by
  have hquiet
      : others.any (fun other => !decide (agreesAt first height other)) = false := by
    rw [Bool.eq_false_iff]
    intro hany
    obtain ⟨source, member, hdiffer⟩ := any_disagrees_iff.mp hany
    exact hdiffer (hsame source member)
  have hverdict := settleSources_verdict asked ready first others projection
  simp only [hheight, hquiet, Bool.false_eq_true, if_false] at hverdict
  apply verdict_eq_ok_iff.mp
  rw [hverdict]
  split <;> rfl

/-- The grading of a set round. Witness: its verdict is a function of the common height, of
how many sources agree there, and of whether one differs.
-/
theorem gradeSet_graded (views : PoolViews) (asked : SocketAddr) (first : HeightedSet α)
    (answers : Answers (HeightedSet α)) (projection : SetProjection)
    : SetGrading views asked first answers projection
        (gradeSet asked (readiness views asked) first answers projection).result := by
  have hverdict := settleSources_verdict asked (readiness views asked) first
    answers.answered projection
  refine ⟨?_, ?_, ?_, ?_, ?_, ?_⟩
  · intro hnone
    simp only [hnone] at hverdict
    cases hresult : settleSources asked (readiness views asked) first answers.answered
      projection with
    | ok answer => simp [hresult, verdict, Except.mapError] at hverdict
    | error failure => exact ⟨failure, hresult⟩
  · intro height hheight different
    obtain ⟨source, member, hdiffer⟩ := different
    have hany
        : answers.answered.any (fun other => !decide (agreesAt first height other))
          = true :=
      any_disagrees_iff.mpr ⟨source, member, hdiffer⟩
    simp only [hheight, hany, if_true] at hverdict
    exact exists_detail_of_verdict hverdict
  · intro height hheight hsame
    rw [← isSupported_iff]
    simp only [gradeSet, settleSources_of_agreement hheight hsame]
    split
    · rename_i hsupported
      exact iff_of_true ⟨_, _, rfl⟩ hsupported
    · rename_i hsupported
      refine iff_of_false ?_ hsupported
      intro reported
      obtain ⟨items, asOf, h⟩ := reported
      cases h
  · intro height hheight hsame items
    simp only [gradeSet, settleSources_of_agreement hheight hsame]
    split
    · exact Or.inl rfl
    · exact Or.inr rfl
  · intro others hsame
    have hanswered : others.answered = answers.answered := by
      rw [← Answers.answered_filter_isOk others, hsame, Answers.answered_filter_isOk]
    simp only [gradeSet, hanswered, implies_true, and_self]
  · intro shuffled hperm
    have hanswered : shuffled.answered.Perm answers.answered := hperm.filterMap _
    have hheight := roundHeight_perm first hanswered projection
    have hcount (height : UInt32)
        : agreeing first shuffled.answered height = agreeing first answers.answered height :=
      hanswered.countP_eq _
    refine ⟨hheight, hcount, ?_⟩
    simp only [gradeSet, settleSources_verdict, hheight, hcount, hanswered.any_eq]

/-- Every set read whose asked peer answers is graded by the sources that answered. -/
theorem readSetCorroborated_graded {views : PoolViews}
    {readAsked readCorroborator : Peer → Except ChiaQueryError (HeightedSet α)}
    {projection : SetProjection} {peer : Peer} {asked : SocketAddr} {first : HeightedSet α}
    (hpick : pick views = .ok (peer, asked)) (hread : readAsked peer = .ok first)
    : SetGrading views asked first (askCorroborators views asked readCorroborator) projection
        (readSetCorroborated views readAsked readCorroborator projection).result := by
  rw [readSetCorroborated_of_answer hpick hread]
  exact gradeSet_graded views asked first _ projection

end SetRound

/-- A coin record created at `created`, spent at `spent` when there is one. -/
def sampleRecord (amount : UInt64) (created : UInt32) (spent : Option UInt32) : CoinRecord where
  coin := { parentCoinInfo := "0xaa", puzzleHash := "0xbb", amount }
  confirmedBlockIndex := created
  spentBlockIndex := spent.getD 0
  spent := spent.isSome
  coinbase := false
  timestamp := 0

theorem readSetCorroborated_graded_sample
    : SetGrading (.still samplePool) (sampleEntry 1).address
        { items := [sampleRecord 1 50 none], asOfHeight := 100 }
        (askCorroborators (.still samplePool) (sampleEntry 1).address
          (fun _ => .ok { items := [sampleRecord 1 50 none], asOfHeight := 103 }))
        { startHeight := some 99 }
        (readSetCorroborated (.still samplePool)
          (fun _ => .ok { items := [sampleRecord 1 50 none], asOfHeight := 100 })
          (fun _ => .ok { items := [sampleRecord 1 50 none], asOfHeight := 103 })
          { startHeight := some 99 }).result :=
  readSetCorroborated_graded rfl rfl

end PeerBackend

end ChiaQuery
