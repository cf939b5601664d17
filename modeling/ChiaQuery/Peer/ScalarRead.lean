import ChiaQuery.Library.Tally
import ChiaQuery.Peer.PoolEntries
import ChiaQuery.Types.Error

/-! The corroborated read of a value that may be absent. One peer answers, every independent
peer is asked the same question, and one contradiction outranks any number of agreements.
-/

namespace ChiaQuery

open ChiaQuery.Library

/-- `OptAnswer`: a read of something that may be absent, graded by the peer tier. -/
inductive OptAnswer (α : Type*) where
  | found (value : α)
  | uncorroboratedFound (value : α)
  | corroboratedAbsent
  | uncorroboratedAbsent
  deriving DecidableEq, Repr

/-- The answers of a round, in the order the corroborators were drawn. -/
abbrev Answers (α : Type*) := List (SocketAddr × Except ChiaQueryError α)

/-- The addresses whose request failed. -/
def Answers.failures {α : Type*} (answers : Answers α) : List SocketAddr :=
  (answers.filter (fun answer => !answer.2.isOk)).map Prod.fst

theorem mem_failures {α : Type*} {answers : Answers α} {address : SocketAddr}
    : address ∈ answers.failures ↔ ∃ failure, (address, .error failure) ∈ answers := by
  constructor
  · intro member
    obtain ⟨⟨_, answer⟩, hanswer, rfl⟩ := List.mem_map.mp member
    obtain ⟨hanswer, hfailed⟩ := List.mem_filter.mp hanswer
    cases answer with
    | error failure => exact ⟨failure, hanswer⟩
    | ok value => simp [Except.isOk, Except.toBool] at hfailed
  · intro failed
    obtain ⟨failure, hanswer⟩ := failed
    exact List.mem_map.mpr ⟨_, List.mem_filter.mpr ⟨hanswer, rfl⟩, rfl⟩

/-- The pool as each step of one round sees it. Other requests change the pool between the
steps, so no two of the views need to be equal.
-/
structure PoolViews where
  atPick : List PeerEntry
  nextIdx : UInt64
  atReadiness : List PeerEntry
  atSelection : List PeerEntry

/-- The views of a round during which the pool does not change. -/
def PoolViews.still (entries : List PeerEntry) : PoolViews where
  atPick := entries
  nextIdx := 0
  atReadiness := entries
  atSelection := entries

/-- The views of such a round at its turn of the rotation. -/
def PoolViews.steady (entries : List PeerEntry) (nextIdx : UInt64) : PoolViews :=
  { PoolViews.still entries with nextIdx }

/-- What a round returns, and the addresses it ejects on the way. -/
structure Round (β : Type*) where
  result : Except ChiaQueryError β
  ejected : List SocketAddr

namespace PeerBackend

/-- `pick`, once the maintenance pass is over. -/
def pick (views : PoolViews) : Except ChiaQueryError (Peer × SocketAddr) :=
  match PeerPool.selectPeer views.atPick views.nextIdx with
  | some selected => .ok selected
  | none => .error (.peerConnection "no peers available")

/-- The asked peer is the entry whose turn it is. -/
theorem pick_steady {entries : List PeerEntry} {nextIdx : UInt64} {peer : Peer}
    {asked : SocketAddr}
    : pick (.steady entries nextIdx) = .ok (peer, asked)
      ↔ ∃ entry, entries[nextIdx.toNat % entries.length]? = some entry
          ∧ entry.peer = peer ∧ entry.address = asked := by
  simp only [pick, PoolViews.steady, PoolViews.still, PeerPool.selectPeer]
  cases entries[nextIdx.toNat % entries.length]? with
  | none => simp
  | some entry => simp

/-- The readiness of a round in which the peer at `asked` answered. -/
def readiness (views : PoolViews) (asked : SocketAddr) : CorroborationReadiness :=
  PeerPool.corroborationReadiness views.atReadiness asked

/-- The answers of the corroborators drawn for the peer at `asked`. -/
def askCorroborators {α : Type*} (views : PoolViews) (asked : SocketAddr)
    (read : Peer → Except ChiaQueryError α)
    : Answers α :=
  (PeerPool.selectCorroboratingPeers views.atSelection asked).map
    (fun (peer, address) => (address, read peer))

section Scalar

variable {α : Type*} [ChainClaim α]

/-- How a corroborator's answer counts when `asked` reported `found`. -/
def presenceVote (asked : SocketAddr) (found : α) (peerAddr : SocketAddr)
    : Except ChiaQueryError (Option α) → Vote String
  | .ok (some other) =>
      if chainClaim other = chainClaim found then .agrees
      else
        .differs
          (s!"peer {asked} claims `{chainClaim found}`, "
            ++ s!"peer {peerAddr} claims `{chainClaim other}`")
  | .ok none =>
      .differs s!"peer {asked} reports present, peer {peerAddr} reports absent"
  | .error _ => .failed

/-- How a corroborator's answer counts when `asked` reported an absence. -/
def absenceVote (asked peerAddr : SocketAddr)
    : Except ChiaQueryError (Option α) → Vote String
  | .ok none => .agrees
  | .ok (some _) =>
      .differs s!"peer {asked} reports absent, peer {peerAddr} reports present"
  | .error _ => .failed

/-- The votes of a round, each cast under its voter's address. -/
def ballots {β : Type*} (vote : SocketAddr → Except ChiaQueryError β → Vote String)
    (answers : Answers β)
    : List (SocketAddr × Vote String) :=
  answers.map (fun (peerAddr, answer) => (peerAddr, vote peerAddr answer))

/-- `corroborate_presence`, from the answers of its round. -/
def corroboratePresence (found : α) (asked : SocketAddr) (ready : CorroborationReadiness)
    (answers : Answers (Option α))
    : Round (OptAnswer α) :=
  if answers.isEmpty then
    { result := .ok (.uncorroboratedFound found), ejected := [] }
  else
    let tally := count (ballots (presenceVote asked found) answers)
    let result := match tally.disagreement with
      | some detail => .error (.sourcesDisagree detail)
      | none =>
          if corroborated ready tally.agreed then .ok (.found found)
          else .ok (.uncorroboratedFound found)
    { result, ejected := tally.failed }

/-- `corroborate_absence`, from the answers of its round. -/
def corroborateAbsence (asked : SocketAddr) (ready : CorroborationReadiness)
    (answers : Answers (Option α))
    : Round (OptAnswer α) :=
  if answers.isEmpty then
    { result := .ok .uncorroboratedAbsent, ejected := [] }
  else
    let tally := count (ballots (absenceVote asked) answers)
    let result := match tally.disagreement with
      | some detail => .error (.sourcesDisagree detail)
      | none =>
          if corroborated ready tally.agreed then .ok .corroboratedAbsent
          else .ok .uncorroboratedAbsent
    { result, ejected := tally.failed }

/-- What a first answer of either kind is graded to. -/
def gradeFirst (first : Option α) (asked : SocketAddr) (ready : CorroborationReadiness)
    (answers : Answers (Option α))
    : Round (OptAnswer α) :=
  match first with
  | some found => corroboratePresence found asked ready answers
  | none => corroborateAbsence asked ready answers

/-- `read_opt_corroborated`. The asked peer and the corroborators are read at different
moments, so their answers are two functions.
-/
def readOptCorroborated (views : PoolViews)
    (readAsked readCorroborator : Peer → Except ChiaQueryError (Option α))
    : Round (OptAnswer α) :=
  match pick views with
  | .error failure => { result := .error failure, ejected := [] }
  | .ok (peer, asked) =>
      match readAsked peer with
      | .error failure => { result := .error failure, ejected := [asked] }
      | .ok first =>
          gradeFirst first asked (readiness views asked)
            (askCorroborators views asked readCorroborator)

/-- Whether an answer makes the claim of a first answer. -/
def seconds (first : Option α) : Except ChiaQueryError (Option α) → Bool
  | .ok other => other.map chainClaim = first.map chainClaim
  | .error _ => false

/-- Whether an answer contradicts a first answer; a failure contradicts nothing. -/
def contradicts (first : Option α) : Except ChiaQueryError (Option α) → Bool
  | .ok other => other.map chainClaim ≠ first.map chainClaim
  | .error _ => false

/-- The grade of a first answer that enough independent peers second. -/
def settledGrade : Option α → OptAnswer α
  | some value => .found value
  | none => .corroboratedAbsent

/-- The grade of a first answer that nobody contradicts and too few second. -/
def unsettledGrade : Option α → OptAnswer α
  | some value => .uncorroboratedFound value
  | none => .uncorroboratedAbsent

omit [ChainClaim α] in
theorem settledGrade_inj {left right : Option α} (h : settledGrade left = settledGrade right)
    : left = right := by
  cases left <;> cases right <;> simp_all [settledGrade]

omit [ChainClaim α] in
theorem settledGrade_ne_unsettledGrade (left right : Option α)
    : settledGrade left ≠ unsettledGrade right := by
  cases left <;> cases right <;> simp [settledGrade, unsettledGrade]

theorem presenceVote_isAgreement (asked peerAddr : SocketAddr) (found : α)
    (answer : Except ChiaQueryError (Option α))
    : (presenceVote asked found peerAddr answer).isAgreement
      = seconds (some found) answer := by
  rcases answer with _ | (_ | other)
  · rfl
  · rfl
  · by_cases h : chainClaim other = chainClaim found <;>
      simp [presenceVote, seconds, Vote.isAgreement, h]

theorem presenceVote_isDifference (asked peerAddr : SocketAddr) (found : α)
    (answer : Except ChiaQueryError (Option α))
    : (presenceVote asked found peerAddr answer).isDifference
      = contradicts (some found) answer := by
  rcases answer with _ | (_ | other)
  · rfl
  · rfl
  · by_cases h : chainClaim other = chainClaim found <;>
      simp [presenceVote, contradicts, Vote.isDifference, h]

theorem presenceVote_isFailure (asked peerAddr : SocketAddr) (found : α)
    (answer : Except ChiaQueryError (Option α))
    : (presenceVote asked found peerAddr answer).isFailure = !answer.isOk := by
  rcases answer with _ | (_ | other)
  · rfl
  · rfl
  · by_cases h : chainClaim other = chainClaim found <;>
      simp [presenceVote, Vote.isFailure, Except.isOk, Except.toBool, h]

theorem absenceVote_isAgreement (asked peerAddr : SocketAddr)
    (answer : Except ChiaQueryError (Option α))
    : (absenceVote asked peerAddr answer).isAgreement = seconds none answer := by
  rcases answer with _ | (_ | other) <;> simp [absenceVote, seconds, Vote.isAgreement]

theorem absenceVote_isDifference (asked peerAddr : SocketAddr)
    (answer : Except ChiaQueryError (Option α))
    : (absenceVote asked peerAddr answer).isDifference = contradicts none answer := by
  rcases answer with _ | (_ | other) <;> simp [absenceVote, contradicts, Vote.isDifference]

omit [ChainClaim α] in
theorem absenceVote_isFailure (asked peerAddr : SocketAddr)
    (answer : Except ChiaQueryError (Option α))
    : (absenceVote asked peerAddr answer).isFailure = !answer.isOk := by
  rcases answer with _ | (_ | other) <;> rfl

/-- The verdict of a tallied round, from what its votes say about the first answer. -/
theorem tallied_verdict {first : Option α} {ready : CorroborationReadiness}
    {answers : Answers (Option α)}
    {vote : SocketAddr → Except ChiaQueryError (Option α) → Vote String}
    (hagrees : ∀ peerAddr answer, (vote peerAddr answer).isAgreement = seconds first answer)
    (hdiffers
      : ∀ peerAddr answer, (vote peerAddr answer).isDifference = contradicts first answer)
    : verdict
          (match (count (ballots vote answers)).disagreement with
          | some detail => .error (.sourcesDisagree detail)
          | none =>
              if corroborated ready (count (ballots vote answers)).agreed then
                .ok (settledGrade first)
              else .ok (unsettledGrade first))
      = if answers.any (fun answer => contradicts first answer.2) then
          .error .sourcesDisagree
        else if corroborated ready (answers.countP (fun answer => seconds first answer.2)) then
          .ok (settledGrade first)
        else .ok (unsettledGrade first) := by
  have hcount
      : (count (ballots vote answers)).agreed
        = answers.countP (fun answer => seconds first answer.2) := by
    simp [count_agreed, ballots, List.countP_map, Function.comp_def, hagrees]
  have hany
      : (count (ballots vote answers)).disagreement.isSome
        = answers.any (fun answer => contradicts first answer.2) := by
    simp [count_disagreement_isSome, ballots, List.any_map, Function.comp_def, hdiffers]
  rw [← hany, hcount]
  cases (count (ballots vote answers)).disagreement with
  | some detail => rfl
  | none =>
      simp only [Option.isSome_none, Bool.false_eq_true, if_false]
      split <;> rfl

omit [ChainClaim α] in
theorem ballots_failed {vote : SocketAddr → Except ChiaQueryError (Option α) → Vote String}
    (hfails : ∀ peerAddr answer, (vote peerAddr answer).isFailure = !answer.isOk)
    (answers : Answers (Option α))
    : (count (ballots vote answers)).failed = answers.failures := by
  simp [count_failed, ballots, Answers.failures, List.filter_map, Function.comp_def, hfails]

/-- The verdict of a round: any contradiction is decisive, and otherwise the armed floor
decides between the two grades of the first answer.
-/
theorem gradeFirst_verdict (first : Option α) (asked : SocketAddr)
    (ready : CorroborationReadiness) (answers : Answers (Option α))
    : verdict (gradeFirst first asked ready answers).result
      = if answers.any (fun answer => contradicts first answer.2) then
          .error .sourcesDisagree
        else if corroborated ready (answers.countP (fun answer => seconds first answer.2)) then
          .ok (settledGrade first)
        else .ok (unsettledGrade first) := by
  cases answers with
  | nil => cases first <;> cases ready <;> rfl
  | cons answer rest =>
      cases first with
      | some found =>
          exact tallied_verdict (presenceVote_isAgreement asked · found)
            (presenceVote_isDifference asked · found)
      | none =>
          exact tallied_verdict (absenceVote_isAgreement asked)
            (absenceVote_isDifference asked)

theorem gradeFirst_ejected (first : Option α) (asked : SocketAddr)
    (ready : CorroborationReadiness) (answers : Answers (Option α))
    : (gradeFirst first asked ready answers).ejected = answers.failures := by
  cases answers with
  | nil => cases first <;> rfl
  | cons answer rest =>
      cases first with
      | some found => exact ballots_failed (presenceVote_isFailure asked · found) _
      | none => exact ballots_failed (absenceVote_isFailure asked) _

/-- What must hold of a round before its first answer is reported as corroborated. -/
structure IsSettled (views : PoolViews) (asked : SocketAddr) (first : Option α)
    (answers : Answers (Option α))
    : Prop where
  armed : IsArmed views.atReadiness asked
  seconded : corroborationFloor ≤ answers.countP (fun answer => seconds first answer.2)
  unchallenged : ∀ answer ∈ answers, contradicts first answer.2 = false

/-- How a scalar round is graded, whatever the pool and the peers answer. -/
structure ScalarGrading (views : PoolViews)
    (readAsked readCorroborator : Peer → Except ChiaQueryError (Option α))
    : Prop where
  found_iff
    : ∀ value,
        (readOptCorroborated views readAsked readCorroborator).result = .ok (.found value)
        ↔ ∃ peer asked,
            pick views = .ok (peer, asked)
            ∧ readAsked peer = .ok (some value)
            ∧ IsSettled views asked (some value)
                (askCorroborators views asked readCorroborator)
  absent_iff
    : (readOptCorroborated views readAsked readCorroborator).result
          = .ok .corroboratedAbsent
      ↔ ∃ peer asked,
          pick views = .ok (peer, asked)
          ∧ readAsked peer = .ok none
          ∧ IsSettled views asked none (askCorroborators views asked readCorroborator)
  contradicted
    : ∀ peer asked first,
        pick views = .ok (peer, asked)
        → readAsked peer = .ok first
        → (∃ answer ∈ askCorroborators views asked readCorroborator,
            contradicts first answer.2 = true)
        → ∃ detail,
            (readOptCorroborated views readAsked readCorroborator).result
            = .error (.sourcesDisagree detail)
  order_free
    : ∀ peer asked first shuffled,
        pick views = .ok (peer, asked)
        → readAsked peer = .ok first
        → shuffled.Perm (askCorroborators views asked readCorroborator)
        → verdict (gradeFirst first asked (readiness views asked) shuffled).result
          = verdict (readOptCorroborated views readAsked readCorroborator).result
  ejected_iff
    : ∀ address,
        address ∈ (readOptCorroborated views readAsked readCorroborator).ejected
        ↔ ∃ peer asked,
            pick views = .ok (peer, asked)
            ∧ ((∃ failure, readAsked peer = .error failure ∧ address = asked)
              ∨ ∃ first failure,
                  readAsked peer = .ok first
                  ∧ (address, .error failure)
                    ∈ askCorroborators views asked readCorroborator)

/-- A settled round is one whose verdict is the corroborated grade of its first answer. -/
theorem gradeFirst_settled_iff {views : PoolViews} {asked : SocketAddr} {first : Option α}
    {answers : Answers (Option α)}
    : (gradeFirst first asked (readiness views asked) answers).result
          = .ok (settledGrade first)
      ↔ IsSettled views asked first answers := by
  rw [← verdict_eq_ok_iff, gradeFirst_verdict]
  constructor
  · intro h
    split at h
    · cases h
    · rename_i hquiet
      split at h
      · rename_i hfloor
        obtain ⟨armed, seconded⟩ := PeerPool.corroborated_iff.mp hfloor
        exact ⟨armed, seconded, by simpa using hquiet⟩
      · exact absurd (Except.ok.inj h).symm (settledGrade_ne_unsettledGrade first first)
  · intro h
    have hquiet : answers.any (fun answer => contradicts first answer.2) = false := by
      simpa using h.unchallenged
    rw [hquiet, if_neg (by simp), if_pos]
    exact PeerPool.corroborated_iff.mpr ⟨h.armed, h.seconded⟩

/-- Only the first answer itself is ever graded, so a corroborated value is its value. -/
theorem gradeFirst_value {asked : SocketAddr} {ready : CorroborationReadiness}
    {first : Option α} {answers : Answers (Option α)} {graded : OptAnswer α}
    (h : (gradeFirst first asked ready answers).result = .ok graded)
    : graded = settledGrade first ∨ graded = unsettledGrade first := by
  have hverdict := verdict_eq_ok_iff.mpr h
  rw [gradeFirst_verdict] at hverdict
  split at hverdict
  · cases hverdict
  · split at hverdict
    · exact Or.inl (Except.ok.inj hverdict).symm
    · exact Or.inr (Except.ok.inj hverdict).symm

/-- A read whose asked peer answered is graded from that answer. -/
theorem readOptCorroborated_of_answer {views : PoolViews}
    {readAsked readCorroborator : Peer → Except ChiaQueryError (Option α)} {peer : Peer}
    {asked : SocketAddr} {first : Option α} (hpick : pick views = .ok (peer, asked))
    (hread : readAsked peer = .ok first)
    : readOptCorroborated views readAsked readCorroborator
      = gradeFirst first asked (readiness views asked)
          (askCorroborators views asked readCorroborator) := by
  simp only [readOptCorroborated, hpick, hread]

/-- A read that answers was answered by the peer it asked. -/
theorem exists_answer_of_readOptCorroborated {views : PoolViews}
    {readAsked readCorroborator : Peer → Except ChiaQueryError (Option α)}
    {graded : OptAnswer α}
    (h : (readOptCorroborated views readAsked readCorroborator).result = .ok graded)
    : ∃ peer asked first,
        pick views = .ok (peer, asked) ∧ readAsked peer = .ok first := by
  cases hpick : pick views with
  | error failure => simp [readOptCorroborated, hpick] at h
  | ok selected =>
      cases hread : readAsked selected.1 with
      | error failure => simp [readOptCorroborated, hpick, hread] at h
      | ok first => exact ⟨selected.1, selected.2, first, rfl, hread⟩

/-- A round reports the corroborated grade of some first answer exactly when its asked peer
gave that answer and the round settled it.
-/
theorem readOptCorroborated_settled_iff {views : PoolViews}
    {readAsked readCorroborator : Peer → Except ChiaQueryError (Option α)}
    (first : Option α)
    : (readOptCorroborated views readAsked readCorroborator).result
          = .ok (settledGrade first)
      ↔ ∃ peer asked,
          pick views = .ok (peer, asked)
          ∧ readAsked peer = .ok first
          ∧ IsSettled views asked first
              (askCorroborators views asked readCorroborator) := by
  constructor
  · intro h
    obtain ⟨peer, asked, answered, hpick, hread⟩ := exists_answer_of_readOptCorroborated h
    rw [readOptCorroborated_of_answer hpick hread] at h
    rcases gradeFirst_value h with hsame | hother
    · cases settledGrade_inj hsame
      exact ⟨peer, asked, hpick, hread, gradeFirst_settled_iff.mp h⟩
    · exact absurd hother (settledGrade_ne_unsettledGrade first answered)
  · intro graded
    obtain ⟨peer, asked, hpick, hread, hsettled⟩ := graded
    rw [readOptCorroborated_of_answer hpick hread]
    exact gradeFirst_settled_iff.mpr hsettled

/-- The grading of a scalar round by independent peers. Witness: the verdict of a round is a
function of how many answers second the first one and whether any contradicts it.
-/
theorem readOptCorroborated_graded (views : PoolViews)
    (readAsked readCorroborator : Peer → Except ChiaQueryError (Option α))
    : ScalarGrading views readAsked readCorroborator where
  found_iff value := readOptCorroborated_settled_iff (some value)
  absent_iff := readOptCorroborated_settled_iff none
  contradicted := by
    intro peer asked first hpick hread contradicted
    obtain ⟨answer, member, differs⟩ := contradicted
    have hany
        : (askCorroborators views asked readCorroborator).any
            (fun answer => contradicts first answer.2) = true :=
      List.any_eq_true.mpr ⟨answer, member, differs⟩
    have hverdict := gradeFirst_verdict first asked (readiness views asked)
      (askCorroborators views asked readCorroborator)
    rw [hany, if_pos rfl] at hverdict
    rw [readOptCorroborated_of_answer hpick hread]
    exact exists_detail_of_verdict hverdict
  order_free := by
    intro peer asked first shuffled hpick hread hperm
    rw [readOptCorroborated_of_answer hpick hread, gradeFirst_verdict, gradeFirst_verdict,
      hperm.any_eq, hperm.countP_eq]
  ejected_iff := by
    intro address
    cases hpick : pick views with
    | error failure => simp [readOptCorroborated, hpick]
    | ok selected =>
        obtain ⟨peer, asked⟩ := selected
        cases hread : readAsked peer with
        | error failure => simp [readOptCorroborated, hpick, hread]
        | ok first =>
            rw [readOptCorroborated_of_answer hpick hread, gradeFirst_ejected, mem_failures]
            simp [hread]

end Scalar

end PeerBackend

end ChiaQuery
