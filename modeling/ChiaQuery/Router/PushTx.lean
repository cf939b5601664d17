import ChiaQuery.Peer.LocalErrors

/-! A push of a signed bundle: one transmission, and one more to another peer after a refusal
that may be the refuser's own. A failed attempt goes on as a read's does, and to coinset last.
-/

namespace ChiaQuery

open ChiaQuery.Library

/-- `char::is_whitespace`. -/
def isWhitespace (char : Char) : Bool :=
  let code := char.toNat
  9 ≤ code && code ≤ 13
    || code = 0x20 || code = 0x85 || code = 0xa0 || code = 0x1680
    || 0x2000 ≤ code && code ≤ 0x200a
    || code = 0x2028 || code = 0x2029 || code = 0x202f || code = 0x205f || code = 0x3000

/-- `str::trim`. -/
def trim (text : String) : List Char :=
  ((text.toList.dropWhile isWhitespace).reverse.dropWhile isWhitespace).reverse

/-- `eq_ignore_ascii_case`; only ASCII letters have another case here. -/
def eqIgnoreAsciiCase (left right : List Char) : Bool :=
  left.map Char.toLower = right.map Char.toLower

/-- `BUNDLE_INTRINSIC_REFUSALS`. -/
def bundleIntrinsicRefusals : List String :=
  [
    "BAD_AGGREGATE_SIGNATURE",
    "COIN_AMOUNT_NEGATIVE",
    "COIN_AMOUNT_EXCEEDS_MAXIMUM",
    "DUPLICATE_OUTPUT",
    "MINTING_COIN",
    "RESERVE_FEE_CONDITION_FAILED",
    "WRONG_PUZZLE_HASH",
    "ASSERT_MY_COIN_ID_FAILED",
    "ASSERT_MY_PARENT_ID_FAILED",
    "ASSERT_MY_PUZZLEHASH_FAILED",
    "ASSERT_MY_AMOUNT_FAILED"
  ]

/-- `is_bundle_intrinsic_refusal`. -/
def isBundleIntrinsicRefusal (reason : String) : Bool :=
  bundleIntrinsicRefusals.any (fun intrinsic => eqIgnoreAsciiCase (trim reason) intrinsic.toList)

/-- `is_admitted`. -/
def MempoolInclusion.isAdmitted (inclusion : MempoolInclusion) : Bool :=
  inclusion = .admitted

namespace TxStatus

/-- The status names a reason that is a property of the bundle. -/
def isIntrinsic (status : TxStatus) : Bool :=
  status.error.any isBundleIntrinsicRefusal

/-- `mempool_refusal::is_final`. -/
def isFinal (status : TxStatus) : Bool :=
  status.inclusion.isAdmitted || status.isIntrinsic

end TxStatus

namespace PeerBackend

variable {crates : ChiaCrates}

/-- `try_push_tx_attributed`. -/
def tryPushTxAttributed (views : PoolViews) (asked : PeerWire crates) (bundle : SpendBundle)
    : Round (TxStatus × SocketAddr) :=
  match pick views with
  | .error failure => { result := .error failure, ejected := [] }
  | .ok (peer, address) =>
      match doPushTx asked peer bundle with
      | .ok status => { result := .ok (status, address), ejected := [] }
      | .error failure => { result := .error failure, ejected := [address] }

end PeerBackend

/-- What one attempt does with the connection it picked: the bundle is sent when it converts. -/
structure PushAttempt where
  address : SocketAddr
  sent : Bool
  outcome : Except ChiaQueryError TxStatus

/-- The attempt on a picked connection, if one was picked. -/
def pushAttempts {crates : ChiaCrates} (picked : Except ChiaQueryError (Peer × SocketAddr))
    (asked : PeerWire crates) (bundle : SpendBundle)
    : List PushAttempt :=
  match picked with
  | .error _ => []
  | .ok (peer, address) =>
      [{
        address,
        sent := (PeerBackend.toProtocolSpendBundle crates bundle).isOk,
        outcome := PeerBackend.doPushTx asked peer bundle
      }]

/-- What a push returns, what its first peer attempt and its second one return if it makes one,
what they do with the connections they pick, whom they eject and whether coinset is asked.
-/
structure PushRun where
  result : Except ChiaQueryError TxStatus
  firstResult : Except ChiaQueryError TxStatus
  secondResult : Option (Except ChiaQueryError TxStatus)
  attempts : List PushAttempt
  ejected : List SocketAddr
  askedCoinset : Bool

namespace QueryRouter

/-- `peer_then_coinset`. -/
def peerThenCoinset {α : Type*} (fallback : Bool)
    (first retry coinset : Except ChiaQueryError α)
    : Except ChiaQueryError α :=
  match first with
  | .ok value => .ok value
  | .error _ =>
      match retry with
      | .ok value => .ok value
      | .error peerError =>
          if fallback then
            coinset.mapError
              (fun coinsetError => .allSourcesFailed peerError (some coinsetError))
          else .error peerError

/-- The verdict on a second transmission: the second answer when it is definitive, else the first. -/
def secondVerdict (first : TxStatus) (second : Except ChiaQueryError TxStatus) : TxStatus :=
  match second with
  | .error _ => first
  | .ok second => if second.isFinal then second else first

open PeerBackend in
/-- `push_tx`. The pool and its connections may change between the two attempts. -/
def pushTx {crates : ChiaCrates} (fallback : Bool) (first retry : PoolViews)
    (firstWire retryWire : PeerWire crates) (coinset : Except ChiaQueryError TxStatus)
    (bundle : SpendBundle)
    : PushRun :=
  let round := tryPushTxAttributed first firstWire bundle
  let attempts := pushAttempts (pick first) firstWire bundle
  match round.result with
  | .error peerError =>
      let again := tryPushTx retry retryWire bundle
      {
        result := peerThenCoinset fallback (.error peerError) again.result coinset,
        firstResult := .error peerError,
        secondResult := some again.result,
        attempts := attempts ++ pushAttempts (pick retry) retryWire bundle,
        ejected := round.ejected ++ again.ejected,
        askedCoinset := fallback && !again.result.isOk
      }
  | .ok (status, firstAddr) =>
      if status.isFinal then
        {
          result := .ok status,
          firstResult := .ok status,
          secondResult := none,
          attempts,
          ejected := round.ejected,
          askedCoinset := false
        }
      else
        let other := tryPushTxExcluding retry retryWire bundle firstAddr
        {
          result := .ok (secondVerdict status other.result),
          firstResult := .ok status,
          secondResult := some other.result,
          attempts :=
            attempts ++ pushAttempts (pickExcluding retry firstAddr) retryWire bundle,
          ejected := round.ejected ++ other.ejected,
          askedCoinset := false
        }

end QueryRouter

namespace PushAttempt

/-- The attempt was answered, whatever the answer. -/
def answer (attempt : PushAttempt) : Option TxStatus :=
  attempt.outcome.toOption

def isAdmission (attempt : PushAttempt) : Bool :=
  attempt.answer.any (fun status => status.inclusion.isAdmitted)

def isIntrinsicRefusal (attempt : PushAttempt) : Bool :=
  attempt.answer.any (fun status => !status.inclusion.isAdmitted && status.isIntrinsic)

def isRefusal (attempt : PushAttempt) : Bool :=
  attempt.answer.any (fun status => !status.inclusion.isAdmitted)

end PushAttempt

/-- The answers that the peer attempts of a push return, in their order. -/
def PushRun.answers (run : PushRun) : List TxStatus :=
  run.firstResult.toOption.toList ++ (run.secondResult.bind Except.toOption).toList

/-- The policy of a push, over the attempts it made in their order. -/
structure FollowsPushPolicy (run : PushRun) : Prop where
  answered : run.attempts.filterMap PushAttempt.answer = run.answers
  sentTwice : (run.attempts.filter PushAttempt.sent).length ≤ 2
  elsewhere
    : ∀ refused next rest,
        run.attempts = refused :: next :: rest
        → refused.isRefusal = true
        → next.address ≠ refused.address
  coinsetLast
    : run.askedCoinset = true
      → (∃ failure, run.firstResult = .error failure)
        ∧ (∃ failure, run.secondResult = some (.error failure))
        ∧ ∀ attempt ∈ run.attempts, attempt.answer = none
  admission
    : ∀ attempt ∈ run.attempts, ∀ status,
        attempt.answer = some status
        → status.inclusion.isAdmitted = true
        → run.result = .ok status
  intrinsic
    : run.attempts.any PushAttempt.isAdmission = false
      → run.attempts.any PushAttempt.isIntrinsicRefusal = true
      → ∃ status,
          run.result = .ok status
          ∧ status.isIntrinsic = true
          ∧ some status ∈ run.attempts.map PushAttempt.answer
  firstRefusal
    : run.attempts.any PushAttempt.isAdmission = false
      → run.attempts.any PushAttempt.isIntrinsicRefusal = false
      → ∀ status,
          run.attempts.findSome? PushAttempt.answer = some status
          → run.result = .ok status
  ejections
    : run.ejected
      = (run.attempts.filter (fun attempt => attempt.answer.isNone)).map PushAttempt.address

variable {crates : ChiaCrates}

------------------------------------------------------------------------------------------
-- Attempts, by what they come to
------------------------------------------------------------------------------------------

/-- What an attempt on a pick comes to: nobody was picked, or the picked peer failed or answered. -/
inductive AttemptCase (result : Except ChiaQueryError TxStatus) (ejected : List SocketAddr)
    : List PushAttempt → Prop
  | unpicked {failure} (failed : result = .error failure) (none : ejected = [])
    : AttemptCase result ejected []
  | failed {attempt : PushAttempt} {failure} (unanswered : attempt.answer = none)
    (failed : result = .error failure) (only : ejected = [attempt.address])
    : AttemptCase result ejected [attempt]
  | answered {attempt : PushAttempt} {status} (answers : attempt.answer = some status)
    (returned : result = .ok status) (none : ejected = [])
    : AttemptCase result ejected [attempt]

theorem ejectOnFailure_attemptCase (picked : Except ChiaQueryError (Peer × SocketAddr))
    (asked : PeerWire crates) (bundle : SpendBundle)
    : AttemptCase
        (PeerBackend.ejectOnFailure picked (fun peer =>
          PeerBackend.doPushTx asked peer bundle)).result
        (PeerBackend.ejectOnFailure picked (fun peer =>
          PeerBackend.doPushTx asked peer bundle)).ejected
        (pushAttempts picked asked bundle) := by
  cases picked with
  | error failure => exact .unpicked rfl rfl
  | ok selected =>
      cases outcome : PeerBackend.doPushTx asked selected.1 bundle with
      | error failure =>
          simp only [PeerBackend.ejectOnFailure, pushAttempts, outcome]
          exact .failed rfl rfl rfl
      | ok status =>
          simp only [PeerBackend.ejectOnFailure, pushAttempts, outcome]
          exact .answered rfl rfl rfl

namespace AttemptCase

variable {result : Except ChiaQueryError TxStatus} {ejected : List SocketAddr}
  {attempts : List PushAttempt}

theorem length_le_one (ended : AttemptCase result ejected attempts) : attempts.length ≤ 1 := by
  cases ended <;> simp

/-- An answer is what the attempt returns. -/
theorem returns {attempt : PushAttempt} {status : TxStatus}
    (ended : AttemptCase result ejected attempts) (made : attempt ∈ attempts)
    (answers : attempt.answer = some status)
    : result = .ok status := by
  cases ended with
  | unpicked => cases made
  | failed unanswered =>
      rw [List.mem_singleton.mp made, unanswered] at answers
      cases answers
  | answered given returned =>
      rw [List.mem_singleton.mp made, given] at answers
      exact returned.trans (congrArg Except.ok (Option.some.inj answers))

/-- Only a peer that did not answer is ejected. -/
theorem ejects (ended : AttemptCase result ejected attempts)
    : ejected
      = (attempts.filter (fun attempt => attempt.answer.isNone)).map PushAttempt.address := by
  cases ended with
  | unpicked _ none => exact none
  | failed unanswered _ only => simp [unanswered, only]
  | answered given _ none => simp [given, none]

/-- An attempt returns what it was answered. -/
theorem answers (ended : AttemptCase result ejected attempts)
    : attempts.filterMap PushAttempt.answer = result.toOption.toList := by
  cases ended with
  | unpicked failed => simp [failed, Except.toOption]
  | failed unanswered failed => simp [unanswered, failed, Except.toOption]
  | answered given returned => simp [given, returned, Except.toOption]

/-- A failed attempt had no answer. -/
theorem unanswered {failure : ChiaQueryError}
    (ended : AttemptCase (.error failure) ejected attempts)
    : ∀ attempt ∈ attempts, attempt.answer = none := by
  intro attempt made
  cases answers : attempt.answer with
  | none => rfl
  | some status => cases ended.returns made answers

end AttemptCase

/-- The attributed attempt is a plain one that also says who answered. -/
theorem tryPushTxAttributed_eq (views : PoolViews) (asked : PeerWire crates)
    (bundle : SpendBundle)
    : (PeerBackend.tryPushTx views asked bundle).result
        = (PeerBackend.tryPushTxAttributed views asked bundle).result.map Prod.fst
      ∧ (PeerBackend.tryPushTx views asked bundle).ejected
        = (PeerBackend.tryPushTxAttributed views asked bundle).ejected := by
  unfold PeerBackend.tryPushTx PeerBackend.tryPushTxAttributed PeerBackend.ejectOnFailure
  cases PeerBackend.pick views with
  | error failure => exact ⟨rfl, rfl⟩
  | ok selected =>
      cases outcome : PeerBackend.doPushTx asked selected.1 bundle <;>
        simp [outcome, Except.map]

/-- The answer of an attributed attempt came from the address it names. -/
theorem tryPushTxAttributed_inv {views : PoolViews} {asked : PeerWire crates}
    {bundle : SpendBundle} {status : TxStatus} {address : SocketAddr}
    (answered
      : (PeerBackend.tryPushTxAttributed views asked bundle).result = .ok (status, address))
    : ∃ sent,
        pushAttempts (PeerBackend.pick views) asked bundle
          = [{ address, sent, outcome := .ok status }]
        ∧ (PeerBackend.tryPushTxAttributed views asked bundle).ejected = [] := by
  unfold PeerBackend.tryPushTxAttributed at answered ⊢
  cases picked : PeerBackend.pick views with
  | error failure =>
      rw [picked] at answered
      cases answered
  | ok selected =>
      rw [picked] at answered
      simp only [pushAttempts]
      cases outcome : PeerBackend.doPushTx asked selected.1 bundle with
      | error failure =>
          simp only [outcome] at answered
          cases answered
      | ok found =>
          simp only [outcome] at answered
          cases answered
          exact ⟨_, rfl, rfl⟩

/-- The attempt after a refusal is not on the refuser's address. -/
theorem pushAttempts_excluding {views : PoolViews} {excluded : SocketAddr}
    {asked : PeerWire crates} {bundle : SpendBundle} {attempt : PushAttempt}
    (made
      : attempt ∈ pushAttempts (PeerBackend.pickExcluding views excluded) asked bundle)
    : attempt.address ≠ excluded := by
  unfold PeerBackend.pickExcluding at made
  cases selected : PeerPool.selectPeerExcluding views.atPick views.nextIdx excluded with
  | none => simp [selected, pushAttempts] at made
  | some choice =>
      obtain ⟨entry, eligible, -, held⟩ := PeerPool.exists_entry_of_selectPeer selected
      have elsewhere := (List.mem_filter.mp eligible).2
      simp only [selected, pushAttempts, List.mem_singleton] at made
      rw [made, ← held]
      simpa using elsewhere

------------------------------------------------------------------------------------------
-- The policy, by how the first attempt ends
------------------------------------------------------------------------------------------

theorem length_sent_le (attempts : List PushAttempt)
    : (attempts.filter PushAttempt.sent).length ≤ attempts.length :=
  List.length_filter_le _ _

theorem not_refusal_of_unanswered {attempt : PushAttempt} (unanswered : attempt.answer = none)
    : attempt.isRefusal = false := by
  simp [PushAttempt.isRefusal, unanswered]

/-- An answer that admits nothing and refuses for no intrinsic reason leaves the push open. -/
theorem not_final_of_answer {attempt : PushAttempt} {status : TxStatus}
    (given : attempt.answer = some status) (notAdmitting : attempt.isAdmission = false)
    (notRefusing : attempt.isIntrinsicRefusal = false)
    : status.isFinal = false := by
  simp only [PushAttempt.isAdmission, PushAttempt.isIntrinsicRefusal, given, Option.any_some]
    at notAdmitting notRefusing
  simpa [TxStatus.isFinal, notAdmitting] using notRefusing

/-- After attempts that failed, the answer of the last attempt is the push's. -/
theorem followsPushPolicy_of_failures {failures last : List PushAttempt} {run : PushRun}
    {result : Except ChiaQueryError TxStatus} {failedEjected ejected : List SocketAddr}
    {failure : ChiaQueryError} (failed : AttemptCase (.error failure) failedEjected failures)
    (ended : AttemptCase result ejected last) (attempts : run.attempts = failures ++ last)
    (ejections : run.ejected = failedEjected ++ ejected)
    (returned : ∀ status, result = .ok status → run.result = .ok status)
    (answers : run.answers = result.toOption.toList)
    (coinset
      : run.askedCoinset = true
        → (∃ failure, run.firstResult = .error failure)
          ∧ ∃ failure, result = .error failure ∧ run.secondResult = some result)
    : FollowsPushPolicy run := by
  have ofLast {attempt : PushAttempt} {status : TxStatus} (made : attempt ∈ run.attempts)
      (answers : attempt.answer = some status) : result = .ok status := by
    rw [attempts] at made
    rcases List.mem_append.mp made with earlier | later
    · rw [failed.unanswered attempt earlier] at answers
      cases answers
    · exact ended.returns later answers
  have answered {attempt : PushAttempt} {status : TxStatus} (made : attempt ∈ run.attempts)
      (answers : attempt.answer = some status) : run.result = .ok status :=
    returned status (ofLast made answers)
  constructor
  · rw [attempts, List.filterMap_append, failed.answers, ended.answers, answers]
    rfl
  · have bound := length_sent_le run.attempts
    have few := failed.length_le_one
    have one := ended.length_le_one
    rw [attempts] at bound ⊢
    rw [List.length_append] at bound
    omega
  · intro refused next rest split isRefusal
    rw [attempts] at split
    cases failures with
    | nil =>
        have lengths := congrArg List.length split
        have one := ended.length_le_one
        simp only [List.nil_append, List.length_cons] at lengths
        omega
    | cons first others =>
        obtain ⟨same, -⟩ := List.cons.inj split
        rw [← same, not_refusal_of_unanswered (failed.unanswered first List.mem_cons_self)]
          at isRefusal
        cases isRefusal
  · intro asked
    obtain ⟨first, failure, both, second⟩ := coinset asked
    refine ⟨first, ⟨failure, both ▸ second⟩, fun attempt made => ?_⟩
    cases answers : attempt.answer with
    | none => rfl
    | some status =>
        rw [both] at ofLast
        cases ofLast made answers
  · exact fun attempt made status answers _ => answered made answers
  · intro _ someIntrinsic
    obtain ⟨attempt, made, intrinsic⟩ := List.any_eq_true.mp someIntrinsic
    obtain ⟨status, answers, holds⟩ := (Option.any_eq_true _ _).mp intrinsic
    exact ⟨status, answered made answers, (Bool.and_eq_true_iff.mp holds).2,
      List.mem_map.mpr ⟨attempt, made, answers⟩⟩
  · intro _ _ status first
    obtain ⟨attempt, made, answers⟩ := List.exists_of_findSome?_eq_some first
    exact answered made answers
  · rw [attempts, ejections, failed.ejects, ended.ejects, List.filter_append, List.map_append]

/-- A push whose first attempt was refused for a reason that may be the refuser's own. -/
theorem followsPushPolicy_of_refusal {refused : PushAttempt} {status : TxStatus}
    {last : List PushAttempt} {run : PushRun} {result : Except ChiaQueryError TxStatus}
    (answers : refused.answer = some status) (unsettled : status.isFinal = false)
    (ended : AttemptCase result run.ejected last)
    (elsewhere : ∀ attempt ∈ last, attempt.address ≠ refused.address)
    (attempts : run.attempts = refused :: last)
    (returned : run.result = .ok (QueryRouter.secondVerdict status result))
    (answered : run.answers = status :: result.toOption.toList)
    (coinset : run.askedCoinset = false)
    : FollowsPushPolicy run := by
  obtain ⟨notAdmitted, notIntrinsic⟩ := Bool.or_eq_false_iff.mp unsettled
  have one := ended.length_le_one
  have own {other : TxStatus} (same : refused.answer = some other) : other = status :=
    Option.some.inj (same.symm.trans answers)
  constructor
  · rw [attempts, List.filterMap_cons_some answers, ended.answers, answered]
  · have bound := length_sent_le run.attempts
    rw [attempts] at bound ⊢
    rw [List.length_cons] at bound
    omega
  · intro first next rest split _
    rw [attempts] at split
    obtain ⟨same, others⟩ := List.cons.inj split
    rw [← same]
    exact elsewhere next (by simp [others])
  · intro asked
    rw [coinset] at asked
    cases asked
  · intro attempt made other given admitted
    rw [attempts] at made
    rcases List.mem_cons.mp made with rfl | later
    · rw [own given, notAdmitted] at admitted
      cases admitted
    · have final : other.isFinal = true := by simp [TxStatus.isFinal, admitted]
      rw [returned, ended.returns later given]
      simp only [QueryRouter.secondVerdict, final, if_true]
  · intro _ someIntrinsic
    obtain ⟨attempt, made, intrinsic⟩ := List.any_eq_true.mp someIntrinsic
    obtain ⟨other, given, holds⟩ := (Option.any_eq_true _ _).mp intrinsic
    have isIntrinsic := (Bool.and_eq_true_iff.mp holds).2
    have listed : some other ∈ run.attempts.map PushAttempt.answer :=
      List.mem_map.mpr ⟨attempt, made, given⟩
    rw [attempts] at made
    rcases List.mem_cons.mp made with rfl | later
    · rw [own given, notIntrinsic] at isIntrinsic
      cases isIntrinsic
    · have final : other.isFinal = true := by simp [TxStatus.isFinal, isIntrinsic]
      refine ⟨other, ?_, isIntrinsic, listed⟩
      rw [returned, ended.returns later given]
      simp only [QueryRouter.secondVerdict, final, if_true]
  · intro noAdmission noIntrinsic other first
    rw [attempts, List.findSome?_cons, answers] at first
    rw [returned, ← Option.some.inj first]
    rw [attempts, List.any_cons] at noAdmission noIntrinsic
    have notAdmitting := (Bool.or_eq_false_iff.mp noAdmission).2
    have notRefusing := (Bool.or_eq_false_iff.mp noIntrinsic).2
    cases ended with
    | unpicked failed => rw [failed]; rfl
    | failed _ failed => rw [failed]; rfl
    | answered given same =>
        have unfinished := not_final_of_answer given (by simpa using notAdmitting)
          (by simpa using notRefusing)
        simp only [QueryRouter.secondVerdict, same, unfinished, Bool.false_eq_true, if_false]
  · have held : refused.answer.isNone = false := by simp [answers]
    rw [attempts, List.filter_cons_of_neg (by simp [held])]
    exact ended.ejects

open PeerBackend in
/-- Whatever the peers a push reaches do with it, whichever they are, it follows its policy. -/
theorem pushTx_followsPolicy (fallback : Bool) (first retry : PoolViews)
    (firstWire retryWire : PeerWire crates) (coinset : Except ChiaQueryError TxStatus)
    (bundle : SpendBundle)
    : FollowsPushPolicy
        (QueryRouter.pushTx fallback first retry firstWire retryWire coinset bundle) := by
  have firstCase := ejectOnFailure_attemptCase (pick first) firstWire bundle
  obtain ⟨sameResult, sameEjected⟩ := tryPushTxAttributed_eq first firstWire bundle
  rw [← tryPushTx, sameResult, sameEjected] at firstCase
  unfold QueryRouter.pushTx
  cases answered : (tryPushTxAttributed first firstWire bundle).result with
  | error peerError =>
      rw [answered] at firstCase
      have retryCase := ejectOnFailure_attemptCase (pick retry) retryWire bundle
      rw [← tryPushTx] at retryCase
      simp only [answered]
      refine followsPushPolicy_of_failures firstCase retryCase rfl rfl ?_ rfl ?_
      · intro status returned
        simp only [QueryRouter.peerThenCoinset, returned]
      · intro asked
        refine ⟨⟨peerError, rfl⟩, ?_⟩
        cases again : (tryPushTx retry retryWire bundle).result with
        | error failure => exact ⟨failure, rfl, rfl⟩
        | ok status => simp [again, Except.isOk, Except.toBool] at asked
  | ok pair =>
      obtain ⟨status, firstAddr⟩ := pair
      obtain ⟨sent, attempts, ejections⟩ := tryPushTxAttributed_inv answered
      simp only [answered, attempts, ejections, List.nil_append]
      cases final : status.isFinal with
      | true =>
          have ended : AttemptCase (.ok status) []
              [{ address := firstAddr, sent, outcome := .ok status }] :=
            .answered rfl rfl rfl
          have noneFailed : AttemptCase (.error .peerDiscoveryFailed) [] [] := .unpicked rfl rfl
          exact followsPushPolicy_of_failures noneFailed ended rfl rfl (fun _ same => same) rfl
            (by simp)
      | false =>
          have refusal
              : ({ address := firstAddr, sent, outcome := .ok status } : PushAttempt).answer
                = some status :=
            rfl
          have retryCase :=
            ejectOnFailure_attemptCase (pickExcluding retry firstAddr) retryWire bundle
          have elsewhere
              : ∀ attempt ∈ pushAttempts (pickExcluding retry firstAddr) retryWire bundle,
                  attempt.address ≠ firstAddr :=
            fun _ made => pushAttempts_excluding made
          exact followsPushPolicy_of_refusal refusal final retryCase elsewhere rfl rfl rfl rfl

end ChiaQuery
