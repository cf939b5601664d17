import ChiaQuery.Coinset.Client
import ChiaQuery.LightClient.Provider

/-! What a caller is told of a bundle it submitted. Every verdict is that of a destination the
bundle was sent to, a peer or coinset, and only an admission is told as a success; the light
client's outcome is the same verdict in other words.
-/

namespace ChiaQuery

open ChiaQuery.Library

/-- `SubmitOutcome`. -/
inductive SubmitOutcome where
  | accepted
  | notAdmitted (reason : Option String)
  | failed (reason : Option String)
  | unknown (status : UInt8) (reason : Option String)
  deriving DecidableEq, Repr

namespace SubmitOutcome

/-- `from_ack`. -/
def fromAck (status : UInt8) (reason : Option String) : SubmitOutcome :=
  if status = 1 then .accepted
  else if status = 2 then .notAdmitted reason
  else if status = 3 then .failed reason
  else .unknown status reason

/-- `is_accepted`. -/
def isAccepted : SubmitOutcome → Bool
  | accepted => true
  | _ => false

/-- `reason`. -/
def reason : SubmitOutcome → Option String
  | accepted => none
  | notAdmitted reason | failed reason | unknown _ reason => reason

end SubmitOutcome

namespace LightClient

variable {crates : ChiaCrates}

/-- A write on the anchor session, and the address that is discarded when it fails. -/
structure AnchorWrite (α : Type) where
  result : Except LightClientError α
  discarded : Option SocketAddr

/-- What `with_timeout` and the transport make of a request that failed. -/
def failureOf : RequestFailure → LightClientError
  | .timedOut => .timeout
  | .failed text => .transport text

/-- `PooledFetcher::send_transaction`, on the anchor session it drew. -/
def PooledFetcher.sendTransaction (session : Except LightClientError (Peer × SocketAddr))
    (wire : PeerWire crates) (bundle : ProtocolSpendBundle crates.Signature)
    : AnchorWrite (UInt8 × Option String) :=
  match session with
  | .error failure => { result := .error failure, discarded := none }
  | .ok (peer, address) =>
      match wire.sendTransaction peer bundle with
      | .ok ack => { result := .ok (ack.status, ack.error), discarded := none }
      | .error failure => { result := .error (failureOf failure), discarded := some address }

/-- `ChiaLightClient::submit_spend`. -/
def submitSpend (session : Except LightClientError (Peer × SocketAddr)) (wire : PeerWire crates)
    (bundle : ProtocolSpendBundle crates.Signature)
    : AnchorWrite SubmitOutcome :=
  let { result, discarded } := PooledFetcher.sendTransaction session wire bundle
  { result := result.map (fun (status, reason) => SubmitOutcome.fromAck status reason), discarded }

end LightClient

/-- What a push meets: the pool and the connections of its two attempts, and coinset. -/
structure Push (crates : ChiaCrates) where
  coinsetFallbackEnabled : Bool
  first : PoolViews
  retry : PoolViews
  firstWire : PeerWire crates
  retryWire : PeerWire crates
  coinset : Coinset.CoinsetClient
  bundle : SpendBundle

namespace Push

variable {crates : ChiaCrates}

/-- `push_tx`, over the coinset client's own. -/
def result (push : Push crates) : Except ChiaQueryError TxStatus :=
  (QueryRouter.pushTx push.coinsetFallbackEnabled push.first push.retry push.firstWire
    push.retryWire (push.coinset.pushTx push.bundle) push.bundle).result

/-- A peer of the pool was sent the bundle and acknowledged it. -/
def Acknowledged (push : Push crates) (views : PoolViews) (wire : PeerWire crates)
    (ack : TransactionAck)
    : Prop :=
  ∃ proto,
    PeerBackend.toProtocolSpendBundle crates push.bundle = .ok proto
    ∧ ∃ entry ∈ views.atPick, wire.sendTransaction entry.peer proto = .ok ack

/-- Coinset answered the push in this envelope. -/
def CoinsetAnswers (push : Push crates) (json : Json) : Prop :=
  push.coinset.Answers "push_tx"
    (.object [("spend_bundle", SpendBundle.format.write push.bundle)]) json

/-- Where a verdict comes from: a peer that acknowledged the bundle, or coinset's envelope. -/
inductive VerdictOf (push : Push crates) : TxStatus → Prop
  | first {ack} (acked : push.Acknowledged push.first push.firstWire ack)
    : VerdictOf push (ackToTxStatus ack)
  | retry {ack} (acked : push.Acknowledged push.retry push.retryWire ack)
    : VerdictOf push (ackToTxStatus ack)
  | coinset {json} (enabled : push.coinsetFallbackEnabled = true)
    (answered : push.CoinsetAnswers json)
    : VerdictOf push
        (Coinset.coinsetStatusToTxStatus
          ((Coinset.asStr (Coinset.valueAt json "status")).getD "UNKNOWN")
          (Coinset.asStr (Coinset.valueAt json "error")))

/-- Somebody the bundle was sent to admitted it. -/
inductive Admitted (push : Push crates) : Prop
  | first {ack} (acked : push.Acknowledged push.first push.firstWire ack) (admits : ack.status = 1)
  | retry {ack} (acked : push.Acknowledged push.retry push.retryWire ack) (admits : ack.status = 1)
  | coinset {json} (enabled : push.coinsetFallbackEnabled = true)
    (answered : push.CoinsetAnswers json)
    (admits : Coinset.valueAt json "status" = .string "SUCCESS")

end Push

/-- A push and a submission tell their destinations' own verdicts, in labels that read back as the
same verdicts. A success is told only of a bundle that somebody admitted, and the light client
accepts what the push would tell as a success.
-/
structure TellsVerdicts {crates : ChiaCrates} (push : Push crates) : Prop where
  verdict
    : ∀ status,
        push.result = .ok status
        → push.VerdictOf status
          ∧ Coinset.coinsetStatusToTxStatus status.status status.error = status
  success : ∀ status, push.result = .ok status → status.success = true → push.Admitted
  submitted
    : ∀ session (wire : PeerWire crates) proto outcome,
        (LightClient.submitSpend session wire proto).result = .ok outcome
        → ∃ peer address ack,
            session = .ok (peer, address)
            ∧ wire.sendTransaction peer proto = .ok ack
            ∧ outcome.isAccepted = (ackToTxStatus ack).success
            ∧ outcome.reason = if outcome.isAccepted then none else (ackToTxStatus ack).error

------------------------------------------------------------------------------------------
-- The words of a verdict
------------------------------------------------------------------------------------------

/-- An acknowledgement tells a success exactly when its status is 1. -/
theorem ackToTxStatus_success (ack : TransactionAck)
    : (ackToTxStatus ack).success = decide (ack.status = 1) := by
  unfold ackToTxStatus
  split_ifs with one two three
  all_goals simp [one]

theorem ackToTxStatus_error (ack : TransactionAck) : (ackToTxStatus ack).error = ack.error := by
  unfold ackToTxStatus
  split_ifs <;> rfl

/-- Read as coinset's, the label of an acknowledgement gives the same verdict. -/
theorem coinsetStatusToTxStatus_ack (ack : TransactionAck)
    : Coinset.coinsetStatusToTxStatus (ackToTxStatus ack).status (ackToTxStatus ack).error
      = ackToTxStatus ack := by
  rw [ackToTxStatus_error]
  unfold ackToTxStatus
  split_ifs <;> rfl

/-- A status of coinset's is told as it stands, and a success only for its own label. -/
theorem coinsetStatusToTxStatus_again (status : String) (error : Option String)
    : Coinset.coinsetStatusToTxStatus
        (Coinset.coinsetStatusToTxStatus status error).status
        (Coinset.coinsetStatusToTxStatus status error).error
      = Coinset.coinsetStatusToTxStatus status error :=
  rfl

theorem coinsetStatusToTxStatus_success {status : String} {error : Option String}
    (success : (Coinset.coinsetStatusToTxStatus status error).success = true)
    : status = "SUCCESS" := by
  unfold Coinset.coinsetStatusToTxStatus at success
  dsimp only at success
  by_contra other
  rw [if_neg other] at success
  split_ifs at success
  all_goals cases success

theorem SubmitOutcome.fromAck_isAccepted (status : UInt8) (reason : Option String)
    : (fromAck status reason).isAccepted = decide (status = 1) := by
  unfold fromAck
  split_ifs with one two three
  all_goals simp [isAccepted, one]

theorem SubmitOutcome.fromAck_reason (status : UInt8) (reason : Option String)
    : (fromAck status reason).reason = if status = 1 then none else reason := by
  unfold fromAck
  split_ifs with one two three
  all_goals simp [SubmitOutcome.reason]

------------------------------------------------------------------------------------------
-- Where a verdict comes from
------------------------------------------------------------------------------------------

namespace Push

variable {crates : ChiaCrates} {push : Push crates}

/-- An answered attempt on a picked peer is its acknowledgement of the bundle. -/
theorem acknowledged_of_doPushTx {views : PoolViews} {wire : PeerWire crates} {entry : PeerEntry}
    {status : TxStatus} (held : entry ∈ views.atPick)
    (pushed : PeerBackend.doPushTx wire entry.peer push.bundle = .ok status)
    : ∃ ack, push.Acknowledged views wire ack ∧ status = ackToTxStatus ack := by
  obtain ⟨proto, converted, pushed⟩ := bind_eq_ok_iff.mp pushed
  obtain ⟨ack, sent, pushed⟩ := bind_eq_ok_iff.mp pushed
  cases pushed
  exact ⟨ack, ⟨proto, converted, entry, held, mapError_eq_ok_iff.mp sent⟩, rfl⟩

/-- What an attempt on a pick returns was acknowledged by a peer that is held. -/
theorem acknowledged_of_attempt {views : PoolViews} {wire : PeerWire crates}
    {picked : Except ChiaQueryError (Peer × SocketAddr)} {status : TxStatus}
    (holds
      : ∀ peer address,
          picked = .ok (peer, address) → ∃ entry ∈ views.atPick, entry.peer = peer)
    (answered
      : (PeerBackend.ejectOnFailure picked (fun peer =>
          PeerBackend.doPushTx wire peer push.bundle)).result
        = .ok status)
    : ∃ ack, push.Acknowledged views wire ack ∧ status = ackToTxStatus ack := by
  cases picked with
  | error failure => cases answered
  | ok selected =>
      obtain ⟨entry, held, same⟩ := holds selected.1 selected.2 rfl
      apply acknowledged_of_doPushTx held
      rw [same]
      cases outcome : PeerBackend.doPushTx wire selected.1 push.bundle with
      | error failure =>
          simp only [PeerBackend.ejectOnFailure, outcome] at answered
          cases answered
      | ok found =>
          simp only [PeerBackend.ejectOnFailure, outcome] at answered
          exact answered

/-- What a push returns is what one of its attempts did, or coinset. -/
theorem result_cases {status : TxStatus} (returned : push.result = .ok status)
    : (PeerBackend.tryPushTx push.first push.firstWire push.bundle).result = .ok status
      ∨ (PeerBackend.tryPushTx push.retry push.retryWire push.bundle).result = .ok status
      ∨ (∃ refused,
          (PeerBackend.tryPushTxExcluding push.retry push.retryWire push.bundle refused).result
          = .ok status)
      ∨ push.coinsetFallbackEnabled = true ∧ push.coinset.pushTx push.bundle = .ok status := by
  obtain ⟨same, -⟩ := tryPushTxAttributed_eq push.first push.firstWire push.bundle
  unfold result QueryRouter.pushTx at returned
  cases attributed : (PeerBackend.tryPushTxAttributed push.first push.firstWire push.bundle).result
    with
  | error peerError =>
      simp only [attributed, QueryRouter.peerThenCoinset] at returned
      cases again : (PeerBackend.tryPushTx push.retry push.retryWire push.bundle).result with
      | ok found =>
          rw [again] at returned
          exact Or.inr (Or.inl returned)
      | error retryError =>
          rw [again] at returned
          cases enabled : push.coinsetFallbackEnabled with
          | false =>
              rw [enabled] at returned
              cases returned
          | true =>
              rw [enabled] at returned
              exact Or.inr (Or.inr (Or.inr ⟨rfl, mapError_eq_ok_iff.mp returned⟩))
  | ok pair =>
      obtain ⟨first, refused⟩ := pair
      have own
          : (PeerBackend.tryPushTx push.first push.firstWire push.bundle).result = .ok first := by
        rw [same, attributed]
        rfl
      simp only [attributed] at returned
      split at returned
      · cases returned
        exact Or.inl own
      · -- The second verdict is the second answer, or the first one stands.
        cases second : (PeerBackend.tryPushTxExcluding push.retry push.retryWire push.bundle
            refused).result with
        | error failure =>
            simp only [second, QueryRouter.secondVerdict] at returned
            cases returned
            exact Or.inl own
        | ok other =>
            simp only [second, QueryRouter.secondVerdict] at returned
            split at returned
            · cases returned
              exact Or.inr (Or.inr (Or.inl ⟨refused, second⟩))
            · cases returned
              exact Or.inl own

theorem entry_of_pick {views : PoolViews} {peer : Peer} {address : SocketAddr}
    (picked : PeerBackend.pick views = .ok (peer, address))
    : ∃ entry ∈ views.atPick, entry.peer = peer := by
  obtain ⟨entry, held, same, -⟩ := PeerBackend.mem_of_pick picked
  exact ⟨entry, held, same⟩

theorem entry_of_pickExcluding {views : PoolViews} {refused : SocketAddr} {peer : Peer}
    {address : SocketAddr}
    (picked : PeerBackend.pickExcluding views refused = .ok (peer, address))
    : ∃ entry ∈ views.atPick, entry.peer = peer := by
  unfold PeerBackend.pickExcluding at picked
  cases selected : PeerPool.selectPeerExcluding views.atPick views.nextIdx refused with
  | none =>
      rw [selected] at picked
      cases picked
  | some choice =>
      rw [selected] at picked
      cases picked
      obtain ⟨entry, eligible, same, -⟩ := PeerPool.exists_entry_of_selectPeer selected
      exact ⟨entry, (List.mem_filter.mp eligible).1, same⟩

/-- Every verdict is that of a destination. -/
theorem verdictOf_of_result {status : TxStatus} (returned : push.result = .ok status)
    : push.VerdictOf status := by
  rcases result_cases returned with first | retry | ⟨refused, retry⟩ | ⟨enabled, told⟩
  · obtain ⟨ack, acked, rfl⟩ :=
      acknowledged_of_attempt (fun _ _ picked => entry_of_pick picked) first
    exact .first acked
  · obtain ⟨ack, acked, rfl⟩ :=
      acknowledged_of_attempt (fun _ _ picked => entry_of_pick picked) retry
    exact .retry acked
  · obtain ⟨ack, acked, rfl⟩ :=
      acknowledged_of_attempt (fun _ _ picked => entry_of_pickExcluding picked) retry
    exact .retry acked
  · obtain ⟨json, posted, told⟩ := bind_eq_ok_iff.mp told
    cases told
    exact .coinset enabled (Coinset.CoinsetClient.post_eq_ok_iff.mp posted)

theorem VerdictOf.relayed {status : TxStatus} (verdict : push.VerdictOf status)
    : Coinset.coinsetStatusToTxStatus status.status status.error = status := by
  cases verdict with
  | first | retry => exact coinsetStatusToTxStatus_ack _
  | coinset => exact coinsetStatusToTxStatus_again _ _

theorem asStr_getD_eq {json : Json} {text : String} (other : text ≠ "UNKNOWN")
    (read : (Coinset.asStr json).getD "UNKNOWN" = text)
    : json = .string text := by
  cases json with
  | string own =>
      cases read
      rfl
  | _ => exact absurd read.symm other

theorem VerdictOf.admitted {status : TxStatus} (verdict : push.VerdictOf status)
    (success : status.success = true)
    : push.Admitted := by
  cases verdict with
  | first acked =>
      rw [ackToTxStatus_success, decide_eq_true_eq] at success
      exact .first acked success
  | retry acked =>
      rw [ackToTxStatus_success, decide_eq_true_eq] at success
      exact .retry acked success
  | coinset enabled answered =>
      have label := coinsetStatusToTxStatus_success success
      exact .coinset enabled answered (asStr_getD_eq (by decide) label)

end Push

/-- What a submission on the anchor comes to is the acknowledgement of its peer. -/
theorem submitSpend_eq_ok_iff {crates : ChiaCrates}
    {session : Except LightClient.LightClientError (Peer × SocketAddr)} {wire : PeerWire crates}
    {proto : ProtocolSpendBundle crates.Signature} {outcome : SubmitOutcome}
    : (LightClient.submitSpend session wire proto).result = .ok outcome
      ↔ ∃ peer address ack,
          session = .ok (peer, address)
          ∧ wire.sendTransaction peer proto = .ok ack
          ∧ outcome = SubmitOutcome.fromAck ack.status ack.error := by
  unfold LightClient.submitSpend LightClient.PooledFetcher.sendTransaction
  cases session with
  | error failure => simp [Except.map]
  | ok drawn =>
      obtain ⟨peer, address⟩ := drawn
      cases sent : wire.sendTransaction peer proto with
      | error failure => simp [sent, Except.map]
      | ok ack => simp [sent, Except.map, eq_comm]

/-- Every push and every submission tells its destinations' own verdicts. -/
theorem push_tellsVerdicts {crates : ChiaCrates} (push : Push crates) : TellsVerdicts push where
  verdict := by
    intro status returned
    have verdict := Push.verdictOf_of_result returned
    exact ⟨verdict, verdict.relayed⟩
  success := by
    intro status returned success
    exact (Push.verdictOf_of_result returned).admitted success
  submitted := by
    intro session wire proto outcome submitted
    obtain ⟨peer, address, ack, drawn, sent, rfl⟩ := submitSpend_eq_ok_iff.mp submitted
    refine ⟨peer, address, ack, drawn, sent, ?_, ?_⟩
    · rw [SubmitOutcome.fromAck_isAccepted, ackToTxStatus_success]
    · rw [SubmitOutcome.fromAck_isAccepted, SubmitOutcome.fromAck_reason, ackToTxStatus_error]
      simp

end ChiaQuery
