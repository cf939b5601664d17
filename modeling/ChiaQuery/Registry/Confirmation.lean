import ChiaQuery.Registry.ChiaQueryProvider

/-! Waiting for a coin to be confirmed: the client is read again and again until a read finds the
coin confirmed, or the next read would start behind the deadline.
-/

namespace ChiaQuery.Registry

open ChiaQuery.Library

/-- One poll: the client as the read finds it, and the clock when the read has come back. -/
structure Poll (crates : ChiaCrates) (blocks : BlockCrates) where
  client : ChiaQueryClient crates blocks
  now : Nat

variable {crates : ChiaCrates} {blocks : BlockCrates}

/-- `get_coin_record_by_name`, as a poll reads it. -/
def Poll.coinRecord (poll : Poll crates blocks) (coinId : String)
    : Except ChiaQueryError CoinRecord :=
  QueryRouter.getCoinRecordByName poll.client.coinsetFallbackEnabled poll.client.sources coinId

/-- What a wait is for: a coin, polled every `pollInterval` for the length of `timeout`, which
began at `started`. `timeoutText` is the timeout as it is printed.
-/
structure Wait where
  coinId : String
  pollInterval : Nat
  timeout : Nat
  timeoutText : String
  started : Nat

namespace Wait

variable (wait : Wait)

def deadline : Nat := wait.started + wait.timeout

/-- The error of a wait that gives up. -/
def notConfirmed : ChiaQueryError :=
  .peerConnection s!"coin {wait.coinId} not confirmed within {wait.timeoutText}"

/-- One turn of the loop of `wait_for_confirmation`. -/
def turn (_ : Unit) (poll : Poll crates blocks)
    : Loop Unit (Except ChiaQueryError CoinRecord) :=
  let keepPolling :=
    if poll.now + wait.pollInterval > wait.deadline then .returned (.error wait.notConfirmed)
    else .running ()
  match poll.coinRecord wait.coinId with
  | .ok record =>
      if record.confirmedBlockIndex > 0 then .returned (.ok record) else keepPolling
  -- An error of any kind is waited out, a contradiction between sources too.
  | .error _ => keepPolling

end Wait

/-- `wait_for_confirmation`, after a number of its polls. -/
def waitForConfirmation (wait : Wait) (polls : Nat → Poll crates blocks) (turns : Nat)
    : Loop Unit (Except ChiaQueryError CoinRecord) :=
  Loop.after wait.turn polls () turns

/-- A poll that reads the coin as confirmed. -/
def Poll.Confirms (poll : Poll crates blocks) (wait : Wait) (record : CoinRecord) : Prop :=
  poll.coinRecord wait.coinId = .ok record ∧ 0 < record.confirmedBlockIndex

/-- A poll after which the wait goes on. -/
def Poll.Pends (poll : Poll crates blocks) (wait : Wait) : Prop :=
  (∀ record, ¬ poll.Confirms wait record) ∧ poll.now + wait.pollInterval ≤ wait.deadline

/-- Time does not run backwards and a sleep is not cut short. -/
structure Clocked (wait : Wait) (polls : Nat → Poll crates blocks) : Prop where
  begun : wait.started ≤ (polls 0).now
  slept : ∀ turn, (polls turn).now + wait.pollInterval ≤ (polls (turn + 1)).now

/-- A wait returns the record of the first poll that confirms the coin, if all polls before it
left time for another one, and gives up at the first poll that does neither. It ends after a
number of polls that the timeout bounds. Where few enough sources lie at each poll, a
record it returns was the truth at one of them.
-/
structure WaitsForConfirmation (wait : Wait) (polls : Nat → Poll crates blocks) : Prop where
  confirmed_iff
    : ∀ record,
        Loop.Returns (waitForConfirmation wait polls) (.ok record)
        ↔ ∃ last, (∀ turn < last, (polls turn).Pends wait) ∧ (polls last).Confirms wait record
  gaveUp_iff
    : ∀ failure,
        Loop.Returns (waitForConfirmation wait polls) (.error failure)
        ↔ failure = wait.notConfirmed
          ∧ ∃ last,
              (∀ turn < last, (polls turn).Pends wait)
              ∧ (∀ record, ¬ (polls last).Confirms wait record)
              ∧ wait.deadline < (polls last).now + wait.pollInterval
  ends
    : Clocked wait polls
      → 0 < wait.pollInterval
      → ∃ result,
          waitForConfirmation wait polls (wait.timeout / wait.pollInterval + 1) = .returned result
  truthful
    : ∀ chain : Nat → ChainTruth,
        (∀ turn, (polls turn).client.Sound (chain turn))
        → ∀ record,
            Loop.Returns (waitForConfirmation wait polls) (.ok record)
            → ∃ turn,
                (chain turn).coinRecord wait.coinId = some (chainClaim record)
                ∧ 0 < record.confirmedBlockIndex

------------------------------------------------------------------------------------------
-- What one poll does
------------------------------------------------------------------------------------------

variable {wait : Wait} {poll : Poll crates blocks} {polls : Nat → Poll crates blocks}

/-- What a turn does, by what its poll reads and the time it leaves. -/
theorem Wait.turn_cases (wait : Wait) (poll : Poll crates blocks)
    : (∃ record, poll.Confirms wait record ∧ wait.turn () poll = .returned (.ok record))
      ∨ poll.Pends wait ∧ wait.turn () poll = .running ()
      ∨ (∀ record, ¬ poll.Confirms wait record)
        ∧ wait.deadline < poll.now + wait.pollInterval
        ∧ wait.turn () poll = .returned (.error wait.notConfirmed) := by
  have unconfirmed (none : ∀ record, ¬ poll.Confirms wait record)
      (turned
        : wait.turn () poll
          = if poll.now + wait.pollInterval > wait.deadline
            then .returned (.error wait.notConfirmed)
            else .running ())
      : poll.Pends wait ∧ wait.turn () poll = .running ()
        ∨ (∀ record, ¬ poll.Confirms wait record)
          ∧ wait.deadline < poll.now + wait.pollInterval
          ∧ wait.turn () poll = .returned (.error wait.notConfirmed) := by
    by_cases late : poll.now + wait.pollInterval > wait.deadline
    · exact Or.inr ⟨none, late, turned.trans (if_pos late)⟩
    · exact Or.inl ⟨⟨none, Nat.not_lt.mp late⟩, turned.trans (if_neg late)⟩
  cases read : poll.coinRecord wait.coinId with
  | error failure =>
      right
      apply unconfirmed
      · rintro record ⟨found, -⟩
        rw [read] at found
        cases found
      · simp only [Wait.turn, read]
  | ok record =>
      by_cases confirmed : record.confirmedBlockIndex > 0
      · left
        refine ⟨record, ⟨read, confirmed⟩, ?_⟩
        simp only [Wait.turn, read, if_pos confirmed]
      · right
        apply unconfirmed
        · rintro other ⟨found, later⟩
          rw [read] at found
          cases found
          exact confirmed later
        · simp only [Wait.turn, read, if_neg confirmed]

theorem Wait.turn_running_iff (state : Unit) (poll : Poll crates blocks)
    : (∃ next, wait.turn state poll = .running next) ↔ poll.Pends wait := by
  rcases wait.turn_cases poll with ⟨record, confirms, turned⟩ | ⟨pends, turned⟩ | ⟨-, late, turned⟩
  · simp only [turned, reduceCtorEq, exists_false, false_iff]
    exact fun pends => pends.1 record confirms
  · exact iff_of_true ⟨(), turned⟩ pends
  · simp only [turned, reduceCtorEq, exists_false, false_iff]
    exact fun pends => absurd pends.2 (Nat.not_le_of_lt late)

/-- What a wait returns, it returns in the first turn that does not go on. -/
theorem returns_waitForConfirmation_iff {result : Except ChiaQueryError CoinRecord}
    : Loop.Returns (waitForConfirmation wait polls) result
      ↔ ∃ last,
          (∀ turn < last, (polls turn).Pends wait)
          ∧ wait.turn () (polls last) = .returned result := by
  constructor
  · rintro ⟨turns, returned⟩
    obtain ⟨last, -, state, running, turned⟩ := Loop.exists_turn_of_returned returned
    exact ⟨last, (Loop.exists_running_iff Wait.turn_running_iff last).mp ⟨state, running⟩, turned⟩
  · rintro ⟨last, pend, turned⟩
    obtain ⟨state, running⟩ := (Loop.exists_running_iff Wait.turn_running_iff last).mpr pend
    exact ⟨last + 1, (Loop.after_succ_of_running running).trans turned⟩

/-- By the time of a poll all the sleeps before it have passed, by induction on the polls. -/
theorem Clocked.elapsed (clocked : Clocked wait polls) (turn : Nat)
    : wait.started + turn * wait.pollInterval ≤ (polls turn).now := by
  induction turn with
  | zero =>
      rw [Nat.zero_mul]
      exact clocked.begun
  | succ turn ih =>
      calc
        wait.started + (turn + 1) * wait.pollInterval
          = wait.started + turn * wait.pollInterval + wait.pollInterval := by
            rw [Nat.succ_mul, Nat.add_assoc]
        _ ≤ (polls turn).now + wait.pollInterval := Nat.add_le_add_right ih _
        _ ≤ (polls (turn + 1)).now := clocked.slept turn

/-- The last poll that the timeout has room for does not leave time for another one. -/
theorem Clocked.last_not_pends (clocked : Clocked wait polls) (positive : 0 < wait.pollInterval)
    : ¬ (polls (wait.timeout / wait.pollInterval)).Pends wait := by
  intro pends
  have elapsed := clocked.elapsed (wait.timeout / wait.pollInterval)
  have inTime := pends.2
  have room : wait.timeout
      < wait.timeout / wait.pollInterval * wait.pollInterval + wait.pollInterval :=
    Nat.lt_div_mul_add positive
  unfold Wait.deadline at inTime
  omega

/-- A client of which few enough sources lie reads a coin's record as the chain has it. -/
theorem ChiaQueryClient.Sound.coinRecordByName {client : ChiaQueryClient crates blocks}
    {chain : ChainTruth} (sound : client.Sound chain) {name : String} {record : CoinRecord}
    (read
      : QueryRouter.getCoinRecordByName client.coinsetFallbackEnabled client.sources name
        = .ok record)
    : chain.coinRecord name = some (chainClaim record) := by
  cases found : QueryRouter.getCoinRecordByNameOpt client.coinsetFallbackEnabled client.sources name
    with
  | error failure =>
      rw [QueryRouter.getCoinRecordByName, found] at read
      cases read
  | ok answer =>
      rw [QueryRouter.getCoinRecordByName, found] at read
      cases answer with
      | none => cases read
      | some record =>
          cases read
          have told : (some record).map chainClaim = chain.coinRecord name :=
            peerThenCoinsetOpt_tellsTruth (sound.first.coinRecord name)
              (sound.retry.coinRecord name)
              (fun enabled => (sound.coinset enabled).coinRecord name) _ found
          exact told.symm

end ChiaQuery.Registry
