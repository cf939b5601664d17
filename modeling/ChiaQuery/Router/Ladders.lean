import ChiaQuery.Peer.SetRead

/-! The router's ladders: one peer attempt, one retry on another peer, and the coinset tier.
A graded answer is settled against coinset when the peer tier could not corroborate it.
-/

namespace ChiaQuery

/-- What the tiers answer to one absence-aware read. The retry's and coinset's answers are
the ones they would give if the ladder reaches them.
-/
structure OptAttempts (α : Type*) where
  first : Except ChiaQueryError (OptAnswer α)
  retry : Except ChiaQueryError (OptAnswer α)
  coinset : Except ChiaQueryError (Option α)

/-- What the tiers answer to one population read, with the peak coinset reports for itself. -/
structure SetAttempts where
  first : Except ChiaQueryError (SetAnswer CoinRecord)
  retry : Except ChiaQueryError (SetAnswer CoinRecord)
  coinsetPeak : Except ChiaQueryError (Option UInt32)
  coinsetRaw : Except ChiaQueryError (List CoinRecord)

/-- Tiers of which none answers. -/
def OptAttempts.silent {α : Type*} : OptAttempts α where
  first := .error .peerDiscoveryFailed
  retry := .error .peerDiscoveryFailed
  coinset := .error .peerDiscoveryFailed

/-- Tiers of which none answers. -/
def SetAttempts.silent : SetAttempts where
  first := .error .peerDiscoveryFailed
  retry := .error .peerDiscoveryFailed
  coinsetPeak := .error .peerDiscoveryFailed
  coinsetRaw := .error .peerDiscoveryFailed

/-- `settle_uncorroborated_absence`. -/
def settleUncorroboratedAbsence {α : Type*}
    : Option (Except ChiaQueryError (Option α)) → Except ChiaQueryError (Option α)
  | none =>
      .error
        (.uncorroboratedAbsence
          ("one peer reported absence, no second peer was available, and the coinset "
            ++ "fallback is disabled"))
  | some (.ok none) => .ok none
  | some (.ok (some _)) =>
      .error (.sourcesDisagree "a peer reports absent, the coinset API reports present")
  | some (.error failure) =>
      .error
        (.uncorroboratedAbsence
          ("one peer reported absence and the coinset API could not corroborate it: "
            ++ failure.display))

/-- `settle_uncorroborated_presence`. -/
def settleUncorroboratedPresence {α : Type*} [ChainClaim α] (found : α)
    : Option (Except ChiaQueryError (Option α)) → Except ChiaQueryError (Option α)
  | none =>
      .error
        (.uncorroboratedPresence
          ("one peer produced a record, no second peer was available, and the coinset "
            ++ "fallback is disabled"))
  | some (.ok (some other)) =>
      if chainClaim other = chainClaim found then .ok (some found)
      else
        .error
          (.sourcesDisagree
            (s!"a peer claims `{chainClaim found}`, "
              ++ s!"the coinset API claims `{chainClaim other}`"))
  | some (.ok none) =>
      .error (.sourcesDisagree "a peer reports present, the coinset API reports absent")
  | some (.error failure) =>
      .error
        (.uncorroboratedPresence
          ("one peer produced a record and the coinset API could not corroborate it: "
            ++ failure.display))

/-- `settle_uncorroborated_set`. -/
def settleUncorroboratedSet (items : List CoinRecord) (asOfHeight : UInt32)
    (projection : SetProjection)
    : Option (Except ChiaQueryError (List CoinRecord))
      → Except ChiaQueryError (CorroboratedSet CoinRecord)
  | none =>
      .error
        (.uncorroboratedPresence
          ("one peer produced a set, no floor of independent peers agreed with it, and the"
            ++ "                  coinset fallback is disabled"))
  | some (.error failure) =>
      .error
        (.uncorroboratedPresence
          ("one peer produced a set and the coinset API could not corroborate it: "
            ++ failure.display))
  | some (.ok raw) =>
      let theirs := project (normaliseAt raw asOfHeight) projection
      match
        contradiction "the peer tier" (fingerprint items) "the coinset API"
          (fingerprint theirs)
      with
      | none => .ok { items, asOfHeight }
      | some detail => .error (.sourcesDisagree s!"at height {asOfHeight}: {detail}")

namespace QueryRouter

/-- Ask coinset only when the fallback is enabled. -/
def consult {α : Type*} (fallback : Bool) (coinset : α) : Option α :=
  if fallback then some coinset else none

/-- `settle_peer_answer`. -/
def settlePeerAnswer {α : Type*} [ChainClaim α] (fallback : Bool) (answer : OptAnswer α)
    (coinset : Except ChiaQueryError (Option α))
    : Except ChiaQueryError (Option α) :=
  match answer with
  | .found value => .ok (some value)
  | .corroboratedAbsent => .ok none
  | .uncorroboratedFound value =>
      settleUncorroboratedPresence value (consult fallback coinset)
  | .uncorroboratedAbsent => settleUncorroboratedAbsence (consult fallback coinset)

/-- `peer_then_coinset_opt`. -/
def peerThenCoinsetOpt {α : Type*} [ChainClaim α] (fallback : Bool)
    (attempts : OptAttempts α)
    : Except ChiaQueryError (Option α) :=
  match attempts.first with
  | .ok answer => settlePeerAnswer fallback answer attempts.coinset
  -- The first failure is dropped, whatever its kind.
  | .error _ =>
      match attempts.retry with
      | .ok answer => settlePeerAnswer fallback answer attempts.coinset
      | .error peerError =>
          if fallback then
            attempts.coinset.mapError
              (fun coinsetError => .allSourcesFailed peerError (some coinsetError))
          else .error peerError

/-- `settle_set_answer`. -/
def settleSetAnswer (fallback : Bool) (answer : SetAnswer CoinRecord)
    (projection : SetProjection) (coinsetRaw : Except ChiaQueryError (List CoinRecord))
    : Except ChiaQueryError (CorroboratedSet CoinRecord) :=
  match answer with
  | .corroborated items asOfHeight => .ok { items, asOfHeight }
  | .uncorroborated items asOfHeight =>
      settleUncorroboratedSet items asOfHeight projection (consult fallback coinsetRaw)

/-- `coinset_only_set`. -/
def coinsetOnlySet (attempts : SetAttempts) (projection : SetProjection)
    (peerError : ChiaQueryError)
    : Except ChiaQueryError (CorroboratedSet CoinRecord) :=
  let allSourcesFailed (coinsetError : ChiaQueryError) : ChiaQueryError :=
    .allSourcesFailed peerError (some coinsetError)
  match attempts.coinsetPeak with
  | .error coinsetError => .error (allSourcesFailed coinsetError)
  | .ok none =>
      .error
        (allSourcesFailed
          (.coinsetApiError
            ("the coinset API reports no peak, so its answer cannot be held to a "
              ++ "height")))
  | .ok (some peak) =>
      match commonHeight [peak] projection.endHeight with
      | none =>
          .error
            (allSourcesFailed
              (.coinsetApiError
                s!"no settled common height exists below the coinset peak {peak}"))
      | some asOfHeight =>
          match attempts.coinsetRaw with
          | .error coinsetError => .error (allSourcesFailed coinsetError)
          | .ok raw =>
              .ok { items := project (normaliseAt raw asOfHeight) projection, asOfHeight }

/-- `peer_then_coinset_set`. -/
def peerThenCoinsetSet (fallback : Bool) (attempts : SetAttempts)
    (projection : SetProjection)
    : Except ChiaQueryError (CorroboratedSet CoinRecord) :=
  match attempts.first with
  | .ok answer => settleSetAnswer fallback answer projection attempts.coinsetRaw
  -- The first failure is dropped, whatever its kind.
  | .error _ =>
      match attempts.retry with
      | .ok answer => settleSetAnswer fallback answer projection attempts.coinsetRaw
      | .error peerError =>
          if fallback then coinsetOnlySet attempts projection peerError
          else .error peerError

end QueryRouter

/-- Whether an outcome answers a read, which may need a value rather than an absence. -/
def answersAs {α : Type*} (needsValue : Bool) (outcome : Except ChiaQueryError (Option α))
    : Bool :=
  match outcome with
  | .ok (some _) => true
  | .ok none => !needsValue
  | .error _ => false

namespace OptAttempts

variable {α : Type*} [ChainClaim α]

/-- Whether an attempt that was made reported a contradiction. -/
def contradicted (attempts : OptAttempts α) : Bool :=
  reportsDisagreement attempts.first
  || !attempts.first.isOk && reportsDisagreement attempts.retry

/-- Whether a graded answer stands, by itself or because coinset may second it. A read that
needs a value does not stand on an absence.
-/
def stands (fallback needsValue : Bool) (coinset : Except ChiaQueryError (Option α))
    : OptAnswer α → Bool
  | .found _ => true
  | .corroboratedAbsent => !needsValue
  | .uncorroboratedFound value => fallback && PeerBackend.seconds (some value) coinset
  | .uncorroboratedAbsent => !needsValue && fallback && PeerBackend.seconds none coinset

/-- Whether anything asked after the first attempt answers. -/
def answeredLater (fallback needsValue : Bool) (attempts : OptAttempts α) : Bool :=
  match attempts.retry with
  | .ok answer => stands fallback needsValue attempts.coinset answer
  | .error _ => fallback && answersAs needsValue attempts.coinset

end OptAttempts

namespace SetAttempts

/-- Whether an attempt that was made reported a contradiction. -/
def contradicted (attempts : SetAttempts) : Bool :=
  reportsDisagreement attempts.first
  || !attempts.first.isOk && reportsDisagreement attempts.retry

/-- Whether a graded set stands, by itself or because coinset may second it. -/
def stands (fallback : Bool) (projection : SetProjection)
    (coinsetRaw : Except ChiaQueryError (List CoinRecord))
    : SetAnswer CoinRecord → Bool
  | .corroborated _ _ => true
  | .uncorroborated items height =>
      fallback
      && match coinsetRaw with
        | .ok raw =>
            fingerprint (project (normaliseAt raw height) projection) = fingerprint items
        | .error _ => false

/-- The height coinset's own answer is held to, when it can be held to one. -/
def coinsetHeight (attempts : SetAttempts) (projection : SetProjection) : Option UInt32 :=
  match attempts.coinsetPeak with
  | .ok (some peak) => commonHeight [peak] projection.endHeight
  | _ => none

/-- Whether anything asked after the first attempt answers. -/
def answeredLater (fallback : Bool) (projection : SetProjection) (attempts : SetAttempts)
    : Bool :=
  match attempts.retry with
  | .ok answer => stands fallback projection attempts.coinsetRaw answer
  | .error _ =>
      fallback && (attempts.coinsetHeight projection).isSome && attempts.coinsetRaw.isOk

/-- Whether any tier answers. -/
def answers (fallback : Bool) (projection : SetProjection) (attempts : SetAttempts) : Bool :=
  match attempts.first with
  | .ok answer => stands fallback projection attempts.coinsetRaw answer
  | .error _ => attempts.answeredLater fallback projection

end SetAttempts

namespace QueryRouter

theorem settlePeerAnswer_answersAs {α : Type*} [ChainClaim α] (fallback needsValue : Bool)
    (answer : OptAnswer α) (coinset : Except ChiaQueryError (Option α))
    : answersAs needsValue (settlePeerAnswer fallback answer coinset)
      = OptAttempts.stands fallback needsValue coinset answer := by
  cases answer with
  | found value => rfl
  | corroboratedAbsent => rfl
  | uncorroboratedFound value =>
      cases fallback with
      | false => rfl
      | true =>
          rcases coinset with failure | (_ | other)
          · rfl
          · rfl
          · by_cases h : chainClaim other = chainClaim value
            · simp [settlePeerAnswer, consult, settleUncorroboratedPresence, answersAs,
                OptAttempts.stands, PeerBackend.seconds, h]
            · simp [settlePeerAnswer, consult, settleUncorroboratedPresence, answersAs,
                OptAttempts.stands, PeerBackend.seconds, h]
  | uncorroboratedAbsent =>
      cases fallback with
      | false => cases needsValue <;> rfl
      | true => rcases coinset with failure | (_ | other) <;> cases needsValue <;> rfl

/-- Once the first attempt has failed, the ladder answers exactly when a later source does. -/
theorem peerThenCoinsetOpt_answersAs {α : Type*} [ChainClaim α] {fallback needsValue : Bool}
    {attempts : OptAttempts α} (h : attempts.first.isOk = false)
    : answersAs needsValue (peerThenCoinsetOpt fallback attempts)
      = attempts.answeredLater fallback needsValue := by
  obtain ⟨first, retry, coinset⟩ := attempts
  cases first with
  | ok answer => cases h
  | error failure =>
      cases retry with
      | ok answer => exact settlePeerAnswer_answersAs fallback needsValue answer coinset
      | error peerError =>
          cases fallback with
          | false => rfl
          | true => rcases coinset with failure | (_ | other) <;> rfl

theorem settleSetAnswer_isOk (fallback : Bool) (answer : SetAnswer CoinRecord)
    (projection : SetProjection) (coinsetRaw : Except ChiaQueryError (List CoinRecord))
    : (settleSetAnswer fallback answer projection coinsetRaw).isOk
      = SetAttempts.stands fallback projection coinsetRaw answer := by
  cases answer with
  | corroborated items height => rfl
  | uncorroborated items height =>
      cases fallback with
      | false => rfl
      | true =>
          cases coinsetRaw with
          | error failure => rfl
          | ok raw =>
              simp only [settleSetAnswer, consult, if_true, settleUncorroboratedSet,
                SetAttempts.stands, Bool.true_and]
              split
              · rename_i h
                simp [contradiction_eq_none_iff.mp h, Except.isOk, Except.toBool]
              · rename_i detail h
                have hdiffer
                    : fingerprint (project (normaliseAt raw height) projection)
                      ≠ fingerprint items := by
                  intro same
                  rw [contradiction_eq_none_iff.mpr same.symm] at h
                  cases h
                simp [hdiffer, Except.isOk, Except.toBool]

/-- A set ladder answers exactly when some tier it reaches does. -/
theorem peerThenCoinsetSet_isOk (fallback : Bool) (attempts : SetAttempts)
    (projection : SetProjection)
    : (peerThenCoinsetSet fallback attempts projection).isOk
      = attempts.answers fallback projection := by
  obtain ⟨first, retry, coinsetPeak, coinsetRaw⟩ := attempts
  cases first with
  | ok answer => exact settleSetAnswer_isOk fallback answer projection coinsetRaw
  | error failure =>
      cases retry with
      | ok answer => exact settleSetAnswer_isOk fallback answer projection coinsetRaw
      | error peerError =>
          cases fallback with
          | false => rfl
          | true =>
              rcases coinsetPeak with coinsetError | (_ | peak)
              · rfl
              · rfl
              · simp only [peerThenCoinsetSet, coinsetOnlySet, SetAttempts.answers,
                  SetAttempts.answeredLater, SetAttempts.coinsetHeight, if_true,
                  Bool.true_and]
                cases commonHeight [peak] projection.endHeight with
                | none => rfl
                | some height => cases coinsetRaw <;> rfl

end QueryRouter

end ChiaQuery
