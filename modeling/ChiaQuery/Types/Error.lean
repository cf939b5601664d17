import Mathlib.Algebra.Group.Nat.Defs
import Mathlib.Data.List.Forall2
import Mathlib.Data.List.Nodup

/-! The crate's one error type, with the text each failure carries. -/

namespace ChiaQuery

/-- `ChiaQueryError`: every way a query can fail to produce an answer. -/
inductive ChiaQueryError where
  | peerRejection (text : String)
  | peerConnection (text : String)
  | allSourcesFailed (peerError : ChiaQueryError) (coinsetError : Option ChiaQueryError)
  | coinsetApiError (text : String)
  | coinsetHttp (text : String)
  | unsupportedWithoutCoinset (text : String)
  | invalidRequest (text : String)
  | tlsError (text : String)
  | peerDiscoveryFailed
  | uncorroboratedAbsence (text : String)
  | uncorroboratedPresence (text : String)
  | sourcesDisagree (text : String)
  deriving Repr

namespace ChiaQueryError

/-- The `Display` rendering, which names both causes when every source failed. -/
def display : ChiaQueryError → String
  | peerRejection text => s!"peer rejected request: {text}"
  | peerConnection text => s!"peer connection error: {text}"
  | allSourcesFailed peer none =>
      s!"all sources failed (peer: {peer.display}; coinset: not attempted)"
  | allSourcesFailed peer (some coinset) =>
      s!"all sources failed (peer: {peer.display}; coinset: {coinset.display})"
  | coinsetApiError text => s!"coinset API error: {text}"
  | coinsetHttp text => s!"coinset HTTP error: {text}"
  | unsupportedWithoutCoinset text => s!"not supported without coinset: {text}"
  | invalidRequest text => s!"invalid request: {text}"
  | tlsError text => s!"TLS error: {text}"
  | peerDiscoveryFailed => "peer discovery failed: no peers found via DNS introducers"
  | uncorroboratedAbsence text => s!"absence could not be corroborated: {text}"
  | uncorroboratedPresence text => s!"presence could not be corroborated: {text}"
  | sourcesDisagree text => s!"sources disagree: {text}"

/-- The variant of an error without the text it carries. -/
inductive Kind where
  | peerRejection
  | peerConnection
  | allSourcesFailed
  | coinsetApiError
  | coinsetHttp
  | unsupportedWithoutCoinset
  | invalidRequest
  | tlsError
  | peerDiscoveryFailed
  | uncorroboratedAbsence
  | uncorroboratedPresence
  | sourcesDisagree
  deriving DecidableEq, Repr

/-- Which variant an error is. -/
def kind : ChiaQueryError → Kind
  | peerRejection _ => .peerRejection
  | peerConnection _ => .peerConnection
  | allSourcesFailed _ _ => .allSourcesFailed
  | coinsetApiError _ => .coinsetApiError
  | coinsetHttp _ => .coinsetHttp
  | unsupportedWithoutCoinset _ => .unsupportedWithoutCoinset
  | invalidRequest _ => .invalidRequest
  | tlsError _ => .tlsError
  | peerDiscoveryFailed => .peerDiscoveryFailed
  | uncorroboratedAbsence _ => .uncorroboratedAbsence
  | uncorroboratedPresence _ => .uncorroboratedPresence
  | sourcesDisagree _ => .sourcesDisagree

end ChiaQueryError

/-- Whether an outcome reports that two sources contradicted each other. -/
def reportsDisagreement {α : Type*} (outcome : Except ChiaQueryError α) : Bool :=
  match outcome with
  | .error (.sourcesDisagree _) => true
  | _ => false

/-- An outcome with its error reduced to the variant, so that two runs of one read can be
compared without comparing the wording of their errors.
-/
def verdict {α : Type*} (outcome : Except ChiaQueryError α)
    : Except ChiaQueryError.Kind α :=
  outcome.mapError ChiaQueryError.kind

theorem verdict_eq_ok_iff {α : Type*} {outcome : Except ChiaQueryError α} {value : α}
    : verdict outcome = .ok value ↔ outcome = .ok value := by
  cases outcome with
  | error failure => simp [verdict, Except.mapError]
  | ok answer => simp [verdict, Except.mapError]

theorem exists_detail_of_verdict {α : Type*} {outcome : Except ChiaQueryError α}
    (h : verdict outcome = .error .sourcesDisagree)
    : ∃ detail, outcome = .error (.sourcesDisagree detail) := by
  cases outcome with
  | ok value => simp [verdict, Except.mapError] at h
  | error failure =>
      cases failure <;> simp [verdict, Except.mapError, ChiaQueryError.kind] at h ⊢

/-- A computation of two steps comes to a value exactly when both do. -/
theorem bind_eq_ok_iff {ε α β : Type*} {first : Except ε α} {rest : α → Except ε β} {value : β}
    : first.bind rest = .ok value ↔ ∃ found, first = .ok found ∧ rest found = .ok value := by
  cases first with
  | error failure => simp [Except.bind]
  | ok found => simp [Except.bind]

theorem isOk_iff {ε α : Type*} {result : Except ε α}
    : result.isOk = true ↔ ∃ value, result = .ok value := by
  cases result with
  | error failure => simp [Except.isOk, Except.toBool]
  | ok value => simp [Except.isOk, Except.toBool]

theorem mapError_eq_ok_iff {ε δ α : Type*} {result : Except ε α} {f : ε → δ} {value : α}
    : result.mapError f = .ok value ↔ result = .ok value := by
  cases result <;> simp [Except.mapError]

/-- A list is converted exactly when each of its values is, by induction on it. -/
theorem mapM_eq_ok_iff {ε α β : Type} {convert : α → Except ε β} {values : List α}
    {converted : List β}
    : values.mapM convert = .ok converted
      ↔ List.Forall₂ (fun value found => convert value = .ok found) values converted := by
  induction values generalizing converted with
  | nil =>
      rw [List.forall₂_nil_left_iff, List.mapM_nil]
      constructor
      · rintro ⟨⟩
        rfl
      · rintro rfl
        rfl
  | cons value rest ih =>
      rw [List.forall₂_cons_left_iff, List.mapM_cons]
      constructor
      · intro done
        obtain ⟨first, front, done⟩ := bind_eq_ok_iff.mp done
        obtain ⟨others, behind, done⟩ := bind_eq_ok_iff.mp done
        cases done
        exact ⟨first, others, front, ih.mp behind, rfl⟩
      · rintro ⟨first, others, front, behind, rfl⟩
        rw [front, ih.mpr behind]
        rfl

end ChiaQuery
