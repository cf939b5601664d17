import ChiaQuery.Library.RoundRobin
import ChiaQuery.Registry.SameClaims

/-! When two lists of records agree for a quorum. They are sorted by coin id and compared place by
place, so the records of one coin are compared in the order in which each list came.
-/

namespace ChiaQuery.Registry

open ChiaQuery.Library

variable (coinId : ProtocolCoin → Bytes32)

/-- Two lists agree when they have the same records, each as often, and go on to do so or not
however each of them is reordered.
-/
structure AgreeAsMultisets (left right : List IfaceCoinRecord) : Prop where
  agree : (recordsComparable coinId).quorumEq left right = true ↔ left.Perm right
  reordered
    : ∀ otherLeft otherRight,
        otherLeft.Perm left
        → otherRight.Perm right
        → (recordsComparable coinId).quorumEq otherLeft otherRight
          = (recordsComparable coinId).quorumEq left right

/-- All the records of a list that name one coin are the same record. -/
def OneRecordEach (records : List IfaceCoinRecord) : Prop :=
  ∀ one ∈ records, ∀ other ∈ records, coinId one.coin = coinId other.coin → one = other

variable {coinId}

/-- The records of one coin id, in the order they came. -/
theorem quorumEq_iff_buckets {left right : List IfaceCoinRecord}
    : (recordsComparable coinId).quorumEq left right = true
      ↔ bucketOf (fun record => coinId record.coin) left
        = bucketOf (fun record => coinId record.coin) right := by
  have lists : (recordsComparable coinId).quorumEq left right = true
      ↔ canonicalOrder coinId left = canonicalOrder coinId right :=
    decide_eq_true_iff
  rw [lists, canonicalOrder_eq_iff, funext_iff]
  rfl

/-- Lists that agree have the same records. -/
theorem perm_of_quorumEq {left right : List IfaceCoinRecord}
    (agree : (recordsComparable coinId).quorumEq left right = true)
    : left.Perm right :=
  perm_of_bucketOf_eq (congrFun (quorumEq_iff_buckets.mp agree))

/-- The same records in two orders agree, when one coin has one record. -/
theorem quorumEq_of_perm {left right : List IfaceCoinRecord} (same : left.Perm right)
    (once : OneRecordEach coinId left)
    : (recordsComparable coinId).quorumEq left right = true := by
  refine quorumEq_iff_buckets.mpr (funext (fun id => ?_))
  have buckets := same.filter (fun record => coinId record.coin = id)
  have alike (one other : IfaceCoinRecord)
      (oneHeld : one ∈ bucketOf (fun record => coinId record.coin) left id)
      (otherHeld : other ∈ bucketOf (fun record => coinId record.coin) right id)
      : one = other := by
    obtain ⟨oneMember, oneId⟩ := List.mem_filter.mp oneHeld
    obtain ⟨otherMember, otherId⟩ := List.mem_filter.mp otherHeld
    exact once one oneMember other (same.mem_iff.mpr otherMember)
      ((of_decide_eq_true oneId).trans (of_decide_eq_true otherId).symm)
  have unordered (records : List IfaceCoinRecord) : records.Pairwise (fun _ _ => True) :=
    List.pairwise_of_forall (fun _ _ => trivial)
  exact buckets.eq_of_pairwise (fun one other oneHeld otherHeld _ _ =>
    alike one other oneHeld otherHeld) (unordered _) (unordered _)

theorem OneRecordEach.perm {left right : List IfaceCoinRecord} (once : OneRecordEach coinId left)
    (same : left.Perm right)
    : OneRecordEach coinId right := by
  intro one oneMember other otherMember
  exact once one (same.mem_iff.mpr oneMember) other (same.mem_iff.mpr otherMember)

/-- Lists that agree however the first is ordered have one record for each coin: any record of the
coin can be made the first one of it.
-/
theorem oneRecordEach_of_reordered {left right : List IfaceCoinRecord}
    (agree
      : ∀ otherLeft,
          otherLeft.Perm left
          → (recordsComparable coinId).quorumEq otherLeft right = true)
    : OneRecordEach coinId left := by
  have first {record : IfaceCoinRecord} (member : record ∈ left)
      : (bucketOf (fun record => coinId record.coin) right (coinId record.coin)).head?
        = some record := by
    have buckets := quorumEq_iff_buckets.mp (agree _ (List.perm_cons_erase member).symm)
    rw [← congrFun buckets (coinId record.coin), bucketOf, List.filter_cons_of_pos (by simp)]
    rfl
  intro one oneMember other otherMember sameId
  have leads := first oneMember
  rw [sameId, first otherMember] at leads
  exact (Option.some.inj leads).symm

/-- The agreement of lists is an equivalence, and is equality as multisets unless two lists of the
same records hold different records of one coin.
-/
theorem agreeAsMultisets_iff (coinId : ProtocolCoin → Bytes32)
    : Equivalence (fun left right => (recordsComparable coinId).quorumEq left right = true)
      ∧ ∀ left right : List IfaceCoinRecord,
          AgreeAsMultisets coinId left right
          ↔ (left.Perm right → OneRecordEach coinId left) := by
  refine ⟨(recordsComparable coinId).equivalence, fun left right => ⟨?_, ?_⟩⟩
  · intro multisets same
    have agree (otherLeft : List IfaceCoinRecord) (reordered : otherLeft.Perm left)
        : (recordsComparable coinId).quorumEq otherLeft right = true := by
      rw [multisets.reordered otherLeft right reordered (.refl right)]
      exact multisets.agree.mpr same
    exact oneRecordEach_of_reordered agree
  · intro once
    have decided {otherLeft otherRight : List IfaceCoinRecord} (lefts : otherLeft.Perm left)
        (rights : otherRight.Perm right)
        : (recordsComparable coinId).quorumEq otherLeft otherRight = true
          ↔ left.Perm right := by
      constructor
      · intro agree
        exact (lefts.symm.trans (perm_of_quorumEq agree)).trans rights
      · intro same
        exact quorumEq_of_perm ((lefts.trans same).trans rights.symm)
          ((once same).perm lefts.symm)
    constructor
    · exact decided (.refl left) (.refl right)
    · intro otherLeft otherRight lefts rights
      rw [Bool.eq_iff_iff, decided lefts rights, decided (.refl left) (.refl right)]

/-- A record of one coin, confirmed at a height. -/
def confirmedAt (height : UInt32) : IfaceCoinRecord where
  coin := { parentCoinInfo := 1, puzzleHash := 2, amount := 3 }
  confirmedHeight := some height
  spentHeight := none
  timestamp := none
  coinbase := false

/-- Two records of one coin, in one order and in the other, do not agree. -/
theorem repeated_coin_disagrees
    : ¬ ∀ (coinId : ProtocolCoin → Bytes32) (left right : List IfaceCoinRecord),
        AgreeAsMultisets coinId left right := by
  intro claim
  have multisets := claim ProtocolCoin.parentCoinInfo [confirmedAt 1, confirmedAt 2]
    [confirmedAt 2, confirmedAt 1]
  have agree := multisets.agree.mpr (List.Perm.swap _ _ [])
  have buckets := congrFun (quorumEq_iff_buckets.mp agree) 1
  exact absurd buckets (by decide)

end ChiaQuery.Registry
