import ChiaQuery.Library.Recorded
import ChiaQuery.Types.Records
import Mathlib.Order.Defs.LinearOrder

/-! What agreement means for a read that returns a set: every answer is held to one height,
and two answers agree when their identity-to-claim maps at that height are equal.
-/

namespace ChiaQuery

open ChiaQuery.Library

/-- Agreeing independent peers required before an answer counts as corroborated. -/
def corroborationFloor : Nat := 2

/-- How far below the reference peak an announced peak may fall before eviction. -/
def peakLagEviction : UInt32 := 6

/-- Blocks below the lowest answering tip that are not treated as settled. -/
def settledLag : UInt32 := 2

/-- `SetAnswer`: a population read, graded by the peer tier. -/
inductive SetAnswer (α : Type*) where
  | corroborated (items : List α) (asOfHeight : UInt32)
  | uncorroborated (items : List α) (asOfHeight : UInt32)
  deriving DecidableEq, Repr

namespace SetAnswer

variable {α : Type*}

def items : SetAnswer α → List α
  | corroborated items _ | uncorroborated items _ => items

def asOfHeight : SetAnswer α → UInt32
  | corroborated _ height | uncorroborated _ height => height

end SetAnswer

/-- `CorroboratedSet`: a population read the router has settled. -/
structure CorroboratedSet (α : Type*) where
  items : List α
  asOfHeight : UInt32
  deriving DecidableEq, Repr

/-- `HeightedSet`: one source's unfiltered answer and the block it is a snapshot of. -/
structure HeightedSet (α : Type*) where
  items : List α
  asOfHeight : UInt32
  deriving DecidableEq, Repr

/-- `SetProjection`: what the caller asked for, applied after agreement. -/
structure SetProjection where
  startHeight : Option UInt32 := none
  endHeight : Option UInt32 := none
  includeSpent : Bool := false
  deriving DecidableEq, Repr

/-- `SetMember`: a record that can be held to a height and compared as part of a set. -/
class SetMember (α : Type*) extends ChainClaim α where
  identity : α → String
  createdHeight : α → UInt32
  spentHeight : α → Option UInt32
  withSpendDropped : α → α

export SetMember (identity createdHeight spentHeight withSpendDropped)

instance : SetMember CoinRecord where
  identity record :=
    s!"{record.coin.parentCoinInfo}:{record.coin.puzzleHash}:{record.coin.amount}"
  createdHeight record := record.confirmedBlockIndex
  spentHeight record := if record.spent then some record.spentBlockIndex else none
  withSpendDropped record := { record with spent := false, spentBlockIndex := 0 }

/-- `u32::checked_sub`. -/
def checkedSub (left right : UInt32) : Option UInt32 :=
  if right ≤ left then some (left - right) else none

/-- `common_height`: the height every source of a round is held to, `none` when no source
answered or the lowest tip has nothing settled below it.
-/
def commonHeight (asOf : List UInt32) (endHeight : Option UInt32) : Option UInt32 := do
  let lowest ← asOf.min?
  let settled ← checkedSub lowest settledLag
  match endHeight with
  | some last => some (min settled last)
  | none => some settled

/-- `as_of_is_supported`: whether a source may be held to `asOf`, given the peak it has
announced.
-/
def asOfIsSupported (announced : Option UInt32) (asOf : UInt32) : Bool :=
  match announced with
  | none => false
  | some peak => (if asOf ≤ peak then peak - asOf else 0) ≤ peakLagEviction

/-- `fingerprint`'s map: identity to chain claim, in identity order. -/
abbrev Fingerprint := Std.ExtTreeMap String String

section Rule

variable {α : Type*} [SetMember α]

/-- What one record looks like at a height it had been created by. -/
def heldAt (height : UInt32) (item : α) : α :=
  match spentHeight item with
  | some spent => if height < spent then withSpendDropped item else item
  | none => item

/-- `normalise_at`: hold a list to the chain as it stood at a height. -/
def normaliseAt (items : List α) (height : UInt32) : List α :=
  (items.filter (fun item => createdHeight item ≤ height)).map (heldAt height)

/-- `fingerprint`: a later record of an identity replaces the earlier one. -/
def fingerprint (items : List α) : Fingerprint :=
  collectBy compare identity chainClaim items

/-- The half of `contradiction` that walks the asked source's records. -/
def missingOrDifferent (asked : String) (askedSet : Fingerprint) (other : String)
    (otherSet : Fingerprint)
    : Option String :=
  askedSet.toList.findSome? (fun (identity, claim) =>
    match otherSet[identity]? with
    | some otherClaim =>
        if otherClaim = claim then none
        else
          some
            (s!"{asked} claims `{claim}` for coin {identity}, "
              ++ s!"{other} claims `{otherClaim}`")
    | none => some s!"{asked} reports coin {identity} (`{claim}`), {other} omits it")

/-- The half of `contradiction` that walks the other source's records. -/
def extra (asked : String) (askedSet : Fingerprint) (other : String)
    (otherSet : Fingerprint)
    : Option String :=
  otherSet.toList.findSome? (fun (identity, claim) =>
    if askedSet.contains identity then none
    else some s!"{other} reports coin {identity} (`{claim}`), {asked} omits it")

/-- `contradiction`: the first difference between two fingerprints, rendered. -/
def contradiction (asked : String) (askedSet : Fingerprint) (other : String)
    (otherSet : Fingerprint)
    : Option String :=
  match missingOrDifferent asked askedSet other otherSet with
  | some difference => some difference
  | none => extra asked askedSet other otherSet

/-- Whether a record is part of what the caller asked for. -/
def wanted (projection : SetProjection) (item : α) : Bool :=
  projection.startHeight.all (fun start => start ≤ createdHeight item)
  && (projection.includeSpent || (spentHeight item).isNone)

/-- `project`: apply the caller's request to an agreed list. -/
def project (items : List α) (projection : SetProjection) : List α :=
  items.filter (wanted projection)

/-- Whether the window a caller asked for has settled at `height`. -/
def windowHasSettled (projection : SetProjection) (height : UInt32) : Bool :=
  projection.startHeight.all (fun start => start ≤ height)

end Rule

/-- A checked difference and what was taken off it make the whole. -/
theorem checkedSub_eq_some {left right difference : UInt32}
    (h : checkedSub left right = some difference)
    : difference.toNat + right.toNat = left.toNat := by
  unfold checkedSub at h
  split at h
  · rename_i le
    cases h
    have bound := UInt32.le_iff_toNat_le.mp le
    rw [UInt32.toNat_sub_of_le _ _ le]
    omega
  · cases h

/-- The common height is at or below every answering source's own height. -/
theorem commonHeight_le {asOf : List UInt32} {endHeight : Option UInt32} {height : UInt32}
    (h : commonHeight asOf endHeight = some height)
    : ∀ source ∈ asOf, height ≤ source := by
  intro source member
  obtain ⟨lowest, hlowest, h⟩ := Option.bind_eq_some_iff.mp h
  obtain ⟨settled, hsettled, h⟩ := Option.bind_eq_some_iff.mp h
  have hle : lowest ≤ source := (List.min?_eq_some_iff.mp hlowest).2 source member
  have hsub : settled ≤ lowest := by
    have whole := checkedSub_eq_some hsettled
    rw [UInt32.le_iff_toNat_le]
    omega
  cases endHeight with
  | none =>
      have : settled = height := Option.some.inj h
      grind
  | some last =>
      have hmin : min settled last = height := Option.some.inj h
      have : height ≤ settled := hmin ▸ Std.min_le_left
      grind

/-- Without an end height the common height lies the settled lag below the lowest source. -/
theorem commonHeight_spec {asOf : List UInt32} {height : UInt32}
    (h : commonHeight asOf none = some height)
    : ∃ lowest ∈ asOf, lowest.toNat = height.toNat + settledLag.toNat
        ∧ ∀ source ∈ asOf, lowest ≤ source := by
  obtain ⟨lowest, hlowest, h⟩ := Option.bind_eq_some_iff.mp h
  obtain ⟨settled, hsettled, h⟩ := Option.bind_eq_some_iff.mp h
  cases h
  obtain ⟨member, least⟩ := List.min?_eq_some_iff.mp hlowest
  exact ⟨lowest, member, (checkedSub_eq_some hsettled).symm, least⟩

/-- Sources that all have something settled have a common height. -/
theorem exists_commonHeight {asOf : List UInt32} (nonempty : asOf ≠ [])
    (settled : ∀ source ∈ asOf, settledLag ≤ source)
    : ∃ height, commonHeight asOf none = some height := by
  cases hlowest : asOf.min? with
  | none => exact absurd (List.min?_eq_none_iff.mp hlowest) nonempty
  | some lowest =>
      have lagged := settled lowest (List.min?_eq_some_iff.mp hlowest).1
      exact ⟨lowest - settledLag, by simp [commonHeight, hlowest, checkedSub, lagged]⟩

/-- A supported height is at most the eviction bar below the announced peak. -/
theorem asOfIsSupported_iff {peak asOf : UInt32}
    : asOfIsSupported (some peak) asOf = true
      ↔ peak.toNat ≤ asOf.toNat + peakLagEviction.toNat := by
  simp only [asOfIsSupported, decide_eq_true_eq]
  split
  · rename_i behind
    have order := UInt32.le_iff_toNat_le.mp behind
    rw [UInt32.le_iff_toNat_le, UInt32.toNat_sub_of_le _ _ behind]
    omega
  · rename_i ahead
    have order : peak.toNat < asOf.toNat := UInt32.lt_iff_toNat_lt.mp (Std.not_le.mp ahead)
    refine iff_of_true ?_ (by omega)
    exact UInt32.le_iff_toNat_le.mpr (Nat.zero_le _)

/-- The common height depends on which heights were announced, not on their order. -/
theorem commonHeight_perm {left right : List UInt32} (h : left.Perm right)
    (endHeight : Option UInt32)
    : commonHeight left endHeight = commonHeight right endHeight := by
  have hmin : left.min? = right.min? := by
    cases hleft : left.min? with
    | none =>
        have : left = [] := List.min?_eq_none_iff.mp hleft
        subst this
        rw [List.nil_perm.mp h, List.min?_nil]
    | some lowest =>
        have hspec := List.min?_eq_some_iff.mp hleft
        refine (List.min?_eq_some_iff.mpr ⟨h.mem_iff.mp hspec.1, ?_⟩).symm
        exact fun value member => hspec.2 value (h.mem_iff.mpr member)
  rw [commonHeight, commonHeight, hmin]

theorem mem_toList_iff {set : Fingerprint} {coin claim : String}
    : (coin, claim) ∈ set.toList ↔ set[coin]? = some claim :=
  Std.ExtTreeMap.mem_toList_iff_getElem?_eq_some

theorem missingOrDifferent_eq_none_iff {asked other : String}
    {askedSet otherSet : Fingerprint}
    : missingOrDifferent asked askedSet other otherSet = none
      ↔ ∀ coin claim : String,
          askedSet[coin]? = some claim → otherSet[coin]? = some claim := by
  rw [missingOrDifferent, List.findSome?_eq_none_iff]
  constructor
  · intro h coin claim hclaim
    have hentry := h (coin, claim) (mem_toList_iff.mpr hclaim)
    cases hother : otherSet[coin]? with
    | none => simp [hother] at hentry
    | some otherClaim =>
        simp only [hother, ite_eq_left_iff, reduceCtorEq, imp_false, not_not] at hentry
        rw [hentry]
  · rintro h ⟨coin, claim⟩ hmember
    simp [h coin claim (mem_toList_iff.mp hmember)]

theorem extra_eq_none_iff {asked other : String} {askedSet otherSet : Fingerprint}
    : extra asked askedSet other otherSet = none
      ↔ ∀ coin : String, otherSet[coin]?.isSome → askedSet[coin]?.isSome := by
  rw [extra, List.findSome?_eq_none_iff]
  constructor
  · intro h coin hpresent
    obtain ⟨claim, hclaim⟩ := Option.isSome_iff_exists.mp hpresent
    have hentry := h (coin, claim) (mem_toList_iff.mpr hclaim)
    simpa [Std.ExtTreeMap.isSome_getElem?_iff_mem] using hentry
  · rintro h ⟨coin, claim⟩ hmember
    have hpresent := h coin (by simp [mem_toList_iff.mp hmember])
    simpa [Std.ExtTreeMap.isSome_getElem?_iff_mem] using hpresent

/-- No contradiction is reported exactly between equal fingerprints. Witness: the two walks
say that every lookup of one map is the lookup of the other, and maps are extensional.
-/
theorem contradiction_eq_none_iff {asked other : String} {askedSet otherSet : Fingerprint}
    : contradiction asked askedSet other otherSet = none ↔ askedSet = otherSet := by
  constructor
  · intro h
    have hforward : missingOrDifferent asked askedSet other otherSet = none := by
      unfold contradiction at h
      split at h
      · cases h
      · assumption
    have hback : extra asked askedSet other otherSet = none := by
      simpa only [contradiction, hforward] using h
    apply Std.ExtTreeMap.ext_getElem?
    intro coin
    cases hasked : askedSet[coin]? with
    | some claim =>
        exact (missingOrDifferent_eq_none_iff.mp hforward coin claim hasked).symm
    | none =>
        cases hother : otherSet[coin]? with
        | none => rfl
        | some claim =>
            have := extra_eq_none_iff.mp hback coin (by simp [hother])
            simp [hasked] at this
  · rintro rfl
    have hforward : missingOrDifferent asked askedSet other askedSet = none :=
      missingOrDifferent_eq_none_iff.mpr (fun _ _ h => h)
    have hback : extra asked askedSet other askedSet = none :=
      extra_eq_none_iff.mpr (fun _ h => h)
    simp only [contradiction, hforward, hback]

end ChiaQuery
