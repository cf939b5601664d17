import ChiaQuery.Peer.SetAgreement
import ChiaQuery.Registry.Convert

/-! One more source of a round can only lower the common height. A set held to a height and then
to another is held to the lower one, and what two sources claim at a height determines what they
claim at every lower one, so agreement is never lost on the way down.
-/

namespace ChiaQuery

open ChiaQuery.Library
open ChiaQuery.Registry

/-- Heights compose, and agreement is kept at lower heights. -/
structure HeightsDescend (left right : List CoinRecord) : Prop where
  composed
    : ∀ first second,
        normaliseAt (normaliseAt left second) first = normaliseAt left (min first second)
  agreement
    : (left.map identity).Nodup
      → (right.map identity).Nodup
      → ∀ height lower, lower ≤ height
        → fingerprint (normaliseAt left height) = fingerprint (normaliseAt right height)
        → fingerprint (normaliseAt left lower) = fingerprint (normaliseAt right lower)
  uncontradicted
    : (left.map identity).Nodup
      → (right.map identity).Nodup
      → ∀ asOf source endHeight height lower,
        commonHeight asOf endHeight = some height
        → commonHeight (source :: asOf) endHeight = some lower
        → ∀ asked other,
          contradiction asked (fingerprint (normaliseAt left height)) other
              (fingerprint (normaliseAt right height))
            = none
          → contradiction asked (fingerprint (normaliseAt left lower)) other
              (fingerprint (normaliseAt right lower))
            = none

------------------------------------------------------------------------------------------
-- Heights compose
------------------------------------------------------------------------------------------

theorem identity_heldAt (height : UInt32) (record : CoinRecord)
    : identity (heldAt height record) = identity record := by
  unfold heldAt
  split
  · split <;> rfl
  · rfl

theorem createdHeight_heldAt (height : UInt32) (record : CoinRecord)
    : createdHeight (heldAt height record) = createdHeight record := by
  unfold heldAt
  split
  · split <;> rfl
  · rfl

/-- A record held to a height has the spends up to it. -/
theorem spentHeight_heldAt (height : UInt32) (record : CoinRecord)
    : spentHeight (heldAt height record) = (spentHeight record).filter (· ≤ height) := by
  unfold heldAt
  split
  · rename_i spent found
    split
    · rename_i above
      have late : ¬ spent ≤ height := Std.not_le.mpr above
      have dropped : spentHeight (withSpendDropped record) = none := rfl
      rw [dropped, found]
      simp [Option.filter, late]
    · rename_i within
      have early : spent ≤ height := Std.not_lt.mp within
      simp [found, Option.filter, early]
  · rename_i unspent
    simp [unspent]

theorem heldAt_of_within {height : UInt32} {record : CoinRecord}
    (within : ∀ spent, spentHeight record = some spent → spent ≤ height)
    : heldAt height record = record := by
  unfold heldAt
  split
  · rename_i spent found
    rw [if_neg (Std.not_lt.mpr (within spent found))]
  · rfl

theorem heldAt_of_above {height spent : UInt32} {record : CoinRecord}
    (found : spentHeight record = some spent) (above : height < spent)
    : heldAt height record = withSpendDropped record := by
  simp only [heldAt, found, if_pos above]

/-- A spend above one of two heights is above the lower one. -/
theorem heldAt_heldAt (first second : UInt32) (record : CoinRecord)
    : heldAt first (heldAt second record) = heldAt (min first second) record := by
  cases found : spentHeight record with
  | none =>
      have unspent (height : UInt32) : heldAt height record = record :=
        heldAt_of_within (fun spent some => nomatch found.symm.trans some)
      rw [unspent second, unspent first, unspent]
  | some spent =>
      have dropped : heldAt first (withSpendDropped record) = withSpendDropped record :=
        heldAt_of_within (fun _ never => nomatch never)
      have kept {height : UInt32} (early : spent ≤ height) : heldAt height record = record := by
        refine heldAt_of_within (fun other same => ?_)
        cases found.symm.trans same
        exact early
      by_cases late : second < spent
      · have lower : min first second < spent := Std.lt_of_le_of_lt Std.min_le_right late
        rw [heldAt_of_above found late, dropped, heldAt_of_above found lower]
      · have early := Std.not_lt.mp late
        rw [kept early]
        by_cases above : first < spent
        · have lower : min first second < spent := Std.lt_of_le_of_lt Std.min_le_left above
          rw [heldAt_of_above found above, heldAt_of_above found lower]
        · have within := Std.not_lt.mp above
          rw [kept within, kept (Std.le_min_iff.mpr ⟨within, early⟩)]

theorem normaliseAt_normaliseAt (items : List CoinRecord) (first second : UInt32)
    : normaliseAt (normaliseAt items second) first = normaliseAt items (min first second) := by
  have created : (fun record : CoinRecord => decide (createdHeight record ≤ first))
      ∘ heldAt second = fun record => decide (createdHeight record ≤ first) := by
    funext record
    simp only [Function.comp_apply, createdHeight_heldAt]
  have held : (heldAt first ∘ heldAt second : CoinRecord → CoinRecord)
      = heldAt (min first second) :=
    funext (heldAt_heldAt first second)
  rw [normaliseAt, normaliseAt, List.filter_map, created, List.filter_filter, List.map_map, held,
    normaliseAt]
  congr 1
  refine List.filter_congr (fun record _ => ?_)
  simp only [Std.le_min_iff, Bool.decide_and]

------------------------------------------------------------------------------------------
-- A claim determines the claims at lower heights
------------------------------------------------------------------------------------------

/-- The characters of a claim that name the coin. -/
def coinChars (record : CoinRecord) : List Char :=
  let parts := claimParts record
  "coin(".toList ++ (parts.parent ++ ',' :: parts.puzzle) ++ ',' :: parts.amount

/-- The characters of a claim: the coin, then the two heights behind an equals sign each. -/
theorem chainClaim_chars (record : CoinRecord)
    : (chainClaim record).toList
      = (coinChars record ++ ") created".toList ++ '=' :: (claimParts record).created)
        ++ " spent".toList ++ '=' :: (claimParts record).spent :=
  chainClaim_toList record

theorem spent_chars_congr {left right : CoinRecord}
    (same : spentHeight left = spentHeight right)
    : (claimParts left).spent = (claimParts right).spent := by
  have text (record : CoinRecord)
      : spentText record = ((spentHeight record).map toString).getD "no" := by
    have height : spentHeight record
        = if record.spent then some record.spentBlockIndex else none := rfl
    rw [spentText, height]
    cases record.spent <;> rfl
  have texts : spentText left = spentText right := by rw [text, text, same]
  exact congrArg String.toList texts

/-- Whatever the texts of its coin are, a claim is split from its end, because the heights hold
no separator.
-/
theorem chainClaim_eq_iff {left right : CoinRecord}
    : chainClaim left = chainClaim right
      ↔ coinChars left = coinChars right
        ∧ createdHeight left = createdHeight right
        ∧ spentHeight left = spentHeight right := by
  constructor
  · intro same
    have text := congrArg String.toList same
    rw [chainClaim_chars, chainClaim_chars] at text
    obtain ⟨front, spent⟩ :=
      append_cons_inj_of_last (equals_notMem_spent left) (equals_notMem_spent right) text
    obtain ⟨front, created⟩ :=
      append_cons_inj_of_last (equals_notMem_created left) (equals_notMem_created right)
        (List.append_cancel_right front)
    exact ⟨List.append_cancel_right front, toString_toList_injective created,
      spentText_inj spent⟩
  · rintro ⟨coin, created, spent⟩
    have createdChars : (claimParts left).created = (claimParts right).created :=
      congrArg (fun height : UInt32 => (toString height).toList) created
    rw [← String.toList_inj, chainClaim_chars, chainClaim_chars, coin, createdChars,
      spent_chars_congr spent]

theorem coinChars_heldAt (height : UInt32) (record : CoinRecord)
    : coinChars (heldAt height record) = coinChars record := by
  unfold heldAt
  split
  · split <;> rfl
  · rfl

/-- Equal claims stay equal at every height. -/
theorem chainClaim_heldAt {left right : CoinRecord} (same : chainClaim left = chainClaim right)
    (height : UInt32)
    : chainClaim (heldAt height left) = chainClaim (heldAt height right) := by
  obtain ⟨coin, created, spent⟩ := chainClaim_eq_iff.mp same
  refine chainClaim_eq_iff.mpr ⟨?_, ?_, ?_⟩
  · rw [coinChars_heldAt, coinChars_heldAt, coin]
  · rw [createdHeight_heldAt, createdHeight_heldAt, created]
  · rw [spentHeight_heldAt, spentHeight_heldAt, spent]

------------------------------------------------------------------------------------------
-- Agreement at lower heights
------------------------------------------------------------------------------------------

/-- Holding a set to a height keeps its coins apart. -/
theorem identities_normaliseAt {items : List CoinRecord} (distinct : (items.map identity).Nodup)
    (height : UInt32)
    : ((normaliseAt items height).map identity).Nodup := by
  have same : identity ∘ heldAt height = (identity : CoinRecord → String) :=
    funext (identity_heldAt height)
  rw [normaliseAt, List.map_map, same]
  exact distinct.sublist (List.filter_sublist.map identity)

theorem oneValueEach_of_distinct {items : List CoinRecord}
    (distinct : (items.map identity).Nodup)
    : OneValueEach identity chainClaim items := by
  intro left leftMember right rightMember same
  rw [List.inj_on_of_nodup_map distinct leftMember rightMember same]

/-- Where the coins are apart, a fingerprint holds exactly what the records claim. -/
theorem fingerprint_eq_some_iff {items : List CoinRecord}
    (distinct : (items.map identity).Nodup) {coin claim : String}
    : (fingerprint items)[coin]? = some claim
      ↔ ∃ record ∈ items, identity record = coin ∧ chainClaim record = claim :=
  collectBy_eq_some_iff_mem (oneValueEach_of_distinct distinct)

/-- What one of two agreeing sets claims at a height, the other one claims as well. -/
theorem claims_at_lower {left right : List CoinRecord} (leftDistinct : (left.map identity).Nodup)
    (rightDistinct : (right.map identity).Nodup) (same : fingerprint left = fingerprint right)
    {height : UInt32} {coin claim : String}
    (claimed : (fingerprint (normaliseAt left height))[coin]? = some claim)
    : (fingerprint (normaliseAt right height))[coin]? = some claim := by
  obtain ⟨held, member, rfl, rfl⟩ :=
    (fingerprint_eq_some_iff (identities_normaliseAt leftDistinct height)).mp claimed
  obtain ⟨record, listed, rfl⟩ := List.mem_map.mp member
  obtain ⟨listed, existed⟩ := List.mem_filter.mp listed
  have recorded : (fingerprint right)[identity record]? = some (chainClaim record) := by
    rw [← same]
    exact (fingerprint_eq_some_iff leftDistinct).mpr ⟨record, listed, rfl, rfl⟩
  obtain ⟨other, otherListed, sameCoin, sameClaim⟩ :=
    (fingerprint_eq_some_iff rightDistinct).mp recorded
  have created := (chainClaim_eq_iff.mp sameClaim).2.1
  refine (fingerprint_eq_some_iff (identities_normaliseAt rightDistinct height)).mpr
    ⟨heldAt height other, ?_, ?_, chainClaim_heldAt sameClaim height⟩
  · refine List.mem_map_of_mem (List.mem_filter.mpr ⟨otherListed, ?_⟩)
    rw [created]
    exact existed
  · rw [identity_heldAt, identity_heldAt, sameCoin]

theorem fingerprint_lower {left right : List CoinRecord}
    (leftDistinct : (left.map identity).Nodup) (rightDistinct : (right.map identity).Nodup)
    {height lower : UInt32} (below : lower ≤ height)
    (same : fingerprint (normaliseAt left height) = fingerprint (normaliseAt right height))
    : fingerprint (normaliseAt left lower) = fingerprint (normaliseAt right lower) := by
  have lowered : min lower height = lower :=
    Std.le_antisymm Std.min_le_left (Std.le_min_iff.mpr ⟨Std.le_refl lower, below⟩)
  have again (items : List CoinRecord)
      : normaliseAt items lower = normaliseAt (normaliseAt items height) lower := by
    rw [normaliseAt_normaliseAt, lowered]
  have leftApart := identities_normaliseAt leftDistinct height
  have rightApart := identities_normaliseAt rightDistinct height
  rw [again left, again right]
  apply Std.ExtTreeMap.ext_getElem?
  intro coin
  refine Option.ext (fun claim => ?_)
  exact ⟨claims_at_lower leftApart rightApart same,
    claims_at_lower rightApart leftApart same.symm⟩

/-- More sources do not raise the common height. -/
theorem commonHeight_le_of_subset {fewer more : List UInt32} {height lower : UInt32}
    {endHeight : Option UInt32} (subset : fewer ⊆ more)
    (before : commonHeight fewer endHeight = some height)
    (after : commonHeight more endHeight = some lower)
    : lower ≤ height := by
  obtain ⟨lowest, hlowest, before⟩ := Option.bind_eq_some_iff.mp before
  obtain ⟨settled, hsettled, before⟩ := Option.bind_eq_some_iff.mp before
  obtain ⟨dragged, hdragged, after⟩ := Option.bind_eq_some_iff.mp after
  obtain ⟨resettled, hresettled, after⟩ := Option.bind_eq_some_iff.mp after
  have least : dragged ≤ lowest :=
    (List.min?_eq_some_iff.mp hdragged).2 lowest
      (subset (List.min?_eq_some_iff.mp hlowest).1)
  have under : resettled ≤ settled := by
    have first := checkedSub_eq_some hsettled
    have second := checkedSub_eq_some hresettled
    have order := UInt32.le_iff_toNat_le.mp least
    rw [UInt32.le_iff_toNat_le]
    omega
  cases endHeight with
  | none =>
      cases before
      cases after
      exact under
  | some last =>
      cases before
      cases after
      exact Std.le_min_iff.mpr
        ⟨Std.le_trans Std.min_le_left under, Std.min_le_right⟩

/-- Heights compose, and a source that lowers the common height cannot turn an agreement into a
contradiction.
-/
theorem heightsDescend (left right : List CoinRecord) : HeightsDescend left right where
  composed := normaliseAt_normaliseAt left
  agreement := fun leftDistinct rightDistinct _ _ below same =>
    fingerprint_lower leftDistinct rightDistinct below same
  uncontradicted := by
    intro leftDistinct rightDistinct asOf source endHeight height lower before after asked other
      agreed
    rw [contradiction_eq_none_iff] at agreed ⊢
    have below := commonHeight_le_of_subset (List.subset_cons_self source asOf) before after
    exact fingerprint_lower leftDistinct rightDistinct below agreed

end ChiaQuery
