import ChiaQuery.Router.GradedReads

/-! A parent-ids read puts the answers of several rounds together, each settled at its own
height, and reports them at the lowest of these heights.
-/

namespace ChiaQuery

namespace QueryRouter

variable {κ : Type} {fallback : Bool} {projection : SetProjection}

theorem le_maxHeight (height : UInt32) : height ≤ maxHeight :=
  UInt32.le_iff_toNat_le.mpr (Nat.le_of_lt_succ height.toNat_lt)

theorem le_foldl_min_iff {height start : UInt32} {heights : List UInt32}
    : height ≤ heights.foldl min start
      ↔ height ≤ start ∧ ∀ other ∈ heights, height ≤ other := by
  induction heights generalizing start with
  | nil => simp
  | cons first rest ih =>
      rw [List.foldl_cons, ih, List.forall_mem_cons, Std.le_min_iff, and_assoc]

/-- What a parent-ids read returns, round by round. -/
theorem graded_byParentIds_inv {sources : Sources κ} {parentIds : List String}
    {set : CorroboratedSet CoinRecord}
    (h : getCoinRecordsByParentIdsGraded fallback sources parentIds projection = .ok set)
    : ∃ answers : List (CorroboratedSet CoinRecord),
        childRounds fallback sources parentIds projection = answers.map .ok
        ∧ set.items = answers.flatMap CorroboratedSet.items
        ∧ set.asOfHeight
          = if parentIds.isEmpty then 0
            else (answers.map CorroboratedSet.asOfHeight).foldl min maxHeight := by
  unfold getCoinRecordsByParentIdsGraded at h
  cases hmerged : mergeRounds [] maxHeight
    (childRounds fallback sources parentIds projection) with
  | error failure => simp [hmerged, Except.map] at h
  | ok merged =>
      obtain ⟨answers, hrounds, rfl⟩ := mergeRounds_eq_ok_iff.mp hmerged
      rw [hmerged] at h
      cases h
      exact ⟨answers, hrounds, by simp, rfl⟩

/-- Rounds that all answer are put together into one set. -/
theorem graded_byParentIds_of_answers {sources : Sources κ} {parentIds : List String}
    {answers : List (CorroboratedSet CoinRecord)}
    (hrounds : childRounds fallback sources parentIds projection = answers.map .ok)
    : getCoinRecordsByParentIdsGraded fallback sources parentIds projection
      = .ok
          {
            items := answers.flatMap CorroboratedSet.items,
            asOfHeight :=
              if parentIds.isEmpty then 0
              else (answers.map CorroboratedSet.asOfHeight).foldl min maxHeight
          } := by
  have hmerged
      : mergeRounds [] maxHeight (childRounds fallback sources parentIds projection)
        = .ok
            (answers.flatMap CorroboratedSet.items,
              (answers.map CorroboratedSet.asOfHeight).foldl min maxHeight) :=
    mergeRounds_eq_ok_iff.mpr ⟨answers, hrounds, rfl⟩
  rw [getCoinRecordsByParentIdsGraded, hmerged]
  rfl

end QueryRouter

/-- The answers of the rounds are already a statement about the lowest of their heights: no
answer speaks of anything above another's height, and no coin is listed twice.
-/
structure Compatible (answers : List (CorroboratedSet CoinRecord)) : Prop where
  created_below
    : ∀ answer ∈ answers,
        ∀ item ∈ answer.items,
          ∀ other ∈ answers, createdHeight item ≤ other.asOfHeight
  spent_below
    : ∀ answer ∈ answers,
        ∀ item ∈ answer.items,
          ∀ spent ∈ spentHeight item, ∀ other ∈ answers, spent ≤ other.asOfHeight
  listed_once : ∀ answer ∈ answers, (answer.items.map identity).Nodup
  shared_by_none
    : answers.Pairwise (fun left right =>
        (left.items.map identity).Disjoint (right.items.map identity))

/-- A set is a true statement at its own height about the answers it was put together from.
-/
structure IsTrueAtItsHeight (answers : List (CorroboratedSet CoinRecord))
    (set : CorroboratedSet CoinRecord)
    : Prop where
  created : ∀ item ∈ set.items, createdHeight item ≤ set.asOfHeight
  spent : ∀ item ∈ set.items, ∀ spent ∈ spentHeight item, spent ≤ set.asOfHeight
  distinct : (set.items.map identity).Nodup
  union
    : ∀ record,
        record ∈ set.items
        ↔ ∃ answer ∈ answers, record ∈ normaliseAt answer.items set.asOfHeight

/-- Records that say nothing above a height are not changed by holding them to it. -/
theorem normaliseAt_eq_self {items : List CoinRecord} {height : UInt32}
    (hcreated : ∀ item ∈ items, createdHeight item ≤ height)
    (hspent : ∀ item ∈ items, ∀ spent ∈ spentHeight item, spent ≤ height)
    : normaliseAt items height = items := by
  have hkept : items.filter (fun item => createdHeight item ≤ height) = items :=
    List.filter_eq_self.mpr (fun item member => by simpa using hcreated item member)
  have hheld : ∀ item ∈ items, heldAt height item = item := by
    intro item member
    unfold heldAt
    split
    · rename_i spent hsome
      have hle := hspent item member spent hsome
      rw [if_neg (by grind)]
    · rfl
  rw [normaliseAt, hkept, List.map_congr_left hheld, List.map_id']

/-- What the loop over the rounds returns is true at its height exactly when the rounds'
answers are compatible.
-/
theorem merged_true_iff {answers : List (CorroboratedSet CoinRecord)}
    {set : CorroboratedSet CoinRecord}
    (hitems : set.items = answers.flatMap CorroboratedSet.items)
    (hheight
      : answers ≠ []
        → set.asOfHeight
          = (answers.map CorroboratedSet.asOfHeight).foldl min QueryRouter.maxHeight)
    : IsTrueAtItsHeight answers set ↔ Compatible answers := by
  have hmember (item : CoinRecord)
      : item ∈ set.items ↔ ∃ answer ∈ answers, item ∈ answer.items := by
    rw [hitems, List.mem_flatMap]
  have hbelow {answer : CorroboratedSet CoinRecord} (height : UInt32)
      (hanswer : answer ∈ answers)
      : height ≤ set.asOfHeight ↔ ∀ other ∈ answers, height ≤ other.asOfHeight := by
    rw [hheight (List.ne_nil_of_mem hanswer), QueryRouter.le_foldl_min_iff,
      and_iff_right (QueryRouter.le_maxHeight height), List.forall_mem_map]
  have hdistinct
      : (set.items.map identity).Nodup
        ↔ (∀ answer ∈ answers, (answer.items.map identity).Nodup)
          ∧ answers.Pairwise (fun left right =>
              (left.items.map identity).Disjoint (right.items.map identity)) := by
    rw [hitems, List.map_flatMap]
    exact List.nodup_flatMap
  constructor
  · intro htrue
    obtain ⟨hlisted, hshared⟩ := hdistinct.mp htrue.distinct
    refine ⟨?_, ?_, hlisted, hshared⟩
    · intro answer hanswer item hitem
      exact (hbelow _ hanswer).mp (htrue.created item ((hmember item).mpr ⟨_, hanswer, hitem⟩))
    · intro answer hanswer item hitem spent hspent
      exact (hbelow _ hanswer).mp
        (htrue.spent item ((hmember item).mpr ⟨_, hanswer, hitem⟩) spent hspent)
  · intro hcompatible
    have hcreated
        : ∀ answer ∈ answers,
            ∀ item ∈ answer.items, createdHeight item ≤ set.asOfHeight :=
      fun answer hanswer item hitem =>
        (hbelow _ hanswer).mpr (hcompatible.created_below answer hanswer item hitem)
    have hspent
        : ∀ answer ∈ answers,
            ∀ item ∈ answer.items,
              ∀ spent ∈ spentHeight item, spent ≤ set.asOfHeight :=
      fun answer hanswer item hitem spent hsome =>
        (hbelow _ hanswer).mpr
          (hcompatible.spent_below answer hanswer item hitem spent hsome)
    refine ⟨?_, ?_, ?_, ?_⟩
    · intro item hitem
      obtain ⟨answer, hanswer, hitem⟩ := (hmember item).mp hitem
      exact hcreated answer hanswer item hitem
    · intro item hitem
      obtain ⟨answer, hanswer, hitem⟩ := (hmember item).mp hitem
      exact hspent answer hanswer item hitem
    · exact hdistinct.mpr ⟨hcompatible.listed_once, hcompatible.shared_by_none⟩
    · intro record
      rw [hmember]
      refine exists_congr (fun answer => and_congr_right (fun hanswer => ?_))
      rw [normaliseAt_eq_self (hcreated answer hanswer) (hspent answer hanswer)]

section ParentIds

open QueryRouter

variable {κ : Type}

/-- A parent-ids read is true at its own height exactly when its rounds, if all of them
answer, answer compatibly.
-/
theorem parentIds_true_iff (fallback : Bool) (sources : Sources κ) (parentIds : List String)
    (projection : SetProjection)
    : (∀ set answers,
        getCoinRecordsByParentIdsGraded fallback sources parentIds projection = .ok set
        → childRounds fallback sources parentIds projection = answers.map .ok
        → IsTrueAtItsHeight answers set)
      ↔ ∀ answers,
          childRounds fallback sources parentIds projection = answers.map .ok
          → Compatible answers := by
  have hempty {answers : List (CorroboratedSet CoinRecord)}
      (hrounds : childRounds fallback sources parentIds projection = answers.map .ok)
      : parentIds.isEmpty = true ↔ answers = [] := by
    have hlength := congrArg List.length hrounds
    simp only [childRounds, List.length_map, List.length_zipIdx] at hlength
    rw [List.isEmpty_iff, ← List.length_eq_zero_iff, hlength, List.length_eq_zero_iff]
  constructor
  · intro htrue answers hrounds
    have hset := graded_byParentIds_of_answers hrounds
    refine (merged_true_iff rfl ?_).mp (htrue _ answers hset hrounds)
    intro hsome
    exact if_neg (fun hnone => hsome ((hempty hrounds).mp hnone))
  · intro hcompatible set answers hset hrounds
    obtain ⟨others, hothers, hitems, hheight⟩ := graded_byParentIds_inv hset
    have hsame : others = answers :=
      List.map_injective_iff.mpr (fun _ _ => Except.ok.inj) (hothers.symm.trans hrounds)
    subst hsame
    refine (merged_true_iff hitems ?_).mpr (hcompatible others hrounds)
    intro hsome
    rw [hheight, if_neg (fun hnone => hsome ((hempty hrounds).mp hnone))]

/-- One parent's children settle at height 100 with a coin created at 99, the other parent's
at height 98, and the two are reported together as what the chain was at 98.
-/
theorem parentIds_untrue
    : ¬ ∀ (fallback : Bool) (sources : Sources Unit) (parentIds : List String)
        (projection : SetProjection) (set : CorroboratedSet CoinRecord)
        (answers : List (CorroboratedSet CoinRecord)),
        getCoinRecordsByParentIdsGraded fallback sources parentIds projection = .ok set
        → childRounds fallback sources parentIds projection = answers.map .ok
        → IsTrueAtItsHeight answers set := by
  intro claim
  let young := PeerBackend.sampleRecord 1 99 none
  let sources : Sources Unit :=
    { Sources.silent with
      sets := fun question _ _ =>
        { SetAttempts.silent with
          first :=
            if question = .children "0xaa" then .ok (.corroborated [young] 100)
            else .ok (.corroborated [] 98) } }
  have htrue := claim true sources ["0xaa", "0xcc"] {} { items := [young], asOfHeight := 98 }
    [{ items := [young], asOfHeight := 100 }, { items := [], asOfHeight := 98 }] rfl rfl
  exact absurd (htrue.created young (by simp)) (by decide)

end ParentIds

end ChiaQuery
