import ChiaQuery.Peer.HonestHistory
import ChiaQuery.Router.Ladders
import Mathlib.Logic.Relation

/-! The settlement of one peer's set against coinset's. The fingerprints it compares keep one claim
for each coin, the last one, so it compares the two sets as long as neither list makes two claims
about one coin.
-/

namespace ChiaQuery

open ChiaQuery.Library

/-- What coinset's raw records come to at a height, for a projection. -/
def secondSet (projection : SetProjection) (height : UInt32) (raw : List CoinRecord)
    : List CoinRecord :=
  project (normaliseAt raw height) projection

/-- The coins of a list with the claims it makes about them. -/
def claimsOf (items : List CoinRecord) : List (String × String) :=
  items.map (fun item => (identity item, chainClaim item))

/-- Two lists make the same claims about the same coins. -/
def DescribeSame (left right : List CoinRecord) : Prop :=
  ∀ claim, claim ∈ claimsOf left ↔ claim ∈ claimsOf right

/-- A list makes one claim about each coin, however often. -/
def ClaimsOnce (items : List CoinRecord) : Prop :=
  OneValueEach identity chainClaim items

/-- Two lists name the same coins, and the last claim the first one makes about each of them is
among those of the second.
-/
structure LastClaimsSeconded (items theirs : List CoinRecord) : Prop where
  coins
    : ∀ coin,
        (∃ item ∈ items, identity item = coin) ↔ ∃ their ∈ theirs, identity their = coin
  claims
    : ∀ earlier item later,
        items = earlier ++ item :: later
        → (∀ other ∈ later, identity other ≠ identity item)
        → (identity item, chainClaim item) ∈ claimsOf theirs

/-- One change of a list of records that does not show at a height: another order, one more coin
created above it, or a spend above it of a coin that had none.
-/
inductive ChangesAbove (height : UInt32) : List CoinRecord → List CoinRecord → Prop
  | order {left right} (same : left.Perm right) : ChangesAbove height left right
  | coin {records} (record : CoinRecord) (above : height < record.confirmedBlockIndex)
    : ChangesAbove height records (record :: records)
  | spend {records} (record : CoinRecord) (spent : UInt32) (unspent : record.spent = false)
    (above : height < spent)
    : ChangesAbove height (record :: records)
        ({ record with spent := true, spentBlockIndex := spent } :: records)

/-- A settlement accepts exactly the set that coinset describes too, returns what coinset claims,
and does not depend on coinset's order or on what happened above its height.
-/
structure SettlesOnAgreement (items : List CoinRecord) (height : UInt32)
    (projection : SetProjection) (coinset : Option (Except ChiaQueryError (List CoinRecord)))
    : Prop where
  agreement
    : (settleUncorroboratedSet items height projection coinset).isOk = true
      ↔ ∃ raw,
          coinset = some (.ok raw) ∧ DescribeSame items (secondSet projection height raw)
  vouched
    : ∀ set,
        settleUncorroboratedSet items height projection coinset = .ok set
        → ∀ item ∈ set.items,
            ∃ raw,
              coinset = some (.ok raw)
              ∧ chainClaim item ∈ (normaliseAt raw height).map chainClaim
  stable
    : ∀ raw other,
        coinset = some (.ok raw)
        → Relation.EqvGen (ChangesAbove height) raw other
        → verdict (settleUncorroboratedSet items height projection (some (.ok other)))
          = verdict (settleUncorroboratedSet items height projection coinset)

------------------------------------------------------------------------------------------
-- The verdict, by the two fingerprints
------------------------------------------------------------------------------------------

section Fingerprints

variable {items theirs : List CoinRecord} {height : UInt32} {projection : SetProjection}
  {raw other : List CoinRecord}

theorem mem_claimsOf {coin claim : String}
    : (coin, claim) ∈ claimsOf items
      ↔ ∃ item ∈ items, identity item = coin ∧ chainClaim item = claim := by
  simp [claimsOf, List.mem_map]

theorem ClaimsOnce.fingerprint_iff (once : ClaimsOnce items) {coin claim : String}
    : (fingerprint items)[coin]? = some claim ↔ (coin, claim) ∈ claimsOf items :=
  (collectBy_eq_some_iff_mem once).trans mem_claimsOf.symm

/-- The settlement answers with the peer's set when the fingerprints are equal, and reports a
disagreement when they are not.
-/
theorem settle_verdict (items : List CoinRecord) (height : UInt32)
    (projection : SetProjection) (raw : List CoinRecord)
    : verdict (settleUncorroboratedSet items height projection (some (.ok raw)))
      = if fingerprint items = fingerprint (secondSet projection height raw) then
          .ok { items, asOfHeight := height }
        else .error .sourcesDisagree := by
  unfold settleUncorroboratedSet secondSet
  dsimp only
  split
  · rename_i quiet
    rw [if_pos (contradiction_eq_none_iff.mp quiet)]
    rfl
  · rename_i detail loud
    have differ : fingerprint items
        ≠ fingerprint (project (normaliseAt raw height) projection) := by
      intro same
      rw [contradiction_eq_none_iff.mpr same] at loud
      cases loud
    rw [if_neg differ]
    rfl

/-- A list with all its last claims seconded has a fingerprint that is made of the other's claims.
-/
theorem lastClaimsSeconded_iff
    : LastClaimsSeconded items theirs
      ↔ (∀ coin : String,
          (fingerprint items)[coin]?.isSome = (fingerprint theirs)[coin]?.isSome)
        ∧ ∀ coin claim : String,
            (fingerprint items)[coin]? = some claim → (coin, claim) ∈ claimsOf theirs := by
  have named (coin : String)
      : (fingerprint items)[coin]?.isSome = (fingerprint theirs)[coin]?.isSome
        ↔ ((∃ item ∈ items, identity item = coin)
            ↔ ∃ their ∈ theirs, identity their = coin) := by
    rw [Bool.eq_iff_iff, fingerprint, fingerprint, collectBy_isSome_iff, collectBy_isSome_iff]
  constructor
  · intro seconded
    refine ⟨fun coin => (named coin).mpr (seconded.coins coin), fun coin claim found => ?_⟩
    obtain ⟨earlier, item, later, split, rfl, rfl, silent⟩ :=
      collectBy_eq_some_iff_last.mp found
    exact seconded.claims earlier item later split silent
  · rintro ⟨coins, claims⟩
    refine ⟨fun coin => (named coin).mp (coins coin), ?_⟩
    intro earlier item later split silent
    exact claims _ _
      (collectBy_eq_some_iff_last.mpr ⟨earlier, item, later, split, rfl, rfl, silent⟩)

/-- Against a list that claims once, equal fingerprints are seconded last claims. -/
theorem fingerprint_eq_of_seconded (seconded : LastClaimsSeconded items theirs)
    (once : ClaimsOnce theirs)
    : fingerprint items = fingerprint theirs := by
  obtain ⟨coins, claims⟩ := lastClaimsSeconded_iff.mp seconded
  apply Std.ExtTreeMap.ext_getElem?
  intro coin
  cases found : (fingerprint items)[coin]? with
  | some claim =>
      exact (once.fingerprint_iff.mpr (claims coin claim found)).symm
  | none =>
      have absent := coins coin
      rw [found] at absent
      exact (Option.not_isSome_iff_eq_none.mp (by simp [← absent])).symm

theorem seconded_of_fingerprint_eq (same : fingerprint items = fingerprint theirs)
    : LastClaimsSeconded items theirs := by
  refine lastClaimsSeconded_iff.mpr ⟨fun coin => by rw [same], fun coin claim found => ?_⟩
  rw [same] at found
  exact mem_claimsOf.mpr (exists_of_collectBy_eq_some found)

/-- Lists that claim once and have one fingerprint describe the same. -/
theorem describeSame_of_fingerprint_eq (same : fingerprint items = fingerprint theirs)
    (once : ClaimsOnce items) (theirsOnce : ClaimsOnce theirs)
    : DescribeSame items theirs := by
  rintro ⟨coin, claim⟩
  rw [← once.fingerprint_iff, ← theirsOnce.fingerprint_iff, same]

theorem seconded_of_describeSame (same : DescribeSame items theirs)
    : LastClaimsSeconded items theirs := by
  constructor
  · intro coin
    constructor
    · rintro ⟨item, member, rfl⟩
      obtain ⟨their, held, named, -⟩ :=
        mem_claimsOf.mp ((same _).mp (mem_claimsOf.mpr ⟨item, member, rfl, rfl⟩))
      exact ⟨their, held, named⟩
    · rintro ⟨their, member, rfl⟩
      obtain ⟨item, held, named, -⟩ :=
        mem_claimsOf.mp ((same _).mpr (mem_claimsOf.mpr ⟨their, member, rfl, rfl⟩))
      exact ⟨item, held, named⟩
  · intro earlier item later split _
    exact (same _).mp (mem_claimsOf.mpr ⟨item, by simp [split], rfl, rfl⟩)

/-- The seconding of a list depends on the other's claims alone. -/
theorem LastClaimsSeconded.congr {others : List CoinRecord}
    (seconded : LastClaimsSeconded items theirs)
    (same : (claimsOf theirs).Perm (claimsOf others))
    : LastClaimsSeconded items others := by
  have describes : DescribeSame theirs others := fun claim => same.mem_iff
  constructor
  · intro coin
    exact (seconded.coins coin).trans ((seconded_of_describeSame describes).coins coin)
  · intro earlier item later split silent
    exact (describes _).mp (seconded.claims earlier item later split silent)

theorem ClaimsOnce.of_describeSame (once : ClaimsOnce theirs) (same : DescribeSame items theirs)
    : ClaimsOnce items := by
  intro left leftHeld right rightHeld coin
  obtain ⟨leftTheir, leftMember, leftNamed, leftClaim⟩ :=
    mem_claimsOf.mp ((same _).mp (mem_claimsOf.mpr ⟨left, leftHeld, rfl, rfl⟩))
  obtain ⟨rightTheir, rightMember, rightNamed, rightClaim⟩ :=
    mem_claimsOf.mp ((same _).mp (mem_claimsOf.mpr ⟨right, rightHeld, rfl, rfl⟩))
  rw [← leftClaim, ← rightClaim]
  exact once leftTheir leftMember rightTheir rightMember
    (leftNamed.trans (coin.trans rightNamed.symm))

end Fingerprints

------------------------------------------------------------------------------------------
-- What does not show at a height
------------------------------------------------------------------------------------------

section Unseen

variable {projection : SetProjection} {height : UInt32} {raw other : List CoinRecord}

theorem secondSet_append (left right : List CoinRecord)
    : secondSet projection height (left ++ right)
      = secondSet projection height left ++ secondSet projection height right := by
  simp [secondSet, project, normaliseAt]

theorem secondSet_perm (same : raw.Perm other)
    : (secondSet projection height raw).Perm (secondSet projection height other) :=
  ((same.filter _).map _).filter _

/-- One record alone, at a height it was created by. -/
theorem secondSet_singleton {record : CoinRecord} (created : record.confirmedBlockIndex ≤ height)
    : secondSet projection height [record] = project [heldAt height record] projection := by
  have kept : createdHeight record ≤ height := created
  simp [secondSet, normaliseAt, kept]

/-- A change above the height leaves the claims at it as they are, in some order. -/
theorem claimsOf_perm_of_changesAbove (change : ChangesAbove height raw other)
    : (claimsOf (secondSet projection height raw)).Perm
        (claimsOf (secondSet projection height other)) := by
  cases change with
  | order same => exact (secondSet_perm same).map _
  | coin record above =>
      have dropped : ¬ createdHeight record ≤ height := Std.not_le.mpr above
      have unseen : secondSet projection height (record :: raw)
          = secondSet projection height raw := by
        simp [secondSet, normaliseAt, dropped]
      rw [unseen]
  | @spend records record spent unspent above =>
      have same
          : claimsOf (secondSet projection height [record])
            = claimsOf (secondSet projection height
                [{ record with spent := true, spentBlockIndex := spent }]) := by
        by_cases created : record.confirmedBlockIndex ≤ height
        · have spentCreated
              : ({ record with spent := true, spentBlockIndex := spent }
                  : CoinRecord).confirmedBlockIndex ≤ height := created
          rw [secondSet_singleton created, secondSet_singleton spentCreated]
          simp [heldAt, spentHeight, unspent, above, withSpendDropped, project, wanted,
            createdHeight, List.filter_cons, claimsOf, identity, chainClaim, apply_ite]
        · have dropped : ¬ createdHeight record ≤ height := created
          simp [secondSet, normaliseAt, createdHeight] at dropped ⊢
          simp [dropped]
      rw [← List.singleton_append, secondSet_append, claimsOf, List.map_append]
      rw [← List.singleton_append (l := records), secondSet_append, claimsOf, List.map_append]
      exact List.Perm.append_right _ (.of_eq same)

theorem claimsOf_perm_of_eqvGen (changes : Relation.EqvGen (ChangesAbove height) raw other)
    : (claimsOf (secondSet projection height raw)).Perm
        (claimsOf (secondSet projection height other)) := by
  induction changes with
  | rel _ _ change => exact claimsOf_perm_of_changesAbove change
  | refl _ => exact .refl _
  | symm _ _ _ ih => exact ih.symm
  | trans _ _ _ _ _ first second => exact first.trans second

/-- A list of records can be put in an order in which the ones a test holds of come last. -/
theorem changesAbove_sorted (height : UInt32) (raw : List CoinRecord) (test : CoinRecord → Bool)
    : ChangesAbove height raw (raw.filter (fun record => !test record) ++ raw.filter test) := by
  refine .order (List.Perm.symm ?_)
  exact List.perm_append_comm.trans (List.filter_append_perm test raw)

end Unseen

------------------------------------------------------------------------------------------
-- Settlements
------------------------------------------------------------------------------------------

section Settlements

variable {items : List CoinRecord} {height : UInt32} {projection : SetProjection}
  {raw : List CoinRecord}

theorem mem_secondSet {their : CoinRecord}
    : their ∈ secondSet projection height raw
      ↔ ∃ record ∈ raw,
          record.confirmedBlockIndex ≤ height
          ∧ wanted projection (heldAt height record) = true
          ∧ heldAt height record = their := by
  simp only [secondSet, project, List.mem_filter, mem_normaliseAt]
  constructor
  · rintro ⟨⟨record, member, created, rfl⟩, kept⟩
    exact ⟨record, member, created, kept, rfl⟩
  · rintro ⟨record, member, created, kept, rfl⟩
    exact ⟨⟨record, member, created, rfl⟩, kept⟩

/-- What does not show at the height leaves a seconded list seconded. -/
theorem LastClaimsSeconded.changes {other : List CoinRecord}
    (seconded : LastClaimsSeconded items (secondSet projection height raw))
    (changes : Relation.EqvGen (ChangesAbove height) raw other)
    : LastClaimsSeconded items (secondSet projection height other) :=
  seconded.congr (claimsOf_perm_of_eqvGen changes)

/-- Lists whose last claims are seconded are settled when coinset claims once. -/
theorem settles_of_seconded (seconded : LastClaimsSeconded items (secondSet projection height raw))
    (once : ClaimsOnce items) (theirsOnce : ClaimsOnce (secondSet projection height raw))
    : SettlesOnAgreement items height projection (some (.ok raw)) := by
  have settled {other : List CoinRecord}
      (changes : Relation.EqvGen (ChangesAbove height) raw other)
      : verdict (settleUncorroboratedSet items height projection (some (.ok other)))
        = .ok { items, asOfHeight := height } := by
    have otherOnce : ClaimsOnce (secondSet projection height other) :=
      theirsOnce.of_describeSame (fun claim => (claimsOf_perm_of_eqvGen changes).symm.mem_iff)
    rw [settle_verdict, if_pos (fingerprint_eq_of_seconded (seconded.changes changes) otherOnce)]
  have now := verdict_eq_ok_iff.mp (settled (.refl raw))
  refine ⟨?_, ?_, ?_⟩
  · rw [now]
    refine iff_of_true rfl ⟨raw, rfl, ?_⟩
    exact describeSame_of_fingerprint_eq (fingerprint_eq_of_seconded seconded theirsOnce) once
      theirsOnce
  · intro set answered item member
    rw [now] at answered
    cases answered
    obtain ⟨coins, claims⟩ := lastClaimsSeconded_iff.mp seconded
    obtain ⟨their, held, -, claim⟩ := mem_claimsOf.mp
      (claims _ _ (once.fingerprint_iff.mpr (mem_claimsOf.mpr ⟨item, member, rfl, rfl⟩)))
    have normalised : their ∈ normaliseAt raw height := List.mem_of_mem_filter held
    exact ⟨raw, rfl, List.mem_map.mpr ⟨their, normalised, claim⟩⟩
  · rintro _ other ⟨⟩ changes
    rw [settled changes, settled (.refl raw)]

/-- Lists whose last claims are not all seconded are not settled, and no change above the height
makes a difference.
-/
theorem settles_of_unseconded
    (unseconded : ¬ LastClaimsSeconded items (secondSet projection height raw))
    : SettlesOnAgreement items height projection (some (.ok raw)) := by
  have refused {other : List CoinRecord}
      (changes : Relation.EqvGen (ChangesAbove height) raw other)
      : verdict (settleUncorroboratedSet items height projection (some (.ok other)))
        = .error .sourcesDisagree := by
    rw [settle_verdict, if_neg]
    intro equal
    exact unseconded ((seconded_of_fingerprint_eq equal).changes changes.symm)
  obtain ⟨detail, now⟩ := exists_detail_of_verdict (refused (.refl raw))
  refine ⟨?_, ?_, ?_⟩
  · rw [now]
    refine iff_of_false (by simp [Except.isOk, Except.toBool]) ?_
    rintro ⟨_, ⟨⟩, same⟩
    exact unseconded (seconded_of_describeSame same)
  · intro set answered
    rw [now] at answered
    cases answered
  · rintro _ other ⟨⟩ changes
    rw [refused changes, refused (.refl raw)]

/-- A coin that no record names at the height is named by no part of the records. -/
theorem fingerprint_none_of_sublist {part : List CoinRecord} {coin : String}
    (within : part.Sublist raw)
    (nowhere : (fingerprint (secondSet projection height raw))[coin]? = none)
    : (fingerprint (secondSet projection height part))[coin]? = none := by
  rw [fingerprint, ← Option.not_isSome_iff_eq_none, collectBy_isSome_iff] at nowhere ⊢
  rintro ⟨their, member, named⟩
  obtain ⟨record, held, created, kept, rfl⟩ := mem_secondSet.mp member
  exact nowhere ⟨_, mem_secondSet.mpr ⟨record, within.subset held, created, kept, rfl⟩, named⟩

/-- Coinset's records can be ordered so that its last claims are the peer's, when all the peer's
last claims are among them.
-/
theorem exists_order_of_seconded
    (seconded : LastClaimsSeconded items (secondSet projection height raw))
    : ∃ other,
        ChangesAbove height raw other
        ∧ fingerprint items = fingerprint (secondSet projection height other) := by
  let agrees (record : CoinRecord) : Bool :=
    (fingerprint items)[identity (heldAt height record)]?
      = some (chainClaim (heldAt height record))
  obtain ⟨coins, claims⟩ := lastClaimsSeconded_iff.mp seconded
  have recorded {coin claim : String}
      (found : (fingerprint (secondSet projection height (raw.filter agrees)))[coin]? = some claim)
      : (fingerprint items)[coin]? = some claim := by
    obtain ⟨their, member, rfl, rfl⟩ := exists_of_collectBy_eq_some found
    obtain ⟨record, held, -, -, rfl⟩ := mem_secondSet.mp member
    simpa [agrees] using (List.mem_filter.mp held).2
  refine ⟨_, changesAbove_sorted height raw agrees, ?_⟩
  apply Std.ExtTreeMap.ext_getElem?
  intro coin
  rw [secondSet_append, fingerprint, fingerprint, getElem?_collectBy_append]
  cases found : (collectBy compare identity chainClaim items)[coin]? with
  | some claim =>
      obtain ⟨their, member, named, same⟩ := mem_claimsOf.mp (claims coin claim found)
      obtain ⟨record, held, created, kept, rfl⟩ := mem_secondSet.mp member
      have agreeing : agrees record = true := by
        have recordedOwn : (fingerprint items)[coin]? = some claim := found
        simpa [agrees, named, same] using recordedOwn
      have present
          : (fingerprint (secondSet projection height (raw.filter agrees)))[coin]?.isSome :=
        collectBy_isSome_iff.mpr
          ⟨_, mem_secondSet.mpr ⟨record, List.mem_filter.mpr ⟨held, agreeing⟩, created, kept,
            rfl⟩, named⟩
      obtain ⟨last, lastFound⟩ := Option.isSome_iff_exists.mp present
      have own := recorded lastFound
      rw [fingerprint] at lastFound own
      rw [lastFound, Option.some_or, ← own, found]
  | none =>
      have absent := coins coin
      have unrecorded : (fingerprint items)[coin]? = none := found
      rw [unrecorded] at absent
      have nowhere : (fingerprint (secondSet projection height raw))[coin]? = none :=
        Option.isNone_iff_eq_none.mp (Option.isSome_eq_false_iff.mp absent.symm)
      have silent (test : CoinRecord → Bool) :=
        fingerprint_none_of_sublist (List.filter_sublist (p := test)) nowhere
      simp only [fingerprint] at silent
      rw [silent, silent]
      rfl

/-- A settlement does what it is for on lists whose last claims are seconded only if neither list
makes two claims about one coin.
-/
theorem claimOnce_of_settles (settles : SettlesOnAgreement items height projection (some (.ok raw)))
    (seconded : LastClaimsSeconded items (secondSet projection height raw))
    : ClaimsOnce items ∧ ClaimsOnce (secondSet projection height raw) := by
  obtain ⟨ordered, change, equal⟩ := exists_order_of_seconded seconded
  have accepted
      : verdict (settleUncorroboratedSet items height projection (some (.ok raw)))
        = .ok { items, asOfHeight := height } := by
    rw [← settles.stable raw ordered rfl (.rel _ _ change), settle_verdict, if_pos equal]
  -- Whichever record comes last, its claim is the one the peer's fingerprint records.
  have theirs : ∀ their ∈ secondSet projection height raw,
      (fingerprint items)[identity their]? = some (chainClaim their) := by
    intro their member
    obtain ⟨record, held, created, kept, rfl⟩ := mem_secondSet.mp member
    obtain ⟨before, after, rfl⟩ := List.append_of_mem held
    have last : ChangesAbove height (before ++ record :: after) ((before ++ after) ++ [record]) :=
      .order (List.perm_middle.trans (List.perm_append_singleton _ _).symm)
    have still := settles.stable _ _ rfl (.rel _ _ last)
    rw [accepted, settle_verdict] at still
    split at still
    · rename_i same
      have alone : secondSet projection height [record] = [heldAt height record] := by
        rw [secondSet_singleton created]
        simp [project, kept]
      rw [same, secondSet_append, alone, fingerprint, collectBy_append_singleton]
      simp
    · cases still
  have theirsOnce : ClaimsOnce (secondSet projection height raw) := by
    intro left leftHeld right rightHeld coin
    have leftClaim := theirs left leftHeld
    rw [coin, theirs right rightHeld] at leftClaim
    exact (Option.some.inj leftClaim).symm
  have isOk : (settleUncorroboratedSet items height projection (some (.ok raw))).isOk = true := by
    rw [verdict_eq_ok_iff.mp accepted]
    rfl
  obtain ⟨_, ⟨⟩, same⟩ := settles.agreement.mp isOk
  exact ⟨theirsOnce.of_describeSame same, theirsOnce⟩

/-- A settlement accepts exactly what both tiers describe, whatever the order and the later history
of coinset's answer, unless the peer's last claims are all seconded by lists of which one makes two
claims about one coin.
-/
theorem settlesOnAgreement_iff (items : List CoinRecord) (height : UInt32)
    (projection : SetProjection) (coinset : Option (Except ChiaQueryError (List CoinRecord)))
    : SettlesOnAgreement items height projection coinset
      ↔ ∀ raw,
          coinset = some (.ok raw)
          → LastClaimsSeconded items (secondSet projection height raw)
          → ClaimsOnce items ∧ ClaimsOnce (secondSet projection height raw) := by
  constructor
  · rintro settles raw rfl seconded
    exact claimOnce_of_settles settles seconded
  · intro once
    rcases coinset with _ | failure | raw
    · constructor <;> simp [settleUncorroboratedSet, Except.isOk, Except.toBool]
    · constructor <;> simp [settleUncorroboratedSet, Except.isOk, Except.toBool]
    · by_cases seconded : LastClaimsSeconded items (secondSet projection height raw)
      · obtain ⟨own, theirs⟩ := once raw rfl seconded
        exact settles_of_seconded seconded own theirs
      · exact settles_of_unseconded seconded

/-- Coinset's answer names a coin twice, spent and then unspent: only its last claim is compared,
so the peer's set is accepted, and in the other order it is refused.
-/
theorem repeated_coin_settles
    : ¬ ∀ (items : List CoinRecord) (height : UInt32) (projection : SetProjection)
        (coinset : Option (Except ChiaQueryError (List CoinRecord))),
        SettlesOnAgreement items height projection coinset := by
  intro claim
  let unspent := PeerBackend.sampleRecord 1 50 none
  let spent := PeerBackend.sampleRecord 1 50 (some 60)
  have theirs : secondSet { includeSpent := true } 98 [spent, unspent] = [spent, unspent] := by
    decide
  have sameCoin : identity spent = identity unspent := rfl
  have seconded
      : LastClaimsSeconded [unspent]
          (secondSet { includeSpent := true } 98 [spent, unspent]) := by
    rw [theirs]
    constructor
    · intro coin
      simp [sameCoin]
    · intro earlier item later split _
      have own : item ∈ [unspent] := by simp [split]
      exact mem_claimsOf.mpr ⟨item, List.mem_cons_of_mem _ own, rfl, rfl⟩
  have settles := claim [unspent] 98 { includeSpent := true } (some (.ok [spent, unspent]))
  obtain ⟨-, once⟩ := claimOnce_of_settles settles seconded
  rw [theirs] at once
  have sameClaim := once spent (by simp) unspent (by simp) sameCoin
  exact absurd sameClaim (by decide)

end Settlements

end ChiaQuery
