import ChiaQuery.LightClient.CacheHistory
import ChiaQuery.LightClient.Provider

/-! A read of the provider beside the drive loop. The peak and the coin states are read under
different locks, so the peak may move in between. The reads of lists read the peak last;
`coin_record` reads it first.
-/

namespace ChiaQuery.LightClient

open ChiaQuery.Library ChiaQuery.Registry LightClientProvider

/-- The heights of the peaks that were in force at some moment and after each later operation. -/
abbrev PeaksSince := List (Option UInt32)

/-- Where one read stands. From when its coin states are obtained it keeps the peaks in force
since then.
-/
inductive ReadStage where
  | idle
  | peakRead (id : Bytes32) (peak : Option (UInt32 × Bytes32))
  | missed (id : Bytes32) (peak : Option (UInt32 × Bytes32))
  | found (peak : Option (UInt32 × Bytes32)) (state : Option CoinState) (since : PeaksSince)
  | fetching
  | fetched (states : List CoinState) (since : PeaksSince)
  | clamping (states : List CoinState) (peak : Option (UInt32 × Bytes32)) (since : PeaksSince)
  deriving DecidableEq, Repr

/-- A cache that is read from. -/
structure ServingState where
  cache : CoinStateCache
  read : ReadStage

/-- Operations on the cache, and the steps of a read: `coin_record` reads the peak, looks the coin
up and fetches it where it misses; a read of a list fetches and then reads the peak. A read may
fail at any time.
-/
inductive ServingEvent where
  | operate (operation : CacheOperation)
  | openCoinRecord (id : Bytes32)
  | lookUp
  | openCoinRecords
  | answer (states : List CoinState)
  | readPeak
  | finish
  | fail
  deriving DecidableEq, Repr

/-- The height of the peak, if there is one. -/
def CoinStateCache.peakHeight (cache : CoinStateCache) : Option UInt32 :=
  cache.peak.map (fun known => known.1)

/-- Another peak is in force. -/
def ReadStage.passedBy (peak : Option UInt32) : ReadStage → ReadStage
  | found first state since => found first state (since ++ [peak])
  | fetched states since => fetched states (since ++ [peak])
  | clamping states last since => clamping states last (since ++ [peak])
  | stage => stage

variable (coinId : ProtocolCoin → Bytes32) (fromCoinState : CoinState → IfaceCoinRecord)

/-- One step of the cache or of the read. -/
def servingStep (state : ServingState) : ServingEvent → Option ServingState
  | .operate operation =>
      let cache := state.cache.perform coinId operation
      some { cache, read := state.read.passedBy cache.peakHeight }
  | .openCoinRecord id =>
      match state.read with
      | .idle => some { state with read := .peakRead id state.cache.peak }
      | _ => none
  | .lookUp =>
      match state.read with
      | .peakRead id peak =>
          match state.cache.cachedAnswer id with
          | some cached =>
              some { state with read := .found peak (some cached) [state.cache.peakHeight] }
          | none => some { state with read := .missed id peak }
      | _ => none
  | .openCoinRecords =>
      match state.read with
      | .idle => some { state with read := .fetching }
      | _ => none
  | .answer states =>
      match state.read with
      | .missed id peak =>
          let found := states.find? (fun answered => coinId answered.coin = id)
          some { state with read := .found peak found [state.cache.peakHeight] }
      | .fetching => some { state with read := .fetched states [state.cache.peakHeight] }
      | _ => none
  | .readPeak =>
      match state.read with
      | .fetched states since =>
          some { state with read := .clamping states state.cache.peak since }
      | _ => none
  | .finish =>
      match state.read with
      | .found _ _ _ | .clamping _ _ _ => some { state with read := .idle }
      | _ => none
  | .fail => some { state with read := .idle }

/-- A cache that nobody reads from yet. -/
def serving (cache : CoinStateCache) : Machine ServingState ServingEvent where
  initial := { cache, read := .idle }
  step := servingStep coinId

/-- No height of the record is above `height`. -/
def heightsBy (record : IfaceCoinRecord) (height : UInt32) : Bool :=
  record.confirmedHeight.all (fun confirmed => confirmed ≤ height)
    && record.spentHeight.all (fun spent => spent ≤ height)

/-- A peak was known at the first moment. -/
def PeaksSince.Known (since : PeaksSince) : Prop := ∃ peak, since.head? = some (some peak)

/-- A record is returned in place of what the coin state says: it is confirmed and spent where that
is, and if a peak was known when the state was obtained, its heights are not above some peak that
was in force then or later.
-/
structure WithinPeak (since : PeaksSince) (source record : IfaceCoinRecord) : Prop where
  confirmed : record.confirmedHeight.isSome = source.confirmedHeight.isSome
  spent : record.spentHeight.isSome = source.spentHeight.isSome
  bounded : since.Known → ∃ peak, some peak ∈ since ∧ heightsBy record peak = true

/-- A read that finishes returns one record for every coin state it obtained, each within a peak
that was in force from then on.
-/
def ReturnsWithin (state : ServingState) : ServingEvent → Prop
  | .finish =>
      match state.read with
      | .found peak found since =>
          ∃ record, coinRecord fromCoinState (.ran peak) (.ran (.ok found)) = .ok record
            ∧ List.Forall₂ (fun state record => WithinPeak since (fromCoinState state) record)
                found.toList record.toList
      | .clamping states peak since =>
          ∃ records, coinRecords fromCoinState (.ran (.ok states)) (.ran peak) = .ok records
            ∧ List.Forall₂ (fun state record => WithinPeak since (fromCoinState state) record)
                states records
      | _ => True
  | _ => True

/-- Some peak that was in force when a `coin_record` that finishes obtained its coin state, or
later, is at or above the one it read first, or at or above the state's own heights.
-/
def KeepsToPeak (state : ServingState) : ServingEvent → Prop
  | .finish =>
      match state.read with
      | .found peak (some found) since =>
          since.Known
          → ∃ later, some later ∈ since
              ∧ ((∃ first, peak = some first ∧ first.1 ≤ later)
                ∨ heightsBy (fromCoinState found) later = true)
      | _ => True
  | _ => True

variable {coinId} {fromCoinState}

------------------------------------------------------------------------------------------
-- What the clamp does to a record
------------------------------------------------------------------------------------------

section Clamp

variable {record : IfaceCoinRecord} {peak : Option UInt32} {height : UInt32}

theorem clamp_confirmedHeight_isSome
    : (clampRecordHeightsToPeak record peak).confirmedHeight.isSome
      = record.confirmedHeight.isSome := by
  cases peak <;> simp [clampRecordHeightsToPeak]

theorem clamp_spentHeight_isSome
    : (clampRecordHeightsToPeak record peak).spentHeight.isSome = record.spentHeight.isSome := by
  cases peak <;> simp [clampRecordHeightsToPeak]

/-- A height that is held to `peak` is at or below another exactly when one of both is. -/
theorem all_min_le_iff {held : Option UInt32} {peak : UInt32}
    : (held.map (fun own => min own peak)).all (fun own => decide (own ≤ height)) = true
      ↔ peak ≤ height ∨ held.all (fun own => decide (own ≤ height)) = true := by
  cases held with
  | none => simp
  | some own =>
      simp only [Option.map_some, Option.all_some, decide_eq_true_eq]
      rw [or_comm]
      exact Std.min_le

/-- A record that is held to a peak is within a height exactly when that peak is, or the record
was before.
-/
theorem heightsBy_clamp_iff
    : heightsBy (clampRecordHeightsToPeak record peak) height = true
      ↔ (∃ held, peak = some held ∧ held ≤ height) ∨ heightsBy record height = true := by
  cases peak with
  | none => simp [clampRecordHeightsToPeak]
  | some held =>
      simp only [heightsBy, clampRecordHeightsToPeak, Bool.and_eq_true, all_min_le_iff,
        Option.some_inj, exists_eq_left', or_and_left]

theorem withinPeak_clamp_iff {since : PeaksSince}
    : WithinPeak since record (clampRecordHeightsToPeak record peak)
      ↔ (since.Known
        → ∃ later, some later ∈ since
            ∧ ((∃ held, peak = some held ∧ held ≤ later) ∨ heightsBy record later = true)) := by
  simp only [← heightsBy_clamp_iff]
  exact ⟨fun within => within.bounded,
    fun bounded => ⟨clamp_confirmedHeight_isSome, clamp_spentHeight_isSome, bounded⟩⟩

end Clamp

------------------------------------------------------------------------------------------
-- A peak that is known stays known
------------------------------------------------------------------------------------------

theorem CoinStateCache.perform_peak_isSome {cache : CoinStateCache}
    (known : cache.peak.isSome = true) (operation : CacheOperation)
    : (cache.perform coinId operation).peak.isSome = true := by
  cases operation with
  | trackCoins | trackPuzzleHashes | untrackCoins => exact known
  | seed states =>
      rw [perform, seed_peak]
      exact known
  | setPeak height headerHash => exact updatePeak_peak_isSome
  | applyUpdate items height forkHeight peakHash => exact applyUpdate_peak_isSome

/-- Later peaks do not change whether one was known at the first moment. -/
theorem PeaksSince.known_append {since : PeaksSince} (nonempty : since ≠ []) (later : PeaksSince)
    : PeaksSince.Known (since ++ later) ↔ since.Known := by
  rw [Known, Known, List.head?_append_of_ne_nil since nonempty]

/-- If a peak was known when a list was fetched, one is known until the read takes it, and it was
in force since.
-/
def ServingState.PeakKept (state : ServingState) : Prop :=
  match state.read with
  | .fetched _ since =>
      state.cache.peakHeight ∈ since ∧ (since.Known → state.cache.peak.isSome = true)
  | .clamping _ peak since =>
      since ≠ [] ∧ (since.Known → ∃ known, peak = some known ∧ some known.1 ∈ since)
  | _ => True

variable {state next : ServingState} {event : ServingEvent}

/-- An operation on the cache keeps the peak of a list that is being read. -/
theorem ServingState.peakKept_operate (kept : state.PeakKept) (operation : CacheOperation)
    : ServingState.PeakKept
        {
          cache := state.cache.perform coinId operation,
          read := state.read.passedBy (state.cache.perform coinId operation).peakHeight
        } := by
  unfold PeakKept at kept ⊢
  cases stage : state.read with
  | idle | peakRead | missed | found | fetching => trivial
  | fetched states since =>
      rw [stage] at kept
      obtain ⟨current, known⟩ := kept
      have nonempty : since ≠ [] := List.ne_nil_of_mem current
      refine ⟨by simp, fun earlier => ?_⟩
      rw [PeaksSince.known_append nonempty] at earlier
      exact CoinStateCache.perform_peak_isSome (known earlier) operation
  | clamping states peak since =>
      rw [stage] at kept
      obtain ⟨nonempty, taken⟩ := kept
      refine ⟨by simp, fun earlier => ?_⟩
      rw [PeaksSince.known_append nonempty] at earlier
      obtain ⟨known, same, inForce⟩ := taken earlier
      exact ⟨known, same, List.mem_append_left _ inForce⟩

theorem ServingState.PeakKept.step {cache : CoinStateCache} (kept : state.PeakKept)
    (stepped : (serving coinId cache).step state event = some next)
    : next.PeakKept := by
  change servingStep coinId state event = some next at stepped
  cases event with
  | operate operation =>
      cases stepped
      exact peakKept_operate kept operation
  | openCoinRecord | openCoinRecords =>
      simp only [servingStep] at stepped
      split at stepped
      · cases stepped
        trivial
      · cases stepped
  | lookUp =>
      simp only [servingStep] at stepped
      split at stepped
      · split at stepped
        all_goals
          cases stepped
          trivial
      · cases stepped
  | answer states =>
      rw [servingStep] at stepped
      cases stage : state.read with
      | missed id peak =>
          rw [stage] at stepped
          cases stepped
          trivial
      | fetching =>
          rw [stage] at stepped
          cases stepped
          refine ⟨List.mem_singleton_self _, fun known => ?_⟩
          obtain ⟨peak, first⟩ := known
          have found : state.cache.peakHeight = some peak := Option.some.inj first
          obtain ⟨held, same, -⟩ := Option.map_eq_some_iff.mp found
          simp [same]
      | idle | peakRead | found | fetched | clamping =>
          rw [stage] at stepped
          cases stepped
  | readPeak =>
      simp only [servingStep] at stepped
      split at stepped
      · rename_i states since stage
        cases stepped
        rw [PeakKept, stage] at kept
        obtain ⟨current, known⟩ := kept
        refine ⟨List.ne_nil_of_mem current, fun earlier => ?_⟩
        obtain ⟨held, same⟩ := Option.isSome_iff_exists.mp (known earlier)
        rw [CoinStateCache.peakHeight, same] at current
        exact ⟨held, same, current⟩
      · cases stepped
  | finish =>
      simp only [servingStep] at stepped
      split at stepped
      · cases stepped
        trivial
      · cases stepped
        trivial
      · cases stepped
  | fail =>
      cases stepped
      trivial

theorem peakKept_initial (cache : CoinStateCache)
    : (serving coinId cache).initial.PeakKept :=
  trivial

------------------------------------------------------------------------------------------
-- What a read returns
------------------------------------------------------------------------------------------

/-- A list that was fetched is returned within the peak that is read after it. -/
theorem forall₂_withinPeak {states : List CoinState} {peak : Option (UInt32 × Bytes32)}
    {since : PeaksSince}
    (taken : since.Known → ∃ known, peak = some known ∧ some known.1 ∈ since)
    : List.Forall₂ (fun state record => WithinPeak since (fromCoinState state) record) states
        (states.map (reported fromCoinState (peak.map (fun known => known.1)))) := by
  rw [List.forall₂_map_right_iff, List.forall₂_same]
  intro state member
  refine withinPeak_clamp_iff.mpr (fun earlier => ?_)
  obtain ⟨known, rfl, inForce⟩ := taken earlier
  exact ⟨known.1, inForce, Or.inl ⟨known.1, rfl, UInt32.le_refl _⟩⟩

/-- What `coin_record` returns is within a peak exactly when the peak it read first is, or its
coin state was. The reads of lists return nothing else.
-/
theorem returnsWithin_iff (kept : state.PeakKept)
    : ReturnsWithin fromCoinState state event ↔ KeepsToPeak fromCoinState state event := by
  cases event with
  | operate | openCoinRecord | lookUp | openCoinRecords | answer | readPeak | fail =>
      exact Iff.rfl
  | finish =>
      unfold ReturnsWithin KeepsToPeak
      rw [ServingState.PeakKept] at kept
      cases stage : state.read with
      | idle | peakRead | missed | fetching | fetched => exact Iff.rfl
      | clamping states peak since =>
          rw [stage] at kept
          exact iff_of_true ⟨_, rfl, forall₂_withinPeak kept.2⟩ trivial
      | found peak found since =>
          have returned
              : coinRecord fromCoinState (.ran peak) (.ran (.ok found))
                = .ok (found.map (reported fromCoinState (peak.map (fun known => known.1)))) :=
            rfl
          simp only [returned, Except.ok.injEq, exists_eq_left']
          cases found with
          | none => simp
          | some found =>
              simp only [Option.map_some, Option.toList_some, List.forall₂_cons,
                List.Forall₂.nil, and_true]
              refine withinPeak_clamp_iff.trans (imp_congr_right (fun _ => ?_))
              simp only [Option.map_eq_some_iff, exists_exists_and_eq_and]

/-- From every cache, in every run of it beside reads of the provider, every record returned is
within a peak that was in force since its coin state was obtained exactly when what every
`coin_record` goes by is.
-/
theorem records_are_within_peak_iff (coinId : ProtocolCoin → Bytes32)
    (fromCoinState : CoinState → IfaceCoinRecord) (cache : CoinStateCache)
    (events : List ServingEvent)
    : (serving coinId cache).Meets (ReturnsWithin fromCoinState) events
      ↔ (serving coinId cache).Meets (KeepsToPeak fromCoinState) events :=
  Machine.meets_iff (peakKept_initial cache) ServingState.PeakKept.step returnsWithin_iff events

/-- The record of a coin state, with no timestamp. -/
def sampleRecord (state : CoinState) : IfaceCoinRecord where
  coin := state.coin
  confirmedHeight := state.createdHeight
  spentHeight := state.spentHeight
  timestamp := none
  coinbase := false

/-- The first peak is announced after `coin_record` has read that there is none, and before the
fetched state arrives.
-/
def firstPeakEvents : List ServingEvent :=
  [.openCoinRecord sampleId, .lookUp, .operate (.setPeak 100 1),
    .answer [{ coin := sampleCoin, createdHeight := some 101, spentHeight := none }]]

/-- The coin is returned as confirmed above every peak there has been. -/
theorem record_is_above_peak
    : ¬ ∀ (cache : CoinStateCache) (events : List ServingEvent),
        (serving sampleCoinId cache).Meets (ReturnsWithin sampleRecord) events := by
  intro claim
  have reached
      : ((serving sampleCoinId .empty).run firstPeakEvents).any (fun state =>
          decide (state.read
            = .found none
                (some { coin := sampleCoin, createdHeight := some 101, spentHeight := none })
                [some 100]))
        = true := by
    decide +kernel
  obtain ⟨state, reached, facts⟩ := (Option.any_eq_true _ _).mp reached
  have within := (claim .empty (firstPeakEvents ++ [.finish])).last reached
  rw [ReturnsWithin, of_decide_eq_true facts] at within
  obtain ⟨record, returned, within⟩ := within
  cases returned
  cases within with
  | cons within _ =>
      obtain ⟨peak, inForce, bounded⟩ := within.bounded ⟨100, rfl⟩
      cases List.mem_singleton.mp inForce
      cases bounded

end ChiaQuery.LightClient
