import ChiaQuery.LightClient.AppliedFrames

/-! Whose peak the cache holds. A peak outlives the session that announced it and gives way
only to one at least as high or to a reorganisation; where each peak announced by the pinned
session takes its place, or finds one of that session, the peak held is the session's own.
-/

namespace ChiaQuery.LightClient

open ChiaQuery.Library

variable (coinId : ProtocolCoin → Bytes32)

/-- The update rolls a cached coin back, across a fork below the peak held. -/
def CoinStateCache.isGenuineReorg (cache : CoinStateCache) (items : List CoinState)
    (height forkHeight : UInt32)
    : Bool :=
  let reasserted := cache.reasserted coinId items
  cache.coins.any (fun id state => rollBack reasserted forkHeight id state ≠ some state)
    && forkHeight ≤ height
    && cache.peak.any (fun current => forkHeight < current.1)

/-- The frame may lower the peak of the cache. -/
def CoinStateCache.lowersFor (cache : CoinStateCache) : PoolFrame → Bool
  | .coinStates height forkHeight _ items =>
      cache.isGenuineReorg coinId items height forkHeight
  | _ => false

/-- The session announced that peak in a frame that was applied. -/
def DriveState.Announced (state : DriveState) (source : FrameSource)
    (peak : UInt32 × Bytes32)
    : Prop :=
  ∃ applied ∈ state.applied,
    applied.sourced.source = source ∧ applied.sourced.frame.peak? = some peak

instance (state : DriveState) (source : FrameSource) (peak : UInt32 × Bytes32)
    : Decidable (state.Announced source peak) :=
  List.decidableBEx _ _

/-- Once the pinned session has announced a peak, the peak held is one it announced. -/
def DriveState.PeakFollowed (state : DriveState) : Prop :=
  ∀ source, state.anchorSource = some source
    → state.spoken = true
    → ∃ peak, state.cache.peak = some peak ∧ state.Announced source peak

/-- Where the frame announces a peak, the one held is not above it, is lowered by a
reorganisation, or is one that the frame's session announced itself.
-/
def DriveState.PeakYields (state : DriveState) (sourced : SourcedFrame) : Prop :=
  ∀ announced ∈ sourced.frame.peak?, ∀ current ∈ state.cache.peak,
    current.1 ≤ announced.1
    ∨ state.cache.lowersFor coinId sourced.frame = true
    ∨ state.Announced sourced.source current

-- Tested on the two peaks: the instance for all pairs would enumerate every hash.
instance (state : DriveState) (sourced : SourcedFrame)
    : Decidable (state.PeakYields coinId sourced) :=
  @Option.decidableForallMem _ _ (fun _ => Option.decidableForallMem _) _

/-- The peak held yields to a frame of the pinned session. -/
def TakesPeak (state : DriveState) (event : DriveEvent) : Prop :=
  match event, state.turn with
  | .apply, .following sourced =>
      state.anchorSource = some sourced.source → state.PeakYields coinId sourced
  | _, _ => True

instance (state : DriveState) (event : DriveEvent) : Decidable (TakesPeak coinId state event) :=
  if applies : event = .apply then
    match turn : state.turn with
    | .following sourced =>
        decidable_of_iff
          (state.anchorSource = some sourced.source → state.PeakYields coinId sourced)
          (by simp only [TakesPeak, applies, turn])
    | .select | .polled | .received _ | .releasing _ _ =>
        isTrue (by simp [TakesPeak, turn])
  else isTrue (by simp [TakesPeak, applies])

------------------------------------------------------------------------------------------
-- What a frame does to the peak
------------------------------------------------------------------------------------------

section Peak

variable {coinId} {cache : CoinStateCache}

/-- A frame that announces a peak puts it in place of one that is not above it or may be
lowered, and a frame that announces none leaves the peak alone.
-/
theorem CoinStateCache.applyFrame_peak (frame : PoolFrame)
    : (cache.applyFrame coinId frame).1.peak
      = match frame.peak? with
        | none => cache.peak
        | some announced =>
            if cache.peak.all (fun current =>
                current.1 ≤ announced.1 || cache.lowersFor coinId frame)
            then some announced
            else cache.peak := by
  cases frame with
  | reset => rfl
  | peak height headerHash => exact updatePeak_peak
  | coinStates height forkHeight peakHash items =>
      simp only [applyFrame, untrackCoins, applyUpdate_eq_seed, seed_peak, afterFork,
        updatePeak_peak, PoolFrame.peak?, lowersFor, isGenuineReorg]
      rfl
  | sessionEnded reason => rfl

end Peak

------------------------------------------------------------------------------------------
-- The peak of a session that has spoken is its own
------------------------------------------------------------------------------------------

/-- What every state of a run satisfies in which each peak takes its place. A frame that is
about to be applied is the anchor's, or that of a session whose successor is still silent.
-/
structure PeakInvariant (state : DriveState) : Prop where
  followed : state.PeakFollowed
  following
    : ∀ sourced, state.turn = .following sourced
        → ∀ source, state.anchorSource = some source
        → source = sourced.source ∨ state.spoken = false

namespace PeakInvariant

variable {coinId} {state next : DriveState} {event : DriveEvent}

theorem announced_cons {state next : DriveState} {entry : AppliedFrame} {source : FrameSource}
    {peak : UInt32 × Bytes32} (grown : next.applied = entry :: state.applied)
    (h : state.Announced source peak)
    : next.Announced source peak := by
  obtain ⟨applied, member, names⟩ := h
  exact ⟨applied, grown ▸ List.mem_cons_of_mem entry member, names⟩

/-- The session that has spoken once a frame is applied is the frame's own. -/
theorem followed_apply (h : PeakInvariant state) (takes : TakesPeak coinId state .apply)
    (stepped : driveStep coinId state .apply = some next)
    : next.PeakFollowed := by
  obtain ⟨sourced, turn, anchor, cache, applied, spoken⟩ := driveStep_apply stepped
  intro source pinned speaks
  have before : state.anchorSource = some source := by
    rwa [DriveState.anchorSource, ← anchor]
  have own : source = sourced.source := by
    rcases h.following sourced turn source before with own | silent
    · exact own
    · rw [spoken, silent, Bool.false_or, Bool.and_eq_true, follows_iff, before] at speaks
      exact Option.some.inj speaks.2
  subst own
  rw [cache, CoinStateCache.applyFrame_peak]
  cases announces : sourced.frame.peak? with
  | none =>
      rw [spoken, announces, Option.isSome_none, Bool.false_and, Bool.or_false] at speaks
      obtain ⟨peak, held, announced⟩ := h.followed sourced.source before speaks
      exact ⟨peak, held, announced_cons applied announced⟩
  | some announced =>
      dsimp only
      split
      · exact ⟨announced, rfl, _, applied ▸ List.mem_cons_self, rfl, announces⟩
      · rename_i above
        -- The peak stays, so it is above the new one, and the guard says whose it is.
        cases held : state.cache.peak with
        | none => simp [held] at above
        | some current =>
            simp only [held, Option.all_some, Bool.or_eq_true, decide_eq_true_eq, not_or]
              at above
            simp only [TakesPeak, turn] at takes
            rcases takes before announced announces current held with le | lowers | mine
            · exact absurd le above.1
            · exact absurd lowers above.2
            · exact ⟨current, rfl, announced_cons applied mine⟩

theorem followed_step (h : PeakInvariant state) (takes : TakesPeak coinId state event)
    (stepped : driveStep coinId state event = some next)
    : next.PeakFollowed := by
  by_cases applying : event = .apply
  · subst applying
    exact h.followed_apply takes stepped
  · obtain ⟨applied, peak, anchor⟩ := driveStep_other applying stepped
    intro source pinned speaks
    rcases anchor with silent | ⟨spoken, kept⟩
    · rw [silent] at speaks
      cases speaks
    · obtain ⟨anchor, slot, same⟩ := Option.map_eq_some_iff.mp pinned
      have before : state.anchorSource = some source :=
        Option.map_eq_some_iff.mpr ⟨anchor, kept anchor slot, same⟩
      unfold DriveState.Announced
      rw [peak, applied]
      exact h.followed source before (spoken ▸ speaks)

/-- A session pinned after the check of a frame is silent until the frame is applied. -/
theorem following_step (h : PeakInvariant state)
    (stepped : driveStep coinId state event = some next) {sourced : SourcedFrame}
    (following : next.turn = .following sourced) {source : FrameSource}
    (pinned : next.anchorSource = some source)
    : source = sourced.source ∨ next.spoken = false := by
  rcases driveStep_following stepped following with ⟨followed, same⟩ | ⟨before, changes⟩
  · rw [DriveState.anchorSource, same] at pinned
    exact Or.inl (Option.some.inj (pinned.symm.trans (follows_iff.mp followed)))
  · rcases changes with ⟨same, spoken⟩ | ⟨-, -, silent⟩ | ⟨address, -, same, spoken⟩
    · rw [DriveState.anchorSource, same] at pinned
      rw [spoken]
      exact h.following sourced before source pinned
    · exact Or.inr silent
    · obtain ⟨anchor, slot, names⟩ := Option.map_eq_some_iff.mp pinned
      rw [same] at slot
      have held : state.anchorSource = some source :=
        Option.map_eq_some_iff.mpr ⟨anchor, (Option.filter_eq_some_iff.mp slot).1, names⟩
      rw [spoken]
      exact h.following sourced before source held

theorem step (h : PeakInvariant state) (takes : TakesPeak coinId state event)
    (stepped : (driving coinId).step state event = some next)
    : PeakInvariant next where
  followed := h.followed_step takes stepped
  following _ following _ pinned := h.following_step stepped following pinned

end PeakInvariant

/-- The condition is needed: where the peak held does not yield to the pinned session's frame,
it stays, and that session has announced a peak and not this one.
-/
theorem not_followed_of_blocked {coinId} {state next : DriveState} {sourced : SourcedFrame}
    (turn : state.turn = .following sourced)
    (pinned : state.anchorSource = some sourced.source)
    (blocked : ¬ state.PeakYields coinId sourced)
    (stepped : driveStep coinId state .apply = some next)
    : ¬ next.PeakFollowed := by
  obtain ⟨frame, same, anchor, cache, applied, spoken⟩ := driveStep_apply stepped
  cases turn.symm.trans same
  simp only [DriveState.PeakYields, not_forall, not_or] at blocked
  obtain ⟨announced, announces, current, held, above, stays, foreign⟩ := blocked
  have kept : next.cache.peak = some current := by
    rw [cache, CoinStateCache.applyFrame_peak, Option.mem_def.mp announces]
    simp [Option.mem_def.mp held, above, stays]
  intro followed
  have still : next.anchorSource = some sourced.source := by
    rwa [DriveState.anchorSource, anchor]
  have speaks : next.spoken = true := by
    rw [spoken, Option.mem_def.mp announces, follows_iff.mpr pinned]
    simp
  obtain ⟨peak, peakHeld, entry, member, own, names⟩ := followed sourced.source still speaks
  cases kept.symm.trans peakHeld
  rw [applied] at member
  rcases List.mem_cons.mp member with rfl | before
  · cases names.symm.trans announces
    exact above (UInt32.le_refl _)
  · exact foreign ⟨entry, before, own, names⟩

theorem peakInvariant_initial : PeakInvariant (driving coinId).initial where
  followed source pinned := by cases pinned
  following sourced following := by cases following

variable {coinId}

/-- In every run in which each peak of the pinned session takes its place, the peak held is
one the pinned session announced, once it has announced one.
-/
theorem peak_is_followed {events : List DriveEvent} {final : DriveState}
    (takes : (driving coinId).Meets (TakesPeak coinId) events)
    (reached : (driving coinId).run events = some final)
    : final.PeakFollowed :=
  (Machine.run_invariant (peakInvariant_initial coinId)
    (fun h guarded stepped => h.step guarded stepped) takes reached).followed

theorem peak_is_followed_sample
    : ∃ final, (driving sampleCoinId).run relayedEvents = some final
        ∧ final.spoken = true
        ∧ final.PeakFollowed := by
  have takes : (driving sampleCoinId).Meets (TakesPeak sampleCoinId) relayedEvents := by
    decide +kernel
  have followed {final : DriveState}
      (reached : (driving sampleCoinId).run relayedEvents = some final) :=
    peak_is_followed takes reached
  have reached
      : ((driving sampleCoinId).run relayedEvents).any (fun final => final.spoken) = true := by
    decide +kernel
  obtain ⟨final, reached, spoken⟩ := (Option.any_eq_true _ _).mp reached
  exact ⟨final, reached, spoken, followed reached⟩

/-- A session announces the highest peak there is, and the next one a lower peak. -/
def hostilePeakEvents : List DriveEvent :=
  pinEvents (sampleEntry 1).source ++ [.adopt]
    ++ receiveEvents (sampleEntry 1).source (.peak 4294967295 1)
    ++ [.apply, .releaseAnchorAt (sampleEntry 1).address]
    ++ pinEvents (sampleEntry 2).source ++ [.adopt]
    ++ receiveEvents (sampleEntry 2).source (.peak 100 2)
    ++ [.apply]

/-- The peak of the first session outlives it, although the second one has announced its own. -/
theorem hostile_peak_persists
    : ¬ ∀ (events : List DriveEvent) (final : DriveState),
        (driving sampleCoinId).run events = some final
        → final.PeakFollowed := by
  intro claim
  have reached
      : ((driving sampleCoinId).run hostilePeakEvents).any (fun final =>
          decide (final.anchorSource = some (sampleEntry 2).source
            ∧ final.spoken = true
            ∧ final.cache.peak = some (4294967295, 1)
            ∧ ¬ final.Announced (sampleEntry 2).source (4294967295, 1)))
        = true := by
    decide +kernel
  obtain ⟨final, reached, facts⟩ := (Option.any_eq_true _ _).mp reached
  obtain ⟨pinned, spoken, held, foreign⟩ := of_decide_eq_true facts
  obtain ⟨peak, same, announced⟩ := claim hostilePeakEvents final reached _ pinned spoken
  cases held.symm.trans same
  exact foreign announced

end ChiaQuery.LightClient
