import ChiaQuery.LightClient.Following

/-! Which session the frames applied to the cache come from. A frame is checked against the
slot and applied later, under another lock; unless the anchor is unpinned in between, it comes
from the session that is pinned when it is applied.
-/

namespace ChiaQuery.LightClient

open ChiaQuery.Library

/-- No failed read unpins the anchor between the check of a frame and its application. -/
def HoldsWhileApplying (state : DriveState) (event : DriveEvent) : Prop :=
  match event, state.turn with
  | .releaseAnchorAt address, .following _ =>
      state.anchorSource.all (fun source => source.address ≠ address) = true
  | _, _ => True

instance (state : DriveState) (event : DriveEvent)
    : Decidable (HoldsWhileApplying state event) := by
  unfold HoldsWhileApplying
  split
  · infer_instance
  · infer_instance

/-- Every frame was applied while its session was pinned. -/
def DriveState.AppliesFollowed (state : DriveState) : Prop :=
  ∀ applied ∈ state.applied, applied.anchor = some applied.sourced.source

/-- What every state of a run that holds the anchor while applying satisfies. -/
structure AppliesInvariant (state : DriveState) : Prop where
  leads : AnchorLeads state
  applies : state.AppliesFollowed
  following
    : ∀ sourced, state.turn = .following sourced → state.anchorSource = some sourced.source

/-- A release at another address leaves the anchor pinned. -/
theorem DriveState.releaseAnchorAt_of_apart {state : DriveState} {address : SocketAddr}
    (apart : state.anchorSource.all (fun source => source.address ≠ address) = true)
    : state.releaseAnchorAt address = state := by
  have kept
      : state.anchor.filter (fun anchor => anchor.source.address ≠ address) = state.anchor := by
    unfold DriveState.anchorSource at apart
    cases pinned : state.anchor with
    | none => rfl
    | some anchor =>
        rw [pinned, Option.map_some, Option.all_some] at apart
        rw [Option.filter_some, if_pos apart]
  rw [DriveState.releaseAnchorAt, kept]

namespace AppliesInvariant

variable {coinId : ProtocolCoin → Bytes32} {state next : DriveState} {event : DriveEvent}

/-- What is applied has passed the check, and its session is still pinned. -/
theorem applies_step (h : AppliesInvariant state)
    (stepped : driveStep coinId state event = some next)
    : next.AppliesFollowed := by
  by_cases applying : event = .apply
  · subst applying
    obtain ⟨sourced, turn, -, -, applied, -⟩ := driveStep_apply stepped
    intro entry member
    rw [applied] at member
    rcases List.mem_cons.mp member with rfl | before
    · exact h.following sourced turn
    · exact h.applies entry before
  · unfold DriveState.AppliesFollowed
    rw [(driveStep_other applying stepped).1]
    exact h.applies

/-- Between the check and the application, no call to `anchor` can hold the lock, so only a
failed read could change the anchor.
-/
theorem following_step (h : AppliesInvariant state) (holds : HoldsWhileApplying state event)
    (stepped : driveStep coinId state event = some next) {sourced : SourcedFrame}
    (following : next.turn = .following sourced)
    : next.anchorSource = some sourced.source := by
  unfold DriveState.anchorSource
  rcases driveStep_following stepped following with ⟨followed, same⟩ | ⟨before, changes⟩
  · rw [same]
    exact follows_iff.mp followed
  · have pinned := h.following sourced before
    rcases changes with ⟨same, -⟩ | ⟨rfl, locked, -⟩ | ⟨address, rfl, same, -⟩
    · rw [same]
      exact pinned
    · obtain ⟨anchor, slot, -⟩ := Option.map_eq_some_iff.mp pinned
      rw [h.leads.unlocked slot] at locked
      cases locked
    · simp only [HoldsWhileApplying, before] at holds
      rw [same, DriveState.releaseAnchorAt_of_apart holds]
      exact pinned

/-- Every event that holds the anchor while applying keeps the invariant. -/
theorem step (h : AppliesInvariant state) (holds : HoldsWhileApplying state event)
    (stepped : (driving coinId).step state event = some next)
    : AppliesInvariant next where
  leads := h.leads.step stepped
  applies := h.applies_step stepped
  following _ following := h.following_step holds stepped following

end AppliesInvariant

theorem appliesInvariant_initial (coinId : ProtocolCoin → Bytes32)
    : AppliesInvariant (driving coinId).initial where
  leads := anchorLeads_initial coinId
  applies applied member := by cases member
  following sourced following := by cases following

/-- In every run in which no failed read unpins the anchor between the check of a frame and
its application, every frame was applied while its session was pinned.
-/
theorem applied_frames_are_followed {coinId : ProtocolCoin → Bytes32}
    {events : List DriveEvent} {final : DriveState}
    (holds : (driving coinId).Meets HoldsWhileApplying events)
    (reached : (driving coinId).run events = some final)
    : final.AppliesFollowed :=
  (Machine.run_invariant (appliesInvariant_initial coinId)
    (fun h guarded stepped => h.step guarded stepped) holds reached).applies

/-- The loop takes a frame and finds it to be the anchor's. -/
def receiveEvents (source : FrameSource) (frame : PoolFrame) : List DriveEvent :=
  [.poll, .receive (some (SourcedFrame.mk source frame)), .check]

/-- Two sessions are pinned one after the other, and each announces a peak. -/
def relayedEvents : List DriveEvent :=
  pinEvents (sampleEntry 1).source ++ [.adopt]
    ++ receiveEvents (sampleEntry 1).source (.peak 7 0)
    ++ [.apply, .releaseAnchorAt (sampleEntry 1).address]
    ++ pinEvents (sampleEntry 2).source ++ [.adopt]
    ++ receiveEvents (sampleEntry 2).source (.peak 8 0)
    ++ [.apply]

theorem applied_frames_are_followed_sample
    : ∃ final, (driving sampleCoinId).run relayedEvents = some final
        ∧ final.applied.length = 2
        ∧ final.AppliesFollowed := by
  have holds : (driving sampleCoinId).Meets HoldsWhileApplying relayedEvents := by
    decide
  have followed {final : DriveState}
      (reached : (driving sampleCoinId).run relayedEvents = some final) :=
    applied_frames_are_followed holds reached
  exact ⟨_, rfl, rfl, followed rfl⟩

/-- A read fails and another session is pinned after a frame has passed the check. -/
def staleFrameEvents : List DriveEvent :=
  pinEvents (sampleEntry 1).source ++ [.adopt]
    ++ receiveEvents (sampleEntry 1).source (.peak 7 0)
    ++ [.releaseAnchorAt (sampleEntry 1).address]
    ++ pinEvents (sampleEntry 2).source ++ [.apply]

/-- In that run a peak of the first session is applied while the second one is pinned. -/
theorem applied_frame_is_superseded
    : ¬ ∀ (events : List DriveEvent) (final : DriveState),
        (driving sampleCoinId).run events = some final
        → final.AppliesFollowed := by
  intro claim
  have followed := claim staleFrameEvents _ rfl _ List.mem_cons_self
  exact absurd followed (by decide)

end ChiaQuery.LightClient
