import ChiaQuery.Peer.SessionStream

/-! No session's traffic reaches another session's subscribers, whatever the channel is: a
subscriber sees what the events of its own session make of it. And a session takes subscribers
from its opening to its end only.
-/

namespace ChiaQuery

open ChiaQuery.Library

variable {Chan : Type} {channel : BoundedChannel Chan SourcedFrame}
  {state next final : FanoutState Chan} {source : FrameSource}

------------------------------------------------------------------------------------------
-- A session that is not registered stays so until it is opened
------------------------------------------------------------------------------------------

theorem FanoutState.act_subscribers {number : Nat} {followed : FrameSource}
    {f : Subscription Chan → Subscription Chan}
    (acted : state.act followed number f = some next)
    : next.subscribers = state.subscribers ∧ next.opened = state.opened := by
  obtain ⟨_, _, _, _, rfl⟩ := FanoutState.act_inv acted
  exact ⟨rfl, rfl⟩

/-- Only its opening registers a session. -/
theorem FanoutState.unregistered_step {event : FanoutEvent}
    (other : event ≠ .register source) (unregistered : state.subscribers source = none)
    (stepped : state.step channel event = some next)
    : next.subscribers source = none := by
  cases event with
  | allocate address =>
      cases stepped
      exact unregistered
  | register opened =>
      cases stepped
      have apart : source ≠ opened := fun same => other (by rw [same])
      simpa [FanoutState.register, Function.update_of_ne apart] using unregistered
  | publish published frame =>
      simp only [FanoutState.step] at stepped
      split at stepped
      · cases stepped
        by_cases same : source = published
        · subst same
          have registered
              : ((state.publish channel source frame).subscribers source).isSome
                = ((state.subscribers source).isSome && !frame.endsSession) :=
            FanoutState.publish_registered frame
          simpa [unregistered] using registered
        · rw [FanoutState.publish_followers_other frame same]
          exact unregistered
      · cases stepped
  | subscribe followed capacity =>
      cases stepped
      by_cases same : source = followed
      · subst same
        simp [FanoutState.subscribe, unregistered]
      · cases senders : state.subscribers followed with
        | none => simpa [FanoutState.subscribe, senders] using unregistered
        | some followers =>
            cases hopened : Subscription.opening channel followed capacity with
            | none => simpa [FanoutState.subscribe, senders, hopened] using unregistered
            | some opened =>
                simpa [FanoutState.subscribe, senders, hopened, Function.update_of_ne same]
                  using unregistered
  | recv followed number =>
      rw [(FanoutState.act_subscribers stepped).1]
      exact unregistered
  | drop followed number =>
      rw [(FanoutState.act_subscribers stepped).1]
      exact unregistered

/-- A run without its opening leaves an unregistered session so, by induction on the events. -/
theorem FanoutState.unregistered_run {events : List FanoutEvent}
    (unopened : .register source ∉ events) (unregistered : state.subscribers source = none)
    (reached : (fanout channel).runFrom state events = some final)
    : final.subscribers source = none := by
  induction events generalizing state with
  | nil =>
      cases reached
      exact unregistered
  | cons event rest ih =>
      obtain ⟨next, stepped, reached⟩ := Option.bind_eq_some_iff.mp reached
      have other : event ≠ .register source := fun same => unopened (by simp [same])
      exact ih (fun later => unopened (List.mem_cons_of_mem _ later))
        (FanoutState.unregistered_step other unregistered stepped) reached

------------------------------------------------------------------------------------------
-- A session is opened by its opening
------------------------------------------------------------------------------------------

theorem FanoutState.subscribe_opened (followed : FrameSource) (capacity : Nat)
    : ((state.subscribe channel followed capacity).getD state).opened = state.opened := by
  cases senders : state.subscribers followed with
  | none => simp [FanoutState.subscribe, senders]
  | some followers =>
      cases hopened : Subscription.opening channel followed capacity with
      | none => simp [FanoutState.subscribe, senders, hopened]
      | some opened => simp [FanoutState.subscribe, senders, hopened]

theorem FanoutState.opened_step {event : FanoutEvent}
    (stepped : state.step channel event = some next) (opened : source ∈ next.opened)
    : source ∈ state.opened ∨ event = .register source := by
  cases event with
  | allocate address =>
      cases stepped
      exact Or.inl opened
  | register registered =>
      cases stepped
      rcases List.mem_cons.mp opened with same | earlier
      · exact Or.inr (by rw [same])
      · exact Or.inl earlier
  | publish published frame =>
      simp only [FanoutState.step] at stepped
      split at stepped
      · cases stepped
        rw [FanoutState.publish_opened] at opened
        exact Or.inl opened
      · cases stepped
  | subscribe followed capacity =>
      cases stepped
      rw [FanoutState.subscribe_opened] at opened
      exact Or.inl opened
  | recv followed number =>
      rw [(FanoutState.act_subscribers stepped).2] at opened
      exact Or.inl opened
  | drop followed number =>
      rw [(FanoutState.act_subscribers stepped).2] at opened
      exact Or.inl opened

theorem FanoutState.opened_run {events : List FanoutEvent}
    (reached : (fanout channel).runFrom state events = some final)
    (opened : source ∈ final.opened)
    : source ∈ state.opened ∨ .register source ∈ events := by
  induction events generalizing state with
  | nil =>
      cases reached
      exact Or.inl opened
  | cons event rest ih =>
      obtain ⟨next, stepped, reached⟩ := Option.bind_eq_some_iff.mp reached
      rcases ih reached with earlier | later
      · exact (FanoutState.opened_step stepped earlier).imp_right (fun same => by simp [same])
      · exact Or.inr (List.mem_cons_of_mem _ later)

------------------------------------------------------------------------------------------
-- Two runs that differ elsewhere, and the life of a session
------------------------------------------------------------------------------------------

/-- The end of a session deregisters it, and it had been opened. -/
theorem FanoutState.ended_step {reason : SessionEndReason}
    (stepped : state.step channel (.publish source (.sessionEnded reason)) = some next)
    : next.subscribers source = none ∧ source ∈ state.opened := by
  simp only [FanoutState.step] at stepped
  split at stepped
  · rename_i opened
    cases stepped
    have registered
        : ((state.publish channel source (.sessionEnded reason)).subscribers source).isSome
          = false := by
      rw [FanoutState.publish_registered]
      exact Bool.and_false _
    exact ⟨by simpa using registered, opened⟩
  · cases stepped

/-- A session opened at most once is not registered after its end. -/
theorem FanoutState.unregistered_after_end {events : List FanoutEvent}
    {reason : SessionEndReason} (once : events.count (.register source) ≤ 1)
    (ended : .publish source (.sessionEnded reason) ∈ events)
    (reached : (fanout channel).run events = some final)
    : final.subscribers source = none := by
  obtain ⟨earlier, later, rfl⟩ := List.append_of_mem ended
  unfold Machine.run at reached
  rw [Machine.runFrom_append] at reached
  obtain ⟨before, reachedBefore, reached⟩ := Option.bind_eq_some_iff.mp reached
  obtain ⟨after, stepped, reached⟩ := Option.bind_eq_some_iff.mp reached
  obtain ⟨unregistered, opened⟩ := FanoutState.ended_step stepped
  have openedBefore : FanoutEvent.register source ∈ earlier := by
    rcases FanoutState.opened_run reachedBefore opened with initially | registered
    · cases initially
    · exact registered
  have notAgain : FanoutEvent.register source ∉ later := by
    intro again
    have first := List.count_pos_iff.mpr openedBefore
    have second := List.count_pos_iff.mpr again
    rw [List.count_append, List.count_cons] at once
    omega
  exact FanoutState.unregistered_run notAgain unregistered reached

/-- Two runs that differ only in operations on other sessions show the subscribers of a session
the same; and where each session is opened at most once, no subscription to it is to be had
before it is opened or after its end was published.
-/
theorem sessions_are_isolated (channel : BoundedChannel Chan SourcedFrame)
    (source : FrameSource)
    : (∀ (left right : List FanoutEvent) (leftFinal rightFinal : FanoutState Chan),
          left.filter (FanoutEvent.concerns source)
            = right.filter (FanoutEvent.concerns source)
          → (fanout channel).run left = some leftFinal
          → (fanout channel).run right = some rightFinal
          → leftFinal.view source = rightFinal.view source)
      ∧ ∀ (events : List FanoutEvent) (final : FanoutState Chan),
          (∀ other, events.count (.register other) ≤ 1)
          → (fanout channel).run events = some final
          → (.register source ∉ events
              ∨ ∃ reason, .publish source (.sessionEnded reason) ∈ events)
          → ∀ capacity, final.subscribe channel source capacity = none := by
  constructor
  · intro left right leftFinal rightFinal same leftReached rightReached
    exact (fanout_projects channel source).view_eq same leftReached rightReached
  · intro events final once reached outside capacity
    have unregistered : final.subscribers source = none := by
      rcases outside with unopened | ⟨reason, ended⟩
      · exact FanoutState.unregistered_run unopened rfl reached
      · exact FanoutState.unregistered_after_end (once source) ended reached
    simp [FanoutState.subscribe, unregistered]

/-- A session with one slow subscriber, from its opening to its end. -/
def quietEvents : List FanoutEvent :=
  let followed := sampleSource 1
  [.register followed, .subscribe followed 1, .recv followed 0,
    .publish followed (.peak 7 0), .publish followed (.sessionEnded .disconnected)]

/-- The same session while a later session at its address opens, floods and ends. -/
def floodedEvents : List FanoutEvent :=
  let flooding := sampleSource 2
  [.register flooding, .subscribe flooding 1] ++ quietEvents.take 4
    ++ [.publish flooding (.peak 9 0), .publish flooding (.sessionEnded .oversizedFrame)]
    ++ quietEvents.drop 4

theorem sessions_are_isolated_sample
    : ∃ quiet flooded,
        (fanout Queue.channel).run quietEvents = some quiet
        ∧ (fanout Queue.channel).run floodedEvents = some flooded
        ∧ quiet.view (sampleSource 1) = flooded.view (sampleSource 1)
        ∧ flooded.subscribe Queue.channel (sampleSource 1) 4 = none := by
  obtain ⟨same, refused⟩ := sessions_are_isolated Queue.channel (sampleSource 1)
  refine ⟨_, _, rfl, rfl, same quietEvents floodedEvents _ _ (by decide) rfl rfl, ?_⟩
  have once : floodedEvents.Nodup := by decide
  exact refused floodedEvents _ (fun other => List.nodup_iff_count_le_one.mp once _) rfl
    (Or.inr ⟨.disconnected, by decide⟩) 4

end ChiaQuery
