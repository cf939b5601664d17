import ChiaQuery.Peer.SessionStream

/-! What one subscription receives. While its sender is in the map everything published for its
source has been received or waits in its channel; once a frame is refused the sender is gone, so
the stream ends behind what waited and nothing after the gap can reach it.
-/

namespace ChiaQuery

open ChiaQuery.Library

variable {Chan : Type}

/-- The end of the session may stand last, and nowhere else. -/
def EndsLast (frames : List SourcedFrame) : Prop :=
  ∀ item ∈ frames.dropLast, item.frame.endsSession = false

/-- A reset, and every frame published for the source since the subscription was opened. -/
def Subscription.stream (subscription : Subscription Chan) : List SourcedFrame :=
  (.reset :: subscription.published).map (fun frame => { source := subscription.source, frame })

/-- What a subscription receives is its stream without a gap, up to where it has come, with the
end of the session in the last place only. And if anything published has neither been received
nor is waiting, the subscriber receives what waits and then the end.
-/
structure Subscription.InStep (channel : BoundedChannel Chan SourcedFrame)
    (subscription : Subscription Chan)
    : Prop where
  inOrder : subscription.received <+: subscription.stream
  endsLast : EndsLast subscription.received
  gapEnds :
    subscription.held = true →
      ∃ waiting last,
        channel.Yields subscription.channel waiting last
        ∧ subscription.received ++ waiting <+: subscription.stream
        ∧ (subscription.received ++ waiting = subscription.stream ∨ last = .ended)

/-- What holds of a subscription of a session at any time, by the queue its channel stands for:
it is complete while it is followed, and has no sender once it is not.
-/
structure StreamFits (queue : Chan → Queue SourcedFrame) (source : FrameSource)
    (stream : Bool × Subscription Chan)
    : Prop where
  own : stream.2.source = source
  received : stream.2.received <+: stream.2.stream
  endsLast : EndsLast stream.2.received
  running : stream.1 = true → ∀ item ∈ stream.2.stream, item.frame.endsSession = false
  complete :
    stream.1 = true → stream.2.held = true →
      stream.2.received ++ (queue stream.2.channel).buffered = stream.2.stream
  cut : stream.1 = false → (queue stream.2.channel).sending = false
  behind :
    stream.1 = false → stream.2.held = true →
      stream.2.received ++ (queue stream.2.channel).buffered <+: stream.2.stream
      ∧ EndsLast (stream.2.received ++ (queue stream.2.channel).buffered)

------------------------------------------------------------------------------------------
-- Streams that may end
------------------------------------------------------------------------------------------

theorem EndsLast.of_prefix {frames more : List SourcedFrame} (h : EndsLast more)
    (shorter : frames <+: more)
    : EndsLast frames := by
  obtain ⟨rest, rfl⟩ := shorter
  intro item member
  cases rest with
  | nil => exact h item (by simpa using member)
  | cons next rest =>
      refine h item ?_
      rw [List.dropLast_append_cons]
      exact List.mem_append_left _ (List.dropLast_subset _ member)

theorem endsLast_of_running {frames : List SourcedFrame}
    (h : ∀ item ∈ frames, item.frame.endsSession = false)
    : EndsLast frames :=
  fun item member => h item (List.dropLast_subset _ member)

theorem endsLast_concat {frames : List SourcedFrame}
    (h : ∀ item ∈ frames, item.frame.endsSession = false) (last : SourcedFrame)
    : EndsLast (frames ++ [last]) := by
  intro item member
  rw [List.dropLast_concat] at member
  exact h item member

namespace Subscription

variable {channel : BoundedChannel Chan SourcedFrame} {queue : Chan → Queue SourcedFrame}
  {subscription : Subscription Chan}

theorem stream_note (frame : PoolFrame)
    : (subscription.note frame).stream
      = subscription.stream ++ [{ source := subscription.source, frame }] := by
  simp [stream, note]

/-- A receive takes from what waits, so what was received and what waits stay the same. -/
theorem receive_conserves (lawful : channel.Implements queue)
    (subscription : Subscription Chan)
    : (subscription.receive channel).received
          ++ (queue (subscription.receive channel).channel).buffered
        = subscription.received ++ (queue subscription.channel).buffered
      ∧ (queue (subscription.receive channel).channel).sending
        = (queue subscription.channel).sending := by
  obtain ⟨state, result⟩ := lawful.recv subscription.channel
  obtain ⟨conserved, sending⟩ := (queue subscription.channel).recv_conserves
  have taken : (subscription.receive channel).received
      = subscription.received ++ (queue subscription.channel).recv.2.item?.toList := by
    simp only [receive, received, List.filterMap_append, List.filterMap_cons,
      List.filterMap_nil, result]
    cases (queue subscription.channel).recv.2 <;> rfl
  constructor
  · rw [taken, List.append_assoc, receive, state, conserved]
  · rw [receive, state, sending]

theorem offer_of_accepted {frame : SourcedFrame}
    (accepted : (channel.trySend subscription.channel frame).2 = .ok)
    : subscription.offer channel frame
      = if frame.frame.endsSession then
          ({
            subscription with
            channel := channel.dropSender (channel.trySend subscription.channel frame).1
          }, false)
        else
          ({ subscription with channel := (channel.trySend subscription.channel frame).1 },
            true) := by
  have shape : channel.trySend subscription.channel frame
      = ((channel.trySend subscription.channel frame).1, .ok) := Prod.ext rfl accepted
  rw [offer, shape]

theorem offer_of_refused {frame : SourcedFrame}
    (refused : (channel.trySend subscription.channel frame).2 ≠ .ok)
    : subscription.offer channel frame
      = ({
          subscription with
          channel := channel.dropSender (channel.trySend subscription.channel frame).1
        }, false) := by
  unfold offer
  split
  · rename_i next accepted
    exact absurd (by rw [accepted]) refused
  · rename_i next other _ sent
    rw [sent]

/-- A follower takes the frame and stays, takes the end of its session and leaves, or refuses
the frame and leaves; who leaves has no sender.
-/
theorem offer_cases (lawful : channel.Implements queue) (frame : SourcedFrame)
    (subscription : Subscription Chan)
    : ∃ next,
        (subscription.offer channel frame).1 = { subscription with channel := next }
        ∧ ((subscription.offer channel frame).2 = true
            ∧ frame.frame.endsSession = false
            ∧ (queue next).buffered = (queue subscription.channel).buffered ++ [frame]
          ∨ (subscription.offer channel frame).2 = false
            ∧ (queue next).sending = false
            ∧ ((queue next).buffered = (queue subscription.channel).buffered ++ [frame]
              ∨ (queue next).buffered = (queue subscription.channel).buffered)) := by
  obtain ⟨state, result⟩ := lawful.trySend subscription.channel frame
  rcases (queue subscription.channel).trySend_cases frame with accepted | ⟨same, refused⟩
  · rw [accepted] at state result
    rw [offer_of_accepted result]
    cases frame.frame.endsSession with
    | true =>
        refine ⟨_, rfl, Or.inr ⟨rfl, ?_, Or.inl ?_⟩⟩
        · rw [lawful.dropSender]
        · rw [lawful.dropSender, state]
    | false =>
        refine ⟨_, rfl, Or.inl ⟨rfl, rfl, ?_⟩⟩
        rw [state]
  · rw [same] at state
    rw [← result] at refused
    rw [offer_of_refused refused]
    refine ⟨_, rfl, Or.inr ⟨rfl, ?_, Or.inr ?_⟩⟩
    · rw [lawful.dropSender]
    · rw [lawful.dropSender, state]

end Subscription

------------------------------------------------------------------------------------------
-- What each event leaves of a subscription
------------------------------------------------------------------------------------------

namespace StreamFits

variable {channel : BoundedChannel Chan SourcedFrame} {queue : Chan → Queue SourcedFrame}
  {source : FrameSource}

/-- A subscription just opened holds its reset. -/
theorem opening (lawful : channel.Implements queue) {capacity : Nat}
    {opened : Subscription Chan}
    (h : Subscription.opening channel source capacity = some opened)
    : StreamFits queue source (true, opened) := by
  have room : 0 < max capacity 1 := by omega
  have sent := (lawful.trySend (channel.create (max capacity 1)) { source, frame := .reset }).1
  rw [lawful.create _ room, Queue.trySend_create room] at sent
  unfold Subscription.opening at h
  split at h
  · rename_i next accepted
    rw [accepted] at sent
    cases h
    exact {
      own := rfl
      received := List.nil_prefix
      endsLast := by simp [EndsLast, Subscription.received]
      running := by simp [Subscription.stream, PoolFrame.endsSession]
      complete := by
        intro _ _
        rw [sent]
        rfl
      cut := by simp
      behind := by simp
    }
  · cases h

/-- A subscription that nobody follows any more only sees its stream grow. -/
theorem note {subscription : Subscription Chan}
    (h : StreamFits queue source (false, subscription)) (frame : PoolFrame)
    : StreamFits queue source (false, subscription.note frame) where
  own := h.own
  received := by
    rw [Subscription.stream_note]
    exact h.received.trans (List.prefix_append _ _)
  endsLast := h.endsLast
  running := by simp
  complete := by simp
  cut := h.cut
  behind := by
    intro unfollowed held
    obtain ⟨within, ends⟩ := h.behind unfollowed held
    rw [Subscription.stream_note]
    exact ⟨within.trans (List.prefix_append _ _), ends⟩

/-- A publication completes the stream of a follower that takes it, and cuts off one that does
not or whose session ended.
-/
theorem deliver (lawful : channel.Implements queue) {stream : Bool × Subscription Chan}
    (h : StreamFits queue source stream) (frame : PoolFrame)
    : StreamFits queue source (SessionView.deliver channel { source, frame } stream) := by
  obtain ⟨followed, subscription⟩ := stream
  cases followed with
  | false => exact h.note frame
  | true =>
      have own : subscription.source = source := h.own
      have openSoFar : ∀ item ∈ subscription.stream, item.frame.endsSession = false :=
        h.running rfl
      have complete (held : subscription.held = true)
          : subscription.received ++ (queue subscription.channel).buffered
            = subscription.stream :=
        h.complete rfl held
      have grown : (subscription.note frame).stream
          = subscription.stream ++ [SourcedFrame.mk source frame] := by
        rw [Subscription.stream_note, own]
      have within : subscription.received <+: (subscription.note frame).stream := by
        rw [grown]
        exact h.received.trans (List.prefix_append _ _)
      obtain ⟨next, offered, taken | gone⟩ :=
        Subscription.offer_cases lawful { source, frame } (subscription.note frame)
      · obtain ⟨stays, goesOn, buffered⟩ := taken
        simp only [SessionView.deliver, if_true, offered, stays]
        exact {
          own := own
          received := within
          endsLast := h.endsLast
          running := by
            intro _ item member
            rcases List.mem_append.mp (grown ▸ member) with earlier | new
            · exact openSoFar item earlier
            · rw [List.mem_singleton.mp new]
              exact goesOn
          complete := by
            intro _ held
            change subscription.received ++ (queue next).buffered = (subscription.note frame).stream
            rw [buffered, grown, ← complete held, List.append_assoc]
            rfl
          cut := by simp
          behind := by simp
        }
      · obtain ⟨leaves, cut, buffered⟩ := gone
        simp only [SessionView.deliver, if_true, offered, leaves]
        exact {
          own := own
          received := within
          endsLast := h.endsLast
          running := by simp
          complete := by simp
          cut := fun _ => cut
          behind := by
            intro _ held
            change subscription.received ++ (queue next).buffered
                <+: (subscription.note frame).stream
              ∧ EndsLast (subscription.received ++ (queue next).buffered)
            rcases buffered with last | refused
            · have whole : subscription.received ++ (queue next).buffered
                  = subscription.stream ++ [SourcedFrame.mk source frame] := by
                rw [last, ← complete held, List.append_assoc]
                rfl
              rw [whole, grown]
              exact ⟨List.prefix_rfl, endsLast_concat openSoFar _⟩
            · have short : subscription.received ++ (queue next).buffered
                  = subscription.stream := by
                rw [refused, ← complete held]
                rfl
              rw [short, grown]
              exact ⟨List.prefix_append _ _, endsLast_of_running openSoFar⟩
        }

/-- What was received and what waits is within the stream, with the end in the last place. -/
theorem waiting {stream : Bool × Subscription Chan} (h : StreamFits queue source stream)
    (held : stream.2.held = true)
    : stream.2.received ++ (queue stream.2.channel).buffered <+: stream.2.stream
      ∧ EndsLast (stream.2.received ++ (queue stream.2.channel).buffered) := by
  cases followed : stream.1 with
  | true =>
      rw [h.complete followed held]
      exact ⟨List.prefix_rfl, endsLast_of_running (h.running followed)⟩
  | false => exact h.behind followed held

/-- A receive takes the next item of what waits. -/
theorem receive (lawful : channel.Implements queue) {stream : Bool × Subscription Chan}
    (h : StreamFits queue source stream) (held : stream.2.held = true)
    : StreamFits queue source (stream.1, stream.2.receive channel) := by
  obtain ⟨conserved, sending⟩ := Subscription.receive_conserves lawful stream.2
  obtain ⟨within, ends⟩ := h.waiting held
  rw [← conserved] at within ends
  exact {
    own := h.own
    received := (List.prefix_append _ _).trans within
    endsLast := ends.of_prefix (List.prefix_append _ _)
    running := h.running
    complete := fun followed _ => conserved.trans (h.complete followed held)
    cut := fun unfollowed => sending.trans (h.cut unfollowed)
    behind := fun _ _ => ⟨within, ends⟩
  }

/-- A subscriber that drops its half receives nothing more. -/
theorem discard (lawful : channel.Implements queue) {stream : Bool × Subscription Chan}
    (h : StreamFits queue source stream)
    : StreamFits queue source (stream.1, stream.2.discard channel) where
  own := h.own
  received := h.received
  endsLast := h.endsLast
  running := h.running
  complete := by simp [Subscription.discard]
  cut := by
    intro unfollowed
    simp only [Subscription.discard, lawful.dropReceiver]
    exact h.cut unfollowed
  behind := by simp [Subscription.discard]

end StreamFits

/-- Every subscription of a session fits, whatever the session's events. -/
def StreamsFit (queue : Chan → Queue SourcedFrame) (source : FrameSource)
    (view : SessionView Chan)
    : Prop :=
  ∀ stream ∈ view.streams, StreamFits queue source stream

namespace StreamsFit

variable {channel : BoundedChannel Chan SourcedFrame} {queue : Chan → Queue SourcedFrame}
  {source : FrameSource} {view next : SessionView Chan}

theorem act (fits : StreamsFit queue source view) {number : Nat}
    (f : Subscription Chan → Subscription Chan)
    (kept
      : ∀ stream, StreamFits queue source stream → stream.2.held = true
          → StreamFits queue source (stream.1, f stream.2))
    (acted : view.act number f = some next)
    : StreamsFit queue source next := by
  unfold SessionView.act at acted
  split at acted
  · rename_i followed subscription found
    split at acted
    · rename_i held
      cases acted
      intro stream member
      obtain ⟨position, present⟩ := List.getElem?_of_mem member
      simp only [List.getElem?_modify, Option.map_eq_map, Option.map_eq_some_iff] at present
      obtain ⟨before, listed, rfl⟩ := present
      have fit := fits before (List.mem_of_getElem? listed)
      split
      · rename_i same
        subst same
        rw [found] at listed
        cases listed
        exact kept _ fit held
      · exact fit
    · cases acted
  · cases acted

/-- Every step of a session keeps its subscriptions fitting, by the kinds of event. -/
theorem step (lawful : channel.Implements queue) {event : FanoutEvent}
    (fits : StreamsFit queue source view)
    (stepped : view.step channel source event = some next)
    : StreamsFit queue source next := by
  cases event with
  | allocate address =>
      cases stepped
      exact fits
  | register opened =>
      cases stepped
      exact fits
  | publish published frame =>
      simp only [SessionView.step] at stepped
      split at stepped
      · cases stepped
        intro stream member
        obtain ⟨before, listed, rfl⟩ := List.mem_map.mp member
        exact (fits before listed).deliver lawful frame
      · cases stepped
  | subscribe followed capacity =>
      cases stepped
      unfold SessionView.subscribe
      split
      · split
        · rename_i opened hopened
          intro stream member
          rcases List.mem_append.mp member with earlier | new
          · exact fits stream earlier
          · rw [List.mem_singleton.mp new]
            exact StreamFits.opening lawful hopened
        · exact fits
      · exact fits
  | recv followed number =>
      exact fits.act (Subscription.receive channel) (fun _ fit held => fit.receive lawful held)
        stepped
  | drop followed number =>
      exact fits.act (Subscription.discard channel) (fun _ fit _ => fit.discard lawful) stepped

end StreamsFit

/-- A subscription that fits is in step: its channel yields what waits, and then the end unless
it is complete.
-/
theorem StreamFits.inStep {channel : BoundedChannel Chan SourcedFrame}
    {queue : Chan → Queue SourcedFrame} {source : FrameSource}
    {stream : Bool × Subscription Chan} (lawful : channel.Implements queue)
    (h : StreamFits queue source stream)
    : stream.2.InStep channel where
  inOrder := h.received
  endsLast := h.endsLast
  gapEnds := by
    intro held
    refine ⟨_, _, lawful.yields stream.2.channel, (h.waiting held).1, ?_⟩
    cases followed : stream.1 with
    | true => exact Or.inl (h.complete followed held)
    | false =>
        right
        rw [h.cut followed]
        rfl

/-- Over any channel that is a bounded queue, in every run of the fan-out, every subscription
has received a gapless prefix of its stream, the end of the session only in the last place, and
once it missed a frame its stream ends.
-/
theorem subscriptions_are_in_step {channel : BoundedChannel Chan SourcedFrame}
    {queue : Chan → Queue SourcedFrame} (lawful : channel.Implements queue)
    {events : List FanoutEvent} {final : FanoutState Chan}
    (reached : (fanout channel).run events = some final)
    : ∀ item ∈ final.subscriptions, item.2.InStep channel := by
  intro item member
  have seen := (fanout_projects channel item.2.source).run reached
  have start : StreamsFit queue item.2.source (session channel item.2.source).initial := by
    intro stream absent
    cases absent
  have fits : StreamsFit queue item.2.source (final.view item.2.source) :=
    Machine.reachable_invariant start (fun fits stepped => StreamsFit.step lawful fits stepped) seen
  have listed : (decide (item.1 ∈ final.followers item.2.source), item.2)
      ∈ (final.view item.2.source).streams :=
    List.mem_map.mpr ⟨item, FanoutState.mem_on.mpr ⟨member, rfl⟩, rfl⟩
  exact (fits _ listed).inStep lawful

/-- A subscriber with room for one frame reads its reset and falls behind by a frame. -/
def laggingEvents : List FanoutEvent :=
  let followed := sampleSource 1
  [.register followed, .subscribe followed 1, .recv followed 0,
    .publish followed (.peak 7 0), .publish followed (.peak 8 0), .publish followed (.peak 9 0),
    .recv followed 0, .recv followed 0]

theorem subscriptions_are_in_step_sample
    : ∃ final, (fanout Queue.channel).run laggingEvents = some final
        ∧ final.subscriptions.map (fun item => item.2.received.map SourcedFrame.frame)
          = [[.reset, .peak 7 0]]
        ∧ ∀ item ∈ final.subscriptions, item.2.InStep Queue.channel :=
  have inStep {final : FanoutState (Queue SourcedFrame)}
      (reached : (fanout Queue.channel).run laggingEvents = some final) :=
    subscriptions_are_in_step BoundedChannel.implements_queue reached
  ⟨_, rfl, rfl, inStep rfl⟩

end ChiaQuery
