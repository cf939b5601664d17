import ChiaQuery.Library.DistinctKeys
import ChiaQuery.Library.Projection
import ChiaQuery.Peer.Fanout

/-! One session's stream alone: whether the session is live, and the subscriptions on it, each
with its channel and whether its sender is still in the map. The fan-out is such a stream for
every session, and no event of one session reaches the stream of another.
-/

namespace ChiaQuery

open ChiaQuery.Library

variable {Chan : Type}

/-- What there is of one session in the fan-out. A subscription is marked while it is followed,
that is while its sender is in the map.
-/
structure SessionView (Chan : Type) where
  opened : Bool
  registered : Bool
  streams : List (Bool × Subscription Chan)

namespace SessionView

variable (channel : BoundedChannel Chan SourcedFrame)

/-- A publication for one subscription of its session. -/
def deliver (frame : SourcedFrame) (stream : Bool × Subscription Chan)
    : Bool × Subscription Chan :=
  let noted := stream.2.note frame.frame
  if stream.1 then ((noted.offer channel frame).2, (noted.offer channel frame).1)
  else (false, noted)

def act (view : SessionView Chan) (number : Nat) (f : Subscription Chan → Subscription Chan)
    : Option (SessionView Chan) :=
  match view.streams[number]? with
  | some (_, subscription) =>
      if subscription.held then
        some { view with
          streams := view.streams.modify number (fun stream => (stream.1, f stream.2)) }
      else none
  | none => none

def subscribe (source : FrameSource) (view : SessionView Chan) (capacity : Nat)
    : SessionView Chan :=
  if view.registered then
    match Subscription.opening channel source capacity with
    | some opened => { view with streams := view.streams ++ [(true, opened)] }
    | none => view
  else view

/-- One step of the session. -/
def step (source : FrameSource) (view : SessionView Chan)
    : FanoutEvent → Option (SessionView Chan)
  | .allocate _ => some view
  | .register _ => some { view with opened := true, registered := true }
  | .publish _ frame =>
      if view.opened then
        some { view with
          registered := view.registered && !frame.endsSession,
          streams := view.streams.map (deliver channel { source, frame }) }
      else none
  | .subscribe _ capacity => some (view.subscribe channel source capacity)
  | .recv _ number => view.act number (Subscription.receive channel)
  | .drop _ number => view.act number (Subscription.discard channel)

end SessionView

/-- One session alone, before it is opened. -/
def session (channel : BoundedChannel Chan SourcedFrame) (source : FrameSource)
    : Machine (SessionView Chan) FanoutEvent where
  initial := { opened := false, registered := false, streams := [] }
  step := SessionView.step channel source

/-- What the fan-out holds of one session. -/
def FanoutState.view (state : FanoutState Chan) (source : FrameSource) : SessionView Chan where
  opened := source ∈ state.opened
  registered := (state.subscribers source).isSome
  streams := (state.on source).map (fun item =>
    (decide (item.1 ∈ state.followers source), item.2))

/-- The events that operate on a session. -/
def FanoutEvent.concerns (source : FrameSource) (event : FanoutEvent) : Bool :=
  event.source? = some source

/-- Subscriptions are numbered as they are opened, and a session's senders are those of
subscriptions opened on it.
-/
structure FanoutKeyed (state : FanoutState Chan) : Prop where
  numbered : state.subscriptions.map Prod.fst = List.range state.subscriptions.length
  known : ∀ source, ∀ number ∈ state.followers source, number < state.subscriptions.length
  own : ∀ source, ∀ number ∈ state.followers source, ∀ item ∈ state.subscriptions,
    item.1 = number → item.2.source = source

------------------------------------------------------------------------------------------
-- What the operations leave of a subscription
------------------------------------------------------------------------------------------

namespace Subscription

variable {channel : BoundedChannel Chan SourcedFrame} {subscription : Subscription Chan}

theorem offer_source (frame : SourcedFrame)
    : (subscription.offer channel frame).1.source = subscription.source := by
  unfold offer
  split
  · split <;> rfl
  · rfl

/-- Whether a follower stays does not depend on what is recorded about it. -/
theorem offer_note_retained (frame : SourcedFrame) (noted : PoolFrame)
    : ((subscription.note noted).offer channel frame).2
      = (subscription.offer channel frame).2 := by
  simp only [offer, note]
  split
  · split <;> rfl
  · rfl

/-- No sender outlasts the end of its session. -/
theorem offer_end (frame : SourcedFrame) (ends : frame.frame.endsSession = true)
    : (subscription.offer channel frame).2 = false := by
  simp only [offer, ends]
  split <;> rfl

theorem opening_source {source : FrameSource} {capacity : Nat} {opened : Subscription Chan}
    (h : opening channel source capacity = some opened)
    : opened.source = source := by
  unfold opening at h
  split at h
  · cases h
    rfl
  · cases h

end Subscription

namespace FanoutState

variable {channel : BoundedChannel Chan SourcedFrame} {state next : FanoutState Chan}
  {source other : FrameSource}

/-- Changes of subscriptions that keep their sources commute with looking at one source. -/
theorem on_map {change : Nat × Subscription Chan → Nat × Subscription Chan}
    (sameSource : ∀ item, (change item).2.source = item.2.source)
    : ((state.subscriptions.map change).filter (fun item => item.2.source = source))
      = (state.on source).map change := by
  rw [List.filter_map, on]
  congr 2
  funext item
  simp [sameSource]

theorem mem_on {item : Nat × Subscription Chan}
    : item ∈ state.on source ↔ item ∈ state.subscriptions ∧ item.2.source = source := by
  simp [on]

/-- A subscriber acts on one subscription of the session, which it still holds. -/
theorem act_inv {number : Nat} {f : Subscription Chan → Subscription Chan}
    (acted : state.act source number f = some next)
    : ∃ id subscription,
        (state.on source)[number]? = some (id, subscription)
        ∧ subscription.held = true
        ∧ next = state.change id f := by
  unfold act at acted
  split at acted
  · rename_i id subscription found
    split at acted
    · rename_i held
      exact ⟨id, subscription, found, held, (Option.some.inj acted).symm⟩
    · cases acted
  · cases acted

/-- What a publication does to one subscription of the fan-out. -/
def publishChange (channel : BoundedChannel Chan SourcedFrame) (state : FanoutState Chan)
    (source : FrameSource) (frame : PoolFrame) (item : Nat × Subscription Chan)
    : Nat × Subscription Chan :=
  let noted := if item.2.source = source then (item.1, item.2.note frame) else item
  if item.1 ∈ state.followers source then
    (noted.1, (noted.2.offer channel { source, frame }).1)
  else noted

theorem publishChange_number (frame : PoolFrame) (item : Nat × Subscription Chan)
    : (publishChange channel state source frame item).1 = item.1 := by
  unfold publishChange
  split <;> split <;> rfl

theorem publishChange_source (frame : PoolFrame) (item : Nat × Subscription Chan)
    : (publishChange channel state source frame item).2.source = item.2.source := by
  unfold publishChange
  split <;> split <;> simp [Subscription.offer_source, Subscription.note]

theorem publish_subscriptions (frame : PoolFrame)
    : (state.publish channel source frame).subscriptions
      = state.subscriptions.map (publishChange channel state source frame) := by
  unfold publish
  split
  · rename_i unregistered
    apply List.map_congr_left
    intro item _
    simp [publishChange, followers, unregistered]
  · rename_i followers registered
    dsimp only
    rw [List.map_map]
    apply List.map_congr_left
    intro item _
    simp only [Function.comp_apply, publishChange, FanoutState.followers, registered,
      Option.getD_some]
    split <;> rfl

theorem publish_opened (frame : PoolFrame)
    : (state.publish channel source frame).opened = state.opened := by
  unfold publish
  split <;> rfl

theorem publish_followers_other (frame : PoolFrame) (apart : other ≠ source)
    : (state.publish channel source frame).subscribers other = state.subscribers other := by
  unfold publish
  split
  · rfl
  · simp [Function.update_of_ne apart]

theorem publish_registered (frame : PoolFrame)
    : ((state.publish channel source frame).subscribers source).isSome
      = ((state.subscribers source).isSome && !frame.endsSession) := by
  unfold publish
  split
  · rename_i unregistered
    simp [unregistered]
  · rename_i followers registered
    simp only [Function.update_self, registered, Option.isSome_some, Bool.true_and]
    cases frame.endsSession <;> rfl

/-- Who still follows a session after a publication: the followers that were offered the frame
and retained.
-/
theorem mem_publish_followers (frame : PoolFrame) {number : Nat}
    : number ∈ (state.publish channel source frame).followers source
      ↔ frame.endsSession = false
        ∧ number ∈ state.followers source
        ∧ ∃ subscription, (number, subscription) ∈ state.subscriptions
            ∧ (subscription.offer channel { source, frame }).2 = true := by
  unfold publish
  split
  · rename_i unregistered
    simp [followers, unregistered]
  · rename_i followers registered
    simp only [FanoutState.followers, Function.update_self, registered, Option.getD_some]
    cases hends : frame.endsSession with
    | true => simp
    | false => simp [List.mem_filter]

end FanoutState

------------------------------------------------------------------------------------------
-- Numbers and sources stay in step
------------------------------------------------------------------------------------------

namespace FanoutKeyed

variable {channel : BoundedChannel Chan SourcedFrame} {state next : FanoutState Chan}

theorem numbers_nodup (keyed : FanoutKeyed state)
    : (state.subscriptions.map Prod.fst).Nodup := by
  rw [keyed.numbered]
  exact List.nodup_range

theorem number_lt (keyed : FanoutKeyed state) {item : Nat × Subscription Chan}
    (member : item ∈ state.subscriptions)
    : item.1 < state.subscriptions.length := by
  have listed : item.1 ∈ state.subscriptions.map Prod.fst := List.mem_map_of_mem member
  rw [keyed.numbered] at listed
  exact List.mem_range.mp listed

/-- A step that changes subscriptions in place and adds no follower keeps them in step. -/
theorem narrow (keyed : FanoutKeyed state)
    (change : Nat × Subscription Chan → Nat × Subscription Chan)
    (sameNumber : ∀ item, (change item).1 = item.1)
    (sameSource : ∀ item, (change item).2.source = item.2.source)
    (changed : next.subscriptions = state.subscriptions.map change)
    (fewer : ∀ source, ∀ number ∈ next.followers source, number ∈ state.followers source)
    : FanoutKeyed next where
  numbered := by
    rw [changed, List.map_map, List.length_map, ← keyed.numbered]
    apply List.map_congr_left
    intro item _
    exact sameNumber item
  known := by
    intro source number member
    rw [changed, List.length_map]
    exact keyed.known source number (fewer source number member)
  own := by
    intro source number member item present same
    rw [changed] at present
    obtain ⟨before, held, rfl⟩ := List.mem_map.mp present
    rw [sameSource]
    exact keyed.own source number (fewer source number member) before held
      ((sameNumber before).symm.trans same)

theorem act (keyed : FanoutKeyed state) {source : FrameSource} {number : Nat}
    (f : Subscription Chan → Subscription Chan) (sameSource : ∀ s, (f s).source = s.source)
    (acted : state.act source number f = some next)
    : FanoutKeyed next := by
  obtain ⟨id, _, _, _, rfl⟩ := FanoutState.act_inv acted
  refine keyed.narrow (fun item =>
    if item.1 = id then (item.1, f item.2) else item) ?_ ?_ rfl (fun _ _ member => member)
  · intro item
    split <;> rfl
  · intro item
    split
    · exact sameSource item.2
    · rfl

theorem subscribe (keyed : FanoutKeyed state) {source : FrameSource} {capacity : Nat}
    (subscribed : state.subscribe channel source capacity = some next)
    : FanoutKeyed next := by
  unfold FanoutState.subscribe at subscribed
  split at subscribed
  · cases subscribed
  · rename_i followers registered
    obtain ⟨opened, hopened, rfl⟩ := Option.map_eq_some_iff.mp subscribed
    have following : state.followers source = followers := by
      simp [FanoutState.followers, registered]
    have after : ∀ other, ∀ number,
        number ∈ ({ state with
          subscribers := Function.update state.subscribers source
            (some (followers ++ [state.subscriptions.length])),
          subscriptions := state.subscriptions ++ [(state.subscriptions.length, opened)]
          } : FanoutState Chan).followers other
        → number ∈ state.followers other
          ∨ other = source ∧ number = state.subscriptions.length := by
      intro other number member
      by_cases same : other = source
      · subst same
        simp only [FanoutState.followers, Function.update_self, Option.getD_some,
          List.mem_append, List.mem_singleton] at member
        rw [following]
        exact member.imp_right (fun new => ⟨rfl, new⟩)
      · simp only [FanoutState.followers, Function.update_of_ne same] at member
        exact Or.inl member
    constructor
    · simp [keyed.numbered, List.range_succ]
    · intro other number member
      rcases after other number member with before | ⟨-, new⟩
      · have bound := keyed.known other number before
        simp only [List.length_append, List.length_singleton]
        omega
      · simp [new]
    · intro other number member item present same
      rcases List.mem_append.mp present with held | new
      · rcases after other number member with before | ⟨-, fresh⟩
        · exact keyed.own other number before item held same
        · have bound := keyed.number_lt held
          omega
      · have shape : item = (state.subscriptions.length, opened) := List.mem_singleton.mp new
        subst shape
        rcases after other number member with before | ⟨rfl, -⟩
        · have bound := keyed.known other number before
          dsimp only at same
          omega
        · exact Subscription.opening_source hopened

theorem register (keyed : FanoutKeyed state) (source : FrameSource)
    : FanoutKeyed (state.register source) := by
  refine keyed.narrow id (fun _ => rfl) (fun _ => rfl) (List.map_id _).symm ?_
  intro other number member
  by_cases same : other = source
  · subst same
    simpa [FanoutState.register, FanoutState.followers] using member
  · simpa [FanoutState.register, FanoutState.followers, Function.update_of_ne same] using member

theorem publish (keyed : FanoutKeyed state) (source : FrameSource) (frame : PoolFrame)
    : FanoutKeyed (state.publish channel source frame) := by
  refine keyed.narrow _ (FanoutState.publishChange_number frame)
    (FanoutState.publishChange_source frame) (FanoutState.publish_subscriptions frame) ?_
  intro other number member
  by_cases same : other = source
  · subst same
    exact ((FanoutState.mem_publish_followers frame).mp member).2.1
  · simpa [FanoutState.followers, FanoutState.publish_followers_other frame same] using member

/-- Every step keeps numbers and sources in step. -/
theorem step {event : FanoutEvent} (keyed : FanoutKeyed state)
    (stepped : state.step channel event = some next)
    : FanoutKeyed next := by
  cases event with
  | allocate address =>
      cases stepped
      exact ⟨keyed.numbered, keyed.known, keyed.own⟩
  | register source =>
      cases stepped
      exact keyed.register source
  | publish source frame =>
      simp only [FanoutState.step] at stepped
      split at stepped
      · cases stepped
        exact keyed.publish source frame
      · cases stepped
  | subscribe source capacity =>
      cases stepped
      cases subscribed : state.subscribe channel source capacity with
      | none => simpa [subscribed] using keyed
      | some grown => simpa [subscribed] using keyed.subscribe subscribed
  | recv source number => exact keyed.act (Subscription.receive channel) (fun _ => rfl) stepped
  | drop source number => exact keyed.act (Subscription.discard channel) (fun _ => rfl) stepped

end FanoutKeyed

------------------------------------------------------------------------------------------
-- Each event acts on the view of its own session, and on no other
------------------------------------------------------------------------------------------

namespace FanoutState

variable {channel : BoundedChannel Chan SourcedFrame} {state next : FanoutState Chan}
  {source other : FrameSource}

/-- Views are equal when the session's state, its senders and its subscriptions are. -/
theorem view_congr (sameOpened : source ∈ next.opened ↔ source ∈ state.opened)
    (sameSenders : next.subscribers source = state.subscribers source)
    (sameStreams : next.on source = state.on source)
    : next.view source = state.view source := by
  have opened : decide (source ∈ next.opened) = decide (source ∈ state.opened) :=
    decide_eq_decide.mpr sameOpened
  unfold view followers
  rw [sameSenders, sameStreams, opened]

theorem view_register (state : FanoutState Chan) (source : FrameSource)
    : (state.register source).view source
      = { state.view source with opened := true, registered := true } := by
  have senders : (state.register source).followers source = state.followers source := by
    simp [register, followers]
  have streams : (state.register source).on source = state.on source := rfl
  unfold view
  rw [senders, streams]
  simp [register]

theorem view_register_other (apart : other ≠ source)
    : (state.register source).view other = state.view other := by
  refine view_congr ?_ ?_ rfl
  · simp [register, apart]
  · simp [register, Function.update_of_ne apart]

/-- A publication delivers to every subscription of its session, followed or not. -/
theorem view_publish (keyed : FanoutKeyed state) (frame : PoolFrame)
    : (state.publish channel source frame).view source
      = { state.view source with
          registered := (state.view source).registered && !frame.endsSession,
          streams := (state.view source).streams.map
            (SessionView.deliver channel { source, frame }) } := by
  have streams : (state.publish channel source frame).on source
      = (state.on source).map (publishChange channel state source frame) := by
    rw [on, publish_subscriptions]
    exact on_map (publishChange_source frame)
  simp only [view, publish_opened, publish_registered, streams, List.map_map]
  congr 1
  apply List.map_congr_left
  intro item member
  obtain ⟨held, same⟩ := mem_on.mp member
  simp only [Function.comp_apply, publishChange_number, SessionView.deliver]
  have retained : item.1 ∈ (state.publish channel source frame).followers source
      ↔ item.1 ∈ state.followers source
        ∧ ((item.2.note frame).offer channel { source, frame }).2 = true := by
    rw [mem_publish_followers, Subscription.offer_note_retained]
    constructor
    · intro kept
      obtain ⟨-, follows, subscription, present, stays⟩ := kept
      have one : (item.1, subscription) = item :=
        List.inj_on_of_nodup_map keyed.numbers_nodup present held rfl
      rw [← one]
      exact ⟨follows, stays⟩
    · intro kept
      obtain ⟨follows, stays⟩ := kept
      refine ⟨?_, follows, item.2, held, stays⟩
      by_contra ends
      have gone : (item.2.offer channel { source, frame }).2 = false :=
        Subscription.offer_end { source, frame } (by simpa using ends)
      rw [gone] at stays
      cases stays
  by_cases follows : item.1 ∈ state.followers source
  · have stays : decide (item.1 ∈ (state.publish channel source frame).followers source)
        = ((item.2.note frame).offer channel { source, frame }).2 := by
      rw [Bool.eq_iff_iff, decide_eq_true_eq, retained]
      simp [follows]
    simp [publishChange, same, follows, stays]
  · have stays : item.1 ∉ (state.publish channel source frame).followers source :=
      fun kept => follows (retained.mp kept).1
    simp [publishChange, same, follows, stays]

theorem view_publish_other (keyed : FanoutKeyed state) (frame : PoolFrame)
    (apart : other ≠ source)
    : (state.publish channel source frame).view other = state.view other := by
  refine view_congr ?_ (publish_followers_other frame apart) ?_
  · rw [publish_opened]
  · rw [on, publish_subscriptions, on_map (publishChange_source frame)]
    refine (List.map_congr_left ?_).trans (List.map_id _)
    intro item member
    obtain ⟨held, same⟩ := mem_on.mp member
    have elsewhere : item.2.source ≠ source := same ▸ apart
    have unfollowed : item.1 ∉ state.followers source :=
      fun follows => elsewhere (keyed.own source item.1 follows item held rfl)
    simp [publishChange, elsewhere, unfollowed]

/-- An action on a subscription of the session changes the stream of the same number. -/
theorem view_act (keyed : FanoutKeyed state) {number : Nat}
    (f : Subscription Chan → Subscription Chan) (sameSource : ∀ s, (f s).source = s.source)
    (acted : state.act source number f = some next)
    : (state.view source).act number f = some (next.view source) := by
  obtain ⟨id, subscription, found, held, rfl⟩ := act_inv acted
  have distinct : ((state.on source).map Prod.fst).Nodup :=
    keyed.numbers_nodup.sublist (List.filter_sublist.map _)
  have streams : (state.change id f).on source
      = (state.on source).modify number (fun item => (item.1, f item.2)) := by
    rw [← map_at_key_eq_modify distinct found, on, change]
    apply on_map
    intro item
    split
    · exact sameSource item.2
    · rfl
  have stream : (state.view source).streams[number]?
      = some (decide (id ∈ state.followers source), subscription) := by
    simp [view, found]
  simp only [SessionView.act, stream, held, if_true]
  congr 1
  simp only [view, streams]
  congr 1
  apply List.ext_getElem?
  intro position
  simp only [List.getElem?_map, List.getElem?_modify]
  cases (state.on source)[position]? with
  | none => rfl
  | some item =>
      by_cases here : number = position
      · simp only [here, if_true, Option.map_some]
        rfl
      · simp only [here, if_false, Option.map_some]
        rfl

theorem view_act_other (keyed : FanoutKeyed state) {number : Nat}
    (f : Subscription Chan → Subscription Chan) (sameSource : ∀ s, (f s).source = s.source)
    (acted : state.act source number f = some next) (apart : other ≠ source)
    : next.view other = state.view other := by
  obtain ⟨id, subscription, found, -, rfl⟩ := act_inv acted
  obtain ⟨present, at_source⟩ := mem_on.mp (List.mem_of_getElem? found)
  refine view_congr Iff.rfl rfl ?_
  rw [on, change, on_map]
  · refine (List.map_congr_left ?_).trans (List.map_id _)
    intro item member
    obtain ⟨held, same⟩ := mem_on.mp member
    have elsewhere : item.1 ≠ id := by
      intro sameNumber
      have one : item = (id, subscription) :=
        List.inj_on_of_nodup_map keyed.numbers_nodup held present sameNumber
      rw [one] at same
      exact apart (same.symm.trans at_source)
    simp [elsewhere]
  · intro item
    split
    · exact sameSource item.2
    · rfl

/-- A subscription joins the stream of its session, while the session is live. -/
theorem view_subscribe (keyed : FanoutKeyed state) (capacity : Nat)
    : ((state.subscribe channel source capacity).getD state).view source
      = (state.view source).subscribe channel source capacity := by
  cases senders : state.subscribers source with
  | none => simp [subscribe, senders, SessionView.subscribe, view]
  | some followers =>
      have registered : (state.view source).registered = true := by simp [view, senders]
      cases hopened : Subscription.opening channel source capacity with
      | none => simp [subscribe, senders, SessionView.subscribe, hopened]
      | some opened =>
          have sameSource := Subscription.opening_source hopened
          have grown : (state.subscriptions ++ [(state.subscriptions.length, opened)]).filter
                (fun item => item.2.source = source)
              = state.on source ++ [(state.subscriptions.length, opened)] := by
            simp [on, List.filter_append, sameSource]
          -- No earlier subscription has the new number, so none is newly followed.
          have earlier
              : (state.on source).map (fun item =>
                  (decide (item.1 ∈ followers ++ [state.subscriptions.length]), item.2))
                = (state.on source).map (fun item =>
                  (decide (item.1 ∈ followers), item.2)) := by
            apply List.map_congr_left
            intro item member
            have older : item.1 ≠ state.subscriptions.length := by
              have bound := keyed.number_lt (mem_on.mp member).1
              omega
            simp [older]
          simp only [subscribe, senders, hopened, Option.map_some, Option.getD_some,
            SessionView.subscribe, registered, if_true]
          simp only [view, on, FanoutState.followers, senders, grown, Function.update_self,
            Option.getD_some, Option.isSome_some, List.map_append]
          rw [← on, earlier]
          simp

theorem view_subscribe_other (capacity : Nat) (apart : other ≠ source)
    : ((state.subscribe channel source capacity).getD state).view other = state.view other := by
  cases senders : state.subscribers source with
  | none => simp [subscribe, senders]
  | some followers =>
      cases hopened : Subscription.opening channel source capacity with
      | none => simp [subscribe, senders, hopened]
      | some opened =>
          have sameSource := Subscription.opening_source hopened
          simp only [subscribe, senders, hopened, Option.map_some, Option.getD_some]
          refine view_congr Iff.rfl (Function.update_of_ne apart _ _) ?_
          simp [on, List.filter_append, sameSource, Ne.symm apart]

/-- An event of a session acts on the session's view as on the session alone. -/
theorem view_acts {event : FanoutEvent} (keyed : FanoutKeyed state)
    (concerned : event.concerns source = true)
    (stepped : state.step channel event = some next)
    : (state.view source).step channel source event = some (next.view source) := by
  have named : event.source? = some source := by simpa [FanoutEvent.concerns] using concerned
  cases event with
  | allocate address => cases named
  | register opened =>
      cases named
      cases stepped
      rw [view_register]
      rfl
  | publish published frame =>
      cases named
      simp only [step] at stepped
      split at stepped
      · rename_i live
        cases stepped
        have opened : (state.view source).opened = true := by simpa [view] using live
        rw [view_publish keyed]
        exact if_pos opened
      · cases stepped
  | subscribe followed capacity =>
      cases named
      cases stepped
      rw [view_subscribe keyed]
      rfl
  | recv followed number =>
      cases named
      exact view_act keyed (Subscription.receive channel) (fun _ => rfl) stepped
  | drop followed number =>
      cases named
      exact view_act keyed (Subscription.discard channel) (fun _ => rfl) stepped

/-- No other event changes the session's view. -/
theorem view_hidden {event : FanoutEvent} (keyed : FanoutKeyed state)
    (unconcerned : event.concerns source = false)
    (stepped : state.step channel event = some next)
    : next.view source = state.view source := by
  have elsewhere : event.source? ≠ some source := by
    simpa [FanoutEvent.concerns] using unconcerned
  have apart : ∀ {other}, event.source? = some other → source ≠ other := by
    intro other named same
    exact elsewhere (same ▸ named)
  cases event with
  | allocate address =>
      cases stepped
      rfl
  | register opened =>
      cases stepped
      exact view_register_other (apart rfl)
  | publish published frame =>
      simp only [step] at stepped
      split at stepped
      · cases stepped
        exact view_publish_other keyed frame (apart rfl)
      · cases stepped
  | subscribe followed capacity =>
      cases stepped
      exact view_subscribe_other capacity (apart rfl)
  | recv followed number =>
      exact view_act_other keyed (Subscription.receive channel) (fun _ => rfl) stepped (apart rfl)
  | drop followed number =>
      exact view_act_other keyed (Subscription.discard channel) (fun _ => rfl) stepped (apart rfl)

end FanoutState

/-- The fan-out projects on every session alone. -/
theorem fanout_projects (channel : BoundedChannel Chan SourcedFrame) (source : FrameSource)
    : (fanout channel).Projects (session channel source) FanoutKeyed
        (fun state => state.view source) (FanoutEvent.concerns source) where
  start := rfl
  initial := ⟨rfl, by simp [fanout, FanoutState.followers], by simp [fanout]⟩
  kept := fun keyed stepped => keyed.step stepped
  acts := fun keyed concerned stepped => FanoutState.view_acts keyed concerned stepped
  hidden := fun keyed unconcerned stepped => FanoutState.view_hidden keyed unconcerned stepped

end ChiaQuery
