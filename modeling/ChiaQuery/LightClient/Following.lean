import ChiaQuery.LightClient.DriveLoop

/-! The drive loop follows its anchor. While a session is pinned, the subscription opened for
it is the newest one the loop holds or has waiting, so a loop that has emptied its channel
follows it, a loop that follows another one has nothing else to do but adopt, and only the
end of that session's own subscription unpins it.
-/

namespace ChiaQuery.LightClient

open ChiaQuery.Library

/-- The steps that may be left of a turn. -/
def DriveTurn.rank : DriveTurn → Nat
  | .select => 0
  | .releasing _ _ => 1
  | .following _ => 2
  | .received _ => 3
  | .polled => 4

/-- After a frame is applied, at most a release is left of the turn. -/
theorem AfterFrame.rank_turn_le (after : AfterFrame) (source : FrameSource)
    : (after.turn source).rank ≤ 1 := by
  cases after <;> simp [turn, DriveTurn.rank]

namespace DriveState

/-- The subscription sent last, unless the loop has dropped it. -/
def newest (state : DriveState) : Option FrameSubscription :=
  state.subscriptions.getLast?.or state.followed

/-- The steps the loop takes, at most, until it has adopted whatever waits now. -/
def backlog (state : DriveState) : Nat :=
  state.subscriptions.length + state.turn.rank

/-- How the loop keeps up with a pinned session. With nothing left to take it follows the
subscription opened for that session, and the end of it unpins that session. On another
subscription it always has a step to take, at the top of its turn only adoption, and each
step it takes lessens the backlog, which no other task adds to. No end of another session
unpins it.
-/
structure KeepsUp (coinId : ProtocolCoin → Bytes32) (state : DriveState)
    (opened : FrameSubscription)
    : Prop where
  follows
    : state.turn = .select → state.subscriptions = [] → state.followed = some opened
  ends
    : state.turn = .select
      → state.subscriptions = []
      → ∃ next, (driving coinId).runFrom state [.poll, .receive none, .release] = some next
          ∧ next.anchor = none
          ∧ next.followed = none
  moves
    : state.followed ≠ some opened
      → ∃ event, event.ofLoop = true ∧ (driveStep coinId state event).isSome = true
  adopts
    : state.followed ≠ some opened
      → state.turn = .select
      → ∀ event next, event.ofLoop = true
        → driveStep coinId state event = some next
        → event = .adopt
  lessens
    : state.followed ≠ some opened
      → ∀ event next, event.ofLoop = true
        → driveStep coinId state event = some next
        → next.backlog < state.backlog
  keeps
    : ∀ event next, event.ofLoop = false
        → driveStep coinId state event = some next
        → next.backlog ≤ state.backlog
  spares
    : ∀ source ended next, state.turn = .releasing source ended
        → driveStep coinId state .release = some next
        → next.anchor = if opened.source = source then none else some opened

end DriveState

------------------------------------------------------------------------------------------
-- The subscription of a pinned session is the newest one
------------------------------------------------------------------------------------------

/-- What the slot, its lock, the channel and the loop agree on in every state. -/
structure AnchorLeads (state : DriveState) : Prop where
  anchor : ∀ opened, state.anchor = some opened → state.newest = some opened
  pinning
    : ∀ opened, state.pinning = some opened
        → state.anchor = none ∧ state.newest = some opened
  busy : state.turn ≠ .select → state.followed.isSome = true
  releasing
    : ∀ source ended, state.turn = .releasing source ended
        → state.followed.any (fun followed => followed.source = source) = true

namespace AnchorLeads

variable {coinId : ProtocolCoin → Bytes32} {state next : DriveState}

/-- While a session is pinned, no call to `anchor` holds the lock. -/
theorem unlocked (h : AnchorLeads state) {opened : FrameSubscription}
    (pinned : state.anchor = some opened)
    : state.pinning = none := by
  cases locked : state.pinning with
  | none => rfl
  | some other =>
      have empty := (h.pinning other locked).1
      rw [pinned] at empty
      cases empty

/-- A step that moves only the turn on, past which nothing is released. -/
theorem turn (h : AnchorLeads state) {turn : DriveTurn}
    (busy : turn ≠ .select → state.followed.isSome = true)
    (releasing
      : ∀ source ended, turn = .releasing source ended
          → state.followed.any (fun followed => followed.source = source) = true)
    : AnchorLeads { state with turn } :=
  ⟨h.anchor, h.pinning, busy, releasing⟩

/-- Unpinning leaves nothing pinned that is not the newest. -/
theorem unpin (h : AnchorLeads state) (keep : FrameSubscription → Bool)
    (unlocked : state.pinning = none)
    : AnchorLeads { state with anchor := state.anchor.filter keep } where
  anchor opened pinned := h.anchor opened (Option.filter_eq_some_iff.mp pinned).1
  pinning opened locked := by
    rw [unlocked] at locked
    cases locked
  busy := h.busy
  releasing := h.releasing

/-- What a call to `anchor` sends is the newest, and nothing is pinned yet. -/
theorem subscribe (h : AnchorLeads state) (unpinned : state.anchor = none)
    (opened : FrameSubscription) (openings : Nat)
    : AnchorLeads
        { state with
          pinning := some opened,
          openings,
          subscriptions := state.subscriptions ++ [opened] } where
  anchor pinned same := by
    have impossible : state.anchor = some pinned := same
    rw [unpinned] at impossible
    cases impossible
  pinning sent locked := by
    cases locked
    exact ⟨unpinned, by simp [DriveState.newest]⟩
  busy := h.busy
  releasing := h.releasing

/-- The call fills the slot with what it sent. -/
theorem pin (h : AnchorLeads state) {opened : FrameSubscription}
    (locked : state.pinning = some opened)
    : AnchorLeads { state with pinning := none, anchor := some opened, spoken := false } where
  anchor pinned same := by
    cases same
    exact (h.pinning opened locked).2
  pinning _ impossible := by cases impossible
  busy := h.busy
  releasing := h.releasing

/-- Adoption moves the oldest subscription waiting into the place of the one followed, so the
newest one stays what it is.
-/
theorem adopt (h : AnchorLeads state) {first : FrameSubscription}
    {rest : List FrameSubscription} (idle : state.turn = .select)
    (waiting : state.subscriptions = first :: rest)
    : AnchorLeads { state with followed := some first, subscriptions := rest } := by
  have same : rest.getLast?.or (some first) = state.newest := by
    rw [DriveState.newest, waiting, List.getLast?_cons, Option.some_or]
    cases rest.getLast? with
    | none => rfl
    | some last => rfl
  refine ⟨fun opened pinned => same.trans (h.anchor opened pinned), ?_, fun _ => rfl, ?_⟩
  · intro opened locked
    exact ⟨(h.pinning opened locked).1, same.trans (h.pinning opened locked).2⟩
  · intro source ended releasing
    cases idle.symm.trans releasing

/-- A subscription that ended is dropped only once its session is unpinned, so whatever is
pinned still waits in the channel.
-/
theorem release (h : AnchorLeads state) {source : FrameSource} {ended : Bool}
    (releasing : state.turn = .releasing source ended) (unlocked : state.pinning = none)
    : AnchorLeads
        { state.releaseAnchor source with
          turn := .select,
          followed := if ended then none else state.followed } := by
  have unpinned := h.unpin (fun anchor => anchor.source ≠ source) unlocked
  refine ⟨?_, ?_, fun busy => absurd rfl busy, fun _ _ impossible => by cases impossible⟩
  · intro opened pinned
    have newest := unpinned.anchor opened pinned
    have other := (Option.filter_eq_some_iff.mp pinned).2
    cases ended with
    | false => exact newest
    | true =>
        obtain ⟨followed, held, same⟩ :=
          (Option.any_eq_true _ _).mp (h.releasing source true releasing)
        change state.subscriptions.getLast?.or none = some opened
        change state.subscriptions.getLast?.or state.followed = some opened at newest
        cases waiting : state.subscriptions.getLast? with
        | some last =>
            rw [waiting, Option.some_or] at newest
            exact newest
        | none =>
            -- Nothing waits, so the newest is the one followed, and that has another source.
            rw [waiting, held, Option.none_or] at newest
            cases newest
            exact absurd (of_decide_eq_true same) (of_decide_eq_true other)
  · intro opened locked
    have still : state.pinning = some opened := locked
    rw [unlocked] at still
    cases still

/-- Every event keeps the subscription of a pinned session the newest. Cases on the step. -/
theorem step (h : AnchorLeads state) {event : DriveEvent}
    (stepped : (driving coinId).step state event = some next)
    : AnchorLeads next := by
  cases driveStep_inv stepped with
  | subscribe unlocked unpinned => exact h.subscribe unpinned _ _
  | pin locked => exact h.pin locked
  | releaseAnchorAt unlocked => exact h.unpin _ unlocked
  | adopt idle waiting => exact h.adopt idle waiting
  | release releasing unlocked => exact h.release releasing unlocked
  | poll idle empty followed =>
      exact h.turn (fun _ => by simp [followed]) (fun _ _ impossible => by cases impossible)
  | wait | skip =>
      exact h.turn (fun busy => absurd rfl busy) (fun _ _ impossible => by cases impossible)
  | take polled followed =>
      exact h.turn (fun _ => by simp [followed]) (fun _ _ impossible => by cases impossible)
  | finish polled followed =>
      refine h.turn (fun _ => by simp [followed]) (fun source ended releasing => ?_)
      cases releasing
      simp [followed]
  | follow received unlocked follows =>
      have held := h.busy (by simp [received])
      exact h.turn (fun _ => held) (fun _ _ impossible => by cases impossible)
  | apply following followed =>
      refine ⟨h.anchor, h.pinning, fun _ => by simp [followed], ?_⟩
      intro source ended releasing
      simp [followed, AfterFrame.source_eq_of_turn releasing]
  | record | untrackCoins => exact ⟨h.anchor, h.pinning, h.busy, h.releasing⟩

end AnchorLeads

------------------------------------------------------------------------------------------
-- A loop on another subscription has one waiting
------------------------------------------------------------------------------------------

section Pinned

variable {coinId : ProtocolCoin → Bytes32} {state next : DriveState}
variable {opened : FrameSubscription}

/-- While the loop follows another subscription, that of the pinned session waits for it. -/
theorem AnchorLeads.waiting (h : AnchorLeads state) (pinned : state.anchor = some opened)
    (superseded : state.followed ≠ some opened)
    : ∃ first rest, state.subscriptions = first :: rest := by
  cases channel : state.subscriptions with
  | cons first rest => exact ⟨first, rest, rfl⟩
  | nil =>
      have newest := h.anchor opened pinned
      rw [DriveState.newest, channel, List.getLast?_nil, Option.none_or] at newest
      exact absurd newest superseded

/-- No turn of the loop waits for anything but the lock of the slot. -/
theorem AnchorLeads.moves (h : AnchorLeads state) (pinned : state.anchor = some opened)
    (superseded : state.followed ≠ some opened)
    : ∃ event, event.ofLoop = true ∧ (driveStep coinId state event).isSome = true := by
  have unlocked := h.unlocked pinned
  obtain ⟨first, rest, waiting⟩ := h.waiting pinned superseded
  cases turn : state.turn with
  | select => exact ⟨.adopt, rfl, by simp [driveStep, turn, waiting]⟩
  | polled => exact ⟨.wait, rfl, by simp [driveStep, turn]⟩
  | received sourced =>
      refine ⟨.check, rfl, ?_⟩
      simp only [driveStep, turn, unlocked]
      split
      · rfl
      · rfl
  | following sourced =>
      have busy : state.turn ≠ .select := by simp [turn]
      obtain ⟨followed, held⟩ := Option.isSome_iff_exists.mp (h.busy busy)
      exact ⟨.apply, rfl, by simp [driveStep, turn, held]⟩
  | releasing source ended => exact ⟨.release, rfl, by simp [driveStep, turn, unlocked]⟩

/-- With a subscription waiting, the loop's turn begins with nothing but adoption. -/
theorem eq_adopt_of_waiting {first : FrameSubscription} {rest : List FrameSubscription}
    (waiting : state.subscriptions = first :: rest) (idle : state.turn = .select)
    {event : DriveEvent} (ofLoop : event.ofLoop = true)
    (stepped : driveStep coinId state event = some next)
    : event = .adopt := by
  cases driveStep_inv stepped with
  | adopt => rfl
  | poll _ empty followed => cases waiting.symm.trans empty
  | wait polled => cases idle.symm.trans polled
  | take polled followed => cases idle.symm.trans polled
  | finish polled followed => cases idle.symm.trans polled
  | follow received unlocked follows => cases idle.symm.trans received
  | skip received => cases idle.symm.trans received
  | apply following followed => cases idle.symm.trans following
  | release releasing unlocked => cases idle.symm.trans releasing
  | subscribe | pin | releaseAnchorAt | record | untrackCoins => cases ofLoop

/-- Each step of the loop ends a part of its turn or takes a subscription out of the channel;
only a loop that found the channel empty begins a turn.
-/
theorem backlog_lt_of_waiting {first : FrameSubscription} {rest : List FrameSubscription}
    (waiting : state.subscriptions = first :: rest) {event : DriveEvent}
    (ofLoop : event.ofLoop = true) (stepped : driveStep coinId state event = some next)
    : next.backlog < state.backlog := by
  unfold DriveState.backlog
  cases driveStep_inv stepped with
  | adopt idle channel =>
      simp only [channel, List.length_cons]
      omega
  | poll idle empty followed => cases waiting.symm.trans empty
  | wait polled => simp [polled, DriveTurn.rank]
  | take polled followed => simp [polled, DriveTurn.rank]
  | finish polled followed => simp [polled, DriveTurn.rank]
  | follow received unlocked follows => simp [received, DriveTurn.rank]
  | skip received => simp [received, DriveTurn.rank]
  | @apply sourced subscription following followed =>
      have soon := AfterFrame.rank_turn_le (state.cache.applyFrame coinId sourced.frame).2
        subscription.source
      have start : state.turn.rank = 2 := by rw [following, DriveTurn.rank]
      dsimp only
      omega
  | release releasing unlocked => simp [releasing, DriveTurn.rank, DriveState.releaseAnchor]
  | subscribe | pin | releaseAnchorAt | record | untrackCoins => cases ofLoop

/-- Only a call to `anchor` sends a subscription, and it sends none while a session is
pinned.
-/
theorem backlog_le_of_pinned (pinned : state.anchor = some opened) {event : DriveEvent}
    (other : event.ofLoop = false) (stepped : driveStep coinId state event = some next)
    : next.backlog ≤ state.backlog := by
  cases driveStep_inv stepped with
  | subscribe unlocked unpinned => cases pinned.symm.trans unpinned
  | pin | releaseAnchorAt | record | untrackCoins => exact Nat.le_refl _
  | _ => cases other

/-- A release unpins the session it names and no other. -/
theorem release_anchor (pinned : state.anchor = some opened) {source : FrameSource}
    {ended : Bool} (releasing : state.turn = .releasing source ended)
    (stepped : driveStep coinId state .release = some next)
    : next.anchor = if opened.source = source then none else some opened := by
  cases driveStep_inv stepped with
  | release named unlocked =>
      cases releasing.symm.trans named
      simp only [DriveState.releaseAnchor, pinned, Option.filter_some]
      by_cases own : opened.source = source
      · simp [own]
      · simp [own]

/-- Once the loop follows the subscription of the pinned session, its end unpins it. -/
theorem AnchorLeads.ends (h : AnchorLeads state) (pinned : state.anchor = some opened)
    (idle : state.turn = .select) (empty : state.subscriptions = [])
    (followed : state.followed = some opened)
    : ∃ next,
        (driving coinId).runFrom state [.poll, .receive none, .release] = some next
        ∧ next.anchor = none
        ∧ next.followed = none := by
  have unlocked := h.unlocked pinned
  have reached
      : (driving coinId).runFrom state [.poll, .receive none, .release]
        = some { state.releaseAnchor opened.source with turn := .select, followed := none } := by
    simp [Machine.runFrom, driving, driveStep, idle, empty, followed, unlocked,
      DriveState.releaseAnchor]
  refine ⟨_, reached, ?_, rfl⟩
  simp [DriveState.releaseAnchor, pinned]

end Pinned

------------------------------------------------------------------------------------------
-- Runs of the loop beside pins and releases
------------------------------------------------------------------------------------------

theorem anchorLeads_initial (coinId : ProtocolCoin → Bytes32)
    : AnchorLeads (driving coinId).initial where
  anchor opened pinned := by cases pinned
  pinning opened locked := by cases locked
  busy busy := absurd rfl busy
  releasing source ended releasing := by cases releasing

/-- In every state of every run, the loop keeps up with a pinned session. -/
theorem drive_loop_keeps_up {coinId : ProtocolCoin → Bytes32} {events : List DriveEvent}
    {final : DriveState} (reached : (driving coinId).run events = some final)
    : ∀ opened, final.anchor = some opened → final.KeepsUp coinId opened := by
  intro opened pinned
  have leads := Machine.reachable_invariant (anchorLeads_initial coinId)
    (fun h stepped => h.step stepped) reached
  have newest := leads.anchor opened pinned
  have follows (empty : final.subscriptions = []) : final.followed = some opened := by
    rwa [DriveState.newest, empty, List.getLast?_nil, Option.none_or] at newest
  exact {
    follows := fun _ empty => follows empty
    ends := fun idle empty => leads.ends pinned idle empty (follows empty)
    moves := fun superseded => leads.moves pinned superseded
    adopts := by
      intro superseded idle event next ofLoop stepped
      obtain ⟨first, rest, waiting⟩ := leads.waiting pinned superseded
      exact eq_adopt_of_waiting waiting idle ofLoop stepped
    lessens := by
      intro superseded event next ofLoop stepped
      obtain ⟨first, rest, waiting⟩ := leads.waiting pinned superseded
      exact backlog_lt_of_waiting waiting ofLoop stepped
    keeps := fun event next other stepped => backlog_le_of_pinned pinned other stepped
    spares := fun source ended next releasing stepped =>
      release_anchor pinned releasing stepped
  }

/-- `source` is pinned. -/
def pinEvents (source : FrameSource) : List DriveEvent :=
  [.subscribe source, .pin]

/-- The session followed goes quiet after a failed read, and another one is pinned. -/
def supersededEvents : List DriveEvent :=
  pinEvents (sampleEntry 1).source
    ++ [.adopt, .releaseAnchorAt (sampleEntry 1).address]
    ++ pinEvents (sampleEntry 2).source

theorem drive_loop_keeps_up_sample
    : ∃ final opened, (driving sampleCoinId).run supersededEvents = some final
        ∧ final.anchor = some opened
        ∧ final.followed.isSome = true
        ∧ final.followed ≠ some opened
        ∧ final.KeepsUp sampleCoinId opened :=
  have keepsUp {final : DriveState} {opened : FrameSubscription}
      (reached : (driving sampleCoinId).run supersededEvents = some final)
      (pinned : final.anchor = some opened) :=
    drive_loop_keeps_up reached opened pinned
  ⟨_, _, rfl, rfl, rfl, by decide, keepsUp rfl rfl⟩

end ChiaQuery.LightClient
