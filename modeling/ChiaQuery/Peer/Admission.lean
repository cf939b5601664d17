import ChiaQuery.Peer.PoolRun
import Mathlib.Data.List.Perm.Basic

/-! What the pool holds is always a set of different connections that fits its capacity. The
slots and exclusions of a round are stale when it admits, so everything rests on the admission:
it tests room and address under the lock it pushes under, and its session is freshly counted.
-/

namespace ChiaQuery

open ChiaQuery.Library

/-- The session a task has allocated and not yet offered to the pool. -/
def PoolTask.offered : PoolTask → List SessionId
  | .offering _ _ _ _ session => [session]
  | _ => []

namespace PoolState

/-- The sessions of held entries, and those allocated for connections not yet admitted. -/
def sessionsInUse (state : PoolState) : List SessionId :=
  state.entries.map PeerEntry.session ++ state.tasks.flatMap PoolTask.offered

/-- The state while a task is taken off its list for a step. -/
def without (state : PoolState) (index : Nat) : PoolState :=
  { state with tasks := state.tasks.eraseIdx index }

end PoolState

/-- Sessions numbered below `allocated`, each in use once. -/
structure SessionsCounted (allocated : Nat) (sessions : List SessionId) : Prop where
  distinct : sessions.Nodup
  below : ∀ session ∈ sessions, session.toNat < allocated

/-- What every state of the pool satisfies while a task at hand holds the sessions `pending`. -/
structure PoolInvariant (maxPeers : Nat) (pending : List SessionId) (state : PoolState)
    : Prop where
  distinct : PeerPool.DistinctAddresses state.entries
  room : state.entries.length ≤ maxPeers
  counter : state.nextSession = UInt64.ofNat state.allocated
  counted :
    state.allocated ≤ 2 ^ 64 →
      SessionsCounted state.allocated (pending ++ state.sessionsInUse)

namespace SessionsCounted

variable {allocated : Nat} {sessions others : List SessionId}

theorem perm (h : SessionsCounted allocated sessions) (same : sessions.Perm others)
    : SessionsCounted allocated others where
  distinct := same.nodup_iff.mp h.distinct
  below := fun session member => h.below session (same.mem_iff.mpr member)

theorem sublist (h : SessionsCounted allocated sessions) (fewer : others.Sublist sessions)
    : SessionsCounted allocated others where
  distinct := h.distinct.sublist fewer
  below := fun session member => h.below session (fewer.subset member)

/-- The next number is new while the counter has not wrapped. -/
theorem allocate (h : SessionsCounted allocated sessions) (room : allocated + 1 ≤ 2 ^ 64)
    : SessionsCounted (allocated + 1) (UInt64.ofNat allocated :: sessions) := by
  have number : (UInt64.ofNat allocated).toNat = allocated := by
    rw [UInt64.toNat_ofNat']
    exact Nat.mod_eq_of_lt (by omega)
  constructor
  · refine List.nodup_cons.mpr ⟨?_, h.distinct⟩
    intro repeated
    have earlier := h.below _ repeated
    omega
  · intro session member
    rcases List.mem_cons.mp member with same | earlier
    · rw [same, number]
      omega
    · have below := h.below session earlier
      omega

end SessionsCounted

namespace PoolInvariant

variable {maxPeers : Nat} {pending : List SessionId} {state next : PoolState}

------------------------------------------------------------------------------------------
-- Steps that admit nothing
------------------------------------------------------------------------------------------

/-- A step that keeps some of the entries and of the allocated sessions keeps the invariant. -/
theorem narrow (h : PoolInvariant maxPeers pending state)
    (entries : (next.entries.map PeerEntry.source).Sublist (state.entries.map PeerEntry.source))
    (tasks : (next.tasks.flatMap PoolTask.offered).Sublist
      (state.tasks.flatMap PoolTask.offered))
    (nextSession : next.nextSession = state.nextSession)
    (allocated : next.allocated = state.allocated)
    : PoolInvariant maxPeers pending next := by
  have addresses : (next.entries.map PeerEntry.address).Sublist
      (state.entries.map PeerEntry.address) := by
    simpa [Function.comp_def, PeerEntry.source] using entries.map FrameSource.address
  have sessions : (next.entries.map PeerEntry.session).Sublist
      (state.entries.map PeerEntry.session) := by
    simpa [Function.comp_def, PeerEntry.source] using entries.map FrameSource.session
  constructor
  · exact List.Nodup.sublist addresses h.distinct
  · have fewer := addresses.length_le
    have room := h.room
    simp only [List.length_map] at fewer
    omega
  · rw [nextSession, allocated, h.counter]
  · intro bound
    rw [allocated] at bound ⊢
    exact (h.counted bound).sublist ((sessions.append tasks).append_left pending)

/-- The sessions at hand may be given up. -/
theorem give_up (h : PoolInvariant maxPeers pending state)
    : PoolInvariant maxPeers [] state where
  distinct := h.distinct
  room := h.room
  counter := h.counter
  counted := fun bound => (h.counted bound).sublist (List.sublist_append_right pending _)

/-- A task taken off the list leaves its session at hand. -/
theorem withdraw (h : PoolInvariant maxPeers [] state) {index : Nat} {task : PoolTask}
    (found : state.tasks[index]? = some task)
    : PoolInvariant maxPeers task.offered (state.without index) where
  distinct := h.distinct
  room := h.room
  counter := h.counter
  counted := by
    intro bound
    obtain ⟨inside, same⟩ := List.getElem?_eq_some_iff.mp found
    have taken : (state.tasks[index] :: state.tasks.eraseIdx index).Perm state.tasks :=
      List.getElem_cons_eraseIdx_perm inside
    rw [same] at taken
    have offered := (taken.flatMap_right PoolTask.offered).symm
    rw [List.flatMap_cons] at offered
    refine (h.counted bound).perm ?_
    exact (offered.append_left _).trans (List.perm_append_comm_assoc _ _ _)

/-- A task goes back on the list with the session at hand. -/
theorem resume {task : PoolTask} (h : PoolInvariant maxPeers task.offered state)
    : PoolInvariant maxPeers [] (state.resume task) where
  distinct := h.distinct
  room := h.room
  counter := h.counter
  counted := by
    intro bound
    refine (h.counted bound).perm ?_
    exact List.perm_append_comm_assoc _ _ _

/-- A task that holds no session goes back on the list. -/
theorem resume_plain (h : PoolInvariant maxPeers pending state) {task : PoolTask}
    (plain : task.offered = [])
    : PoolInvariant maxPeers [] (state.resume task) := by
  apply resume
  rw [plain]
  exact h.give_up

------------------------------------------------------------------------------------------
-- Allocation and admission
------------------------------------------------------------------------------------------

/-- `allocate_session` puts the next number at hand. -/
theorem allocate (h : PoolInvariant maxPeers [] state)
    : PoolInvariant maxPeers [state.nextSession]
        { state with
          nextSession := state.nextSession + 1,
          allocated := state.allocated + 1 } where
  distinct := h.distinct
  room := h.room
  counter := by
    rw [h.counter]
    simp
  counted := by
    intro bound
    have earlier := h.counted (Nat.le_of_succ_le bound)
    rw [h.counter]
    exact earlier.allocate bound

/-- `admit` holds the session at hand, at an address the pool did not hold. -/
theorem admitEntry {session : SessionId} (h : PoolInvariant maxPeers [session] state)
    {entry : PeerEntry} {entries : List PeerEntry} {admissions : List FrameSource}
    (offered : entry.session = session)
    (admitted : PeerPool.admitEntry maxPeers state.entries entry = some entries)
    : PoolInvariant maxPeers [] { state with entries, admissions } where
  distinct := h.distinct.admitEntry admitted
  room := PeerPool.admitEntry_room admitted
  counter := h.counter
  counted := by
    intro bound
    obtain ⟨rfl, -⟩ := PeerPool.admitEntry_inv admitted
    refine (h.counted bound).perm ?_
    simp only [PoolState.sessionsInUse, List.map_append, List.map_cons, List.map_nil, offered,
      List.nil_append, List.append_assoc]
    exact List.perm_append_comm_assoc _ _ _

/-- One stage of a task, from what it holds at hand, by the stages. -/
theorem advance {now : Nat} {task : PoolTask} (h : PoolInvariant maxPeers task.offered state)
    (advanced : state.advance maxPeers now task = some next)
    : PoolInvariant maxPeers [] next := by
  cases task with
  | filling rounds =>
      cases rounds with
      | zero =>
          cases advanced
          exact h
      | succ rounds =>
          simp only [PoolState.advance] at advanced
          split at advanced
          · cases advanced
            exact h
          · cases advanced
            exact h.resume_plain rfl
  | dialling | refilling => cases advanced
  | admitting rounds admitted queue =>
      cases queue with
      | nil =>
          simp only [PoolState.advance] at advanced
          split at advanced
          · cases advanced
            exact h
          · cases advanced
            exact h.resume_plain rfl
      | cons connection queue =>
          cases advanced
          exact (PoolInvariant.allocate h).resume
  | offering rounds admitted queue connection session =>
      simp only [PoolState.advance] at advanced
      split at advanced
      · cases advanced
        exact h.resume_plain rfl
      · rename_i entries grown
        cases advanced
        exact (PoolInvariant.admitEntry h rfl grown).resume_plain rfl
  | opening rounds admitted queue source =>
      cases advanced
      have opened : PoolInvariant maxPeers []
          { state with following := source :: state.following } :=
        h.narrow (List.Sublist.refl _) (List.Sublist.refl _) rfl rfl
      exact opened.resume_plain rfl
  | sweeping dead =>
      cases advanced
      exact h.narrow ((PeerPool.ejectDeadSessions_sublist _ _).map _) (List.Sublist.refl _)
        rfl rfl

/-- Dials that return put connections on a task's queue, and no session yet. -/
theorem receiveDials {results : List (DialCandidate Connected)} {task : PoolTask}
    (h : PoolInvariant maxPeers pending state)
    (received : state.receiveDials results task = some next)
    : PoolInvariant maxPeers [] next := by
  cases task with
  | dialling rounds held wanted =>
      simp only [PoolState.receiveDials] at received
      split at received
      · cases received
        exact h.resume_plain rfl
      · cases received
  | refilling held =>
      simp only [PoolState.receiveDials] at received
      split at received
      · cases received
        exact h.resume_plain rfl
      · cases received
  | _ => cases received

/-- An announcement changes peaks only. -/
theorem announce_sources (source : FrameSource) (height : UInt32) (entries : List PeerEntry)
    : (entries.map (fun entry =>
        if entry.source = source then { entry with lastPeak := max entry.lastPeak height }
        else entry)).map PeerEntry.source
      = entries.map PeerEntry.source := by
  rw [List.map_map]
  apply List.map_congr_left
  intro entry _
  simp only [Function.comp_apply]
  split <;> rfl

/-- Every step of the pool keeps the invariant, by the kinds of step. -/
theorem step {event : PoolEvent} (h : PoolInvariant maxPeers [] state)
    (stepped : poolStep maxPeers state event = some next)
    : PoolInvariant maxPeers [] next := by
  cases event with
  | startFill =>
      cases stepped
      exact h.resume_plain rfl
  | startRefill =>
      simp only [poolStep] at stepped
      split at stepped
      · cases stepped
        exact h
      · cases stepped
        exact h.resume_plain rfl
  | startSweep =>
      cases stepped
      have taken : PoolInvariant maxPeers [] { state with deadSessions := [] } :=
        h.narrow (List.Sublist.refl _) (List.Sublist.refl _) rfl rfl
      exact taken.resume_plain rfl
  | advance index now =>
      obtain ⟨task, found, advanced⟩ := Option.bind_eq_some_iff.mp stepped
      exact (h.withdraw found).advance advanced
  | dialled index results =>
      obtain ⟨task, found, received⟩ := Option.bind_eq_some_iff.mp stepped
      exact (h.withdraw found).receiveDials received
  | evictLagging =>
      cases stepped
      exact h.narrow ((PeerPool.evictLaggingPeers_sublist _).map _) (List.Sublist.refl _) rfl rfl
  | cycleExpired now =>
      cases stepped
      exact h.narrow ((PeerPool.cycleExpiredPeers_sublist _ _).map _) (List.Sublist.refl _)
        rfl rfl
  | announce source height =>
      simp only [poolStep] at stepped
      split at stepped
      · cases stepped
        refine h.narrow ?_ (List.Sublist.refl _) rfl rfl
        rw [announce_sources]
      · cases stepped
  | sessionEnds source =>
      simp only [poolStep] at stepped
      split at stepped
      · cases stepped
        exact h.narrow (List.Sublist.refl _) (List.Sublist.refl _) rfl rfl
      · cases stepped
  | select selection =>
      cases stepped
      exact h.narrow (List.Sublist.refl _) (List.Sublist.refl _) rfl rfl
  | request index =>
      obtain ⟨handle, -, rfl⟩ := Option.map_eq_some_iff.mp stepped
      exact h.narrow (List.Sublist.refl _) (List.Sublist.refl _) rfl rfl
  | answer index =>
      obtain ⟨request, -, rfl⟩ := Option.map_eq_some_iff.mp stepped
      exact h.narrow (List.Sublist.refl _) (List.Sublist.refl _) rfl rfl
  | fail index =>
      obtain ⟨request, -, rfl⟩ := Option.map_eq_some_iff.mp stepped
      exact h.narrow ((PeerPool.ejectPeer_sublist _ _).map _) (List.Sublist.refl _) rfl rfl

end PoolInvariant

/-- An empty pool satisfies the invariant. -/
theorem poolInvariant_initial (maxPeers : Nat)
    : PoolInvariant maxPeers [] (pool maxPeers).initial where
  distinct := List.nodup_nil
  room := Nat.zero_le _
  counter := rfl
  counted := fun _ => ⟨List.nodup_nil, by simp [pool, PoolState.sessionsInUse]⟩

/-- In every run of the pool the held entries have different addresses, they are within the
capacity, and while fewer than `2 ^ 64` sessions were allocated their sessions differ too.
-/
theorem pool_holds_distinct_connections {maxPeers : Nat} {events : List PoolEvent}
    {final : PoolState} (reached : (pool maxPeers).run events = some final)
    : PeerPool.DistinctAddresses final.entries
      ∧ final.entries.length ≤ maxPeers
      ∧ (final.allocated < 2 ^ 64 → (final.entries.map PeerEntry.session).Nodup) := by
  have h : PoolInvariant maxPeers [] final :=
    Machine.reachable_invariant (poolInvariant_initial maxPeers)
      (fun invariant stepped => PoolInvariant.step invariant stepped) reached
  refine ⟨h.distinct, h.room, ?_⟩
  intro bound
  exact (h.counted (Nat.le_of_lt bound)).distinct.sublist (List.sublist_append_left _ _)

/-- Two refills that read the empty pool and dial the same peer, and a third that follows. -/
def overlappingEvents : List PoolEvent :=
  [.startRefill, .startRefill, .dialled 0 [sampleDial 1], .dialled 1 [sampleDial 1]]
    ++ List.replicate 2 (.advance 1 0) ++ List.replicate 6 (.advance 0 0)
    ++ refillEvents (sampleDial 2)

theorem pool_holds_distinct_connections_sample
    : ∃ final, (pool 2).run overlappingEvents = some final
        ∧ final.allocated = 3
        ∧ PeerPool.DistinctAddresses final.entries
        ∧ final.entries.length ≤ 2
        ∧ (final.entries.map PeerEntry.session).Nodup := by
  have counts : ((pool 2).run overlappingEvents).map PoolState.allocated = some 3 := by
    decide +kernel
  obtain ⟨final, reached, allocated⟩ := Option.map_eq_some_iff.mp counts
  obtain ⟨addresses, room, sessions⟩ := pool_holds_distinct_connections reached
  exact ⟨final, reached, allocated, addresses, room, sessions (by omega)⟩

end ChiaQuery
