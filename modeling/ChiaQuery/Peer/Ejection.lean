import ChiaQuery.Peer.Admission

/-! What a failed request removes. An ejection goes by address, so it hits whatever connection
is held there when the failure is known; it hits the request's own session as long as nothing
held at the address was admitted after the request's handle was taken.
-/

namespace ChiaQuery

open ChiaQuery.Library

/-- The sessions of the held entries. -/
def PoolState.held (state : PoolState) : List FrameSource :=
  state.entries.map PeerEntry.source

/-- A failed request removed at most the entry of the session it was issued on. -/
def Ejection.OwnSession (ejection : Ejection) : Prop :=
  ∀ source ∈ ejection.removed, source = ejection.request.source

instance (ejection : Ejection) : Decidable ejection.OwnSession :=
  List.decidableBAll _ _

/-- A request that fails finds no connection held at its address that was admitted since its
handle was taken.
-/
def RequestsUndisturbed (state : PoolState) : PoolEvent → Prop
  | .fail index =>
      match state.requests[index]? with
      | some request =>
          ∀ source ∈ state.held, source.address = request.address →
            source ∉ state.admissions.drop request.takenAt
      | none => True
  | _ => True

instance (state : PoolState) (event : PoolEvent) : Decidable (RequestsUndisturbed state event) := by
  unfold RequestsUndisturbed
  split
  · split <;> infer_instance
  · infer_instance

/-- Whatever is held at a handle's address is its connection, or was admitted since. -/
structure Handle.Fits (held admissions : List FrameSource) (handle : Handle) : Prop where
  taken : handle.takenAt ≤ admissions.length
  own :
    ∀ source ∈ held, source.address = handle.address →
      source = handle.source ∨ source ∈ admissions.drop handle.takenAt

/-- What every state of an undisturbed run satisfies. -/
structure EjectionInvariant (maxPeers : Nat) (state : PoolState) : Prop where
  pool : PoolInvariant maxPeers [] state
  handles : ∀ handle ∈ state.handles, handle.Fits state.held state.admissions
  requests : ∀ request ∈ state.requests, request.Fits state.held state.admissions
  ejections : ∀ ejection ∈ state.ejections, ejection.OwnSession

------------------------------------------------------------------------------------------
-- What the pool's own steps do to the held sessions
------------------------------------------------------------------------------------------

/-- The pool loses some sessions and admits none, or admits one. -/
def HeldChange (state next : PoolState) : Prop :=
  next.held.Sublist state.held ∧ next.admissions = state.admissions
  ∨ ∃ source, next.held = state.held ++ [source]
      ∧ next.admissions = state.admissions ++ [source]

/-- A step of the pool that touches no handle, no request and no ejection. -/
structure PoolChange (state next : PoolState) : Prop where
  handles : next.handles = state.handles
  requests : next.requests = state.requests
  ejections : next.ejections = state.ejections
  held : HeldChange state next

/-- Entries were removed, or one was admitted, which has announced nothing yet. -/
def EntriesChange (state next : PoolState) : Prop :=
  next.entries.Sublist state.entries ∧ next.admissions = state.admissions
  ∨ ∃ entry, entry.lastPeak = 0
      ∧ next.entries = state.entries ++ [entry]
      ∧ next.admissions = state.admissions ++ [entry.source]

theorem EntriesChange.refl (state : PoolState) : EntriesChange state state :=
  Or.inl ⟨List.Sublist.refl _, rfl⟩

theorem EntriesChange.held {state next : PoolState} (change : EntriesChange state next)
    : HeldChange state next := by
  rcases change with ⟨fewer, log⟩ | ⟨entry, -, grown, log⟩
  · exact Or.inl ⟨fewer.map _, log⟩
  · refine Or.inr ⟨entry.source, ?_, log⟩
    simp [PoolState.held, grown]

/-- A step of the pool that goes on without an announcement. -/
structure QuietChange (state next : PoolState) : Prop where
  handles : next.handles = state.handles
  requests : next.requests = state.requests
  ejections : next.ejections = state.ejections
  entries : EntriesChange state next

theorem QuietChange.change {state next : PoolState} (quiet : QuietChange state next)
    : PoolChange state next where
  handles := quiet.handles
  requests := quiet.requests
  ejections := quiet.ejections
  held := quiet.entries.held

namespace QuietChange

variable {maxPeers : Nat} {state next : PoolState}

/-- The stages of a task: only an admission adds an entry. -/
theorem of_advance {now : Nat} {task : PoolTask}
    (advanced : state.advance maxPeers now task = some next)
    : QuietChange state next := by
  have same : EntriesChange state state := .refl state
  cases task with
  | filling rounds =>
      cases rounds with
      | zero =>
          cases advanced
          exact ⟨rfl, rfl, rfl, same⟩
      | succ rounds =>
          simp only [PoolState.advance] at advanced
          split at advanced <;> cases advanced <;> exact ⟨rfl, rfl, rfl, same⟩
  | dialling | refilling => cases advanced
  | admitting rounds admitted queue =>
      cases queue with
      | nil =>
          simp only [PoolState.advance] at advanced
          split at advanced <;> cases advanced <;> exact ⟨rfl, rfl, rfl, same⟩
      | cons connection queue =>
          cases advanced
          exact ⟨rfl, rfl, rfl, same⟩
  | offering rounds admitted queue connection session =>
      simp only [PoolState.advance] at advanced
      split at advanced
      · cases advanced
        exact ⟨rfl, rfl, rfl, same⟩
      · rename_i entries grown
        obtain ⟨rfl, -⟩ := PeerPool.admitEntry_inv grown
        cases advanced
        exact ⟨rfl, rfl, rfl, Or.inr ⟨_, rfl, rfl, rfl⟩⟩
  | opening rounds admitted queue source =>
      cases advanced
      exact ⟨rfl, rfl, rfl, same⟩
  | sweeping dead =>
      cases advanced
      exact ⟨rfl, rfl, rfl, Or.inl ⟨PeerPool.ejectDeadSessions_sublist _ _, rfl⟩⟩

/-- Dials that return. -/
theorem of_receiveDials {results : List (DialCandidate Connected)} {task : PoolTask}
    (received : state.receiveDials results task = some next)
    : QuietChange state next := by
  cases task with
  | dialling | refilling =>
      simp only [PoolState.receiveDials] at received
      split at received
      · cases received
        exact ⟨rfl, rfl, rfl, .refl state⟩
      · cases received
  | _ => cases received

end QuietChange

/-- An event that hands out no handle and issues or settles no request. -/
def PoolEvent.IsPools : PoolEvent → Prop
  | .select _ | .request _ | .answer _ | .fail _ => False
  | _ => True

/-- The pool's own events beside announcements, by the kinds of event. -/
theorem quietChange_of_step {maxPeers : Nat} {state next : PoolState} {event : PoolEvent}
    (stepped : poolStep maxPeers state event = some next) (pools : event.IsPools)
    (silent : ∀ source height, event ≠ .announce source height)
    : QuietChange state next := by
  have same : EntriesChange state state := .refl state
  cases event with
  | startFill | startSweep =>
      cases stepped
      exact ⟨rfl, rfl, rfl, same⟩
  | startRefill =>
      simp only [poolStep] at stepped
      split at stepped <;> cases stepped <;> exact ⟨rfl, rfl, rfl, same⟩
  | advance index now =>
      obtain ⟨task, -, advanced⟩ := Option.bind_eq_some_iff.mp stepped
      have change := QuietChange.of_advance advanced
      exact ⟨change.handles, change.requests, change.ejections, change.entries⟩
  | dialled index results =>
      obtain ⟨task, -, received⟩ := Option.bind_eq_some_iff.mp stepped
      have change := QuietChange.of_receiveDials received
      exact ⟨change.handles, change.requests, change.ejections, change.entries⟩
  | evictLagging =>
      cases stepped
      exact ⟨rfl, rfl, rfl, Or.inl ⟨PeerPool.evictLaggingPeers_sublist _, rfl⟩⟩
  | cycleExpired now =>
      cases stepped
      exact ⟨rfl, rfl, rfl, Or.inl ⟨PeerPool.cycleExpiredPeers_sublist _ _, rfl⟩⟩
  | announce source height => exact absurd rfl (silent source height)
  | sessionEnds source =>
      simp only [poolStep] at stepped
      split at stepped
      · cases stepped
        exact ⟨rfl, rfl, rfl, same⟩
      · cases stepped
  | select | request | answer | fail => cases pools

/-- The pool's own events are changes of the pool; an announcement replaces no session. -/
theorem poolChange_of_step {maxPeers : Nat} {state next : PoolState} {event : PoolEvent}
    (stepped : poolStep maxPeers state event = some next) (pools : event.IsPools)
    : PoolChange state next := by
  by_cases announces : ∃ source height, event = .announce source height
  · obtain ⟨source, height, rfl⟩ := announces
    simp only [poolStep] at stepped
    split at stepped
    · cases stepped
      refine ⟨rfl, rfl, rfl, Or.inl ⟨?_, rfl⟩⟩
      simp only [PoolState.held, PoolInvariant.announce_sources]
      exact List.Sublist.refl _
    · cases stepped
  · exact (quietChange_of_step stepped pools (fun source height same =>
      announces ⟨source, height, same⟩)).change

------------------------------------------------------------------------------------------
-- A handle fits as long as it is kept
------------------------------------------------------------------------------------------

/-- A handle fits a pool that lost sessions. -/
theorem Handle.Fits.sublist {held fewer admissions : List FrameSource} {handle : Handle}
    (h : handle.Fits held admissions) (shrunk : fewer.Sublist held)
    : handle.Fits fewer admissions where
  taken := h.taken
  own := fun source member same => h.own source (shrunk.subset member) same

/-- A session admitted after the handle was taken joins those admitted since. -/
theorem Handle.Fits.append {held admissions : List FrameSource} {handle : Handle}
    (h : handle.Fits held admissions) (source : FrameSource)
    : handle.Fits (held ++ [source]) (admissions ++ [source]) where
  taken := by
    have taken := h.taken
    simp only [List.length_append]
    omega
  own := by
    intro present member same
    rw [List.drop_append_of_le_length h.taken]
    rcases List.mem_append.mp member with before | new
    · exact (h.own present before same).imp_right (List.mem_append_left _)
    · exact Or.inr (List.mem_append_right _ new)

theorem Handle.Fits.change {state next : PoolState} {handle : Handle}
    (h : handle.Fits state.held state.admissions) (change : HeldChange state next)
    : handle.Fits next.held next.admissions := by
  rcases change with ⟨shrunk, sameLog⟩ | ⟨source, grown, log⟩
  · rw [sameLog]
    exact h.sublist shrunk
  · rw [grown, log]
    exact h.append source

/-- A handle just taken is that of the one entry at its address. -/
theorem Handle.fits_of_handleOf {state : PoolState} {choice : Peer × SocketAddr}
    {handle : Handle} (distinct : PeerPool.DistinctAddresses state.entries)
    (taken : state.handleOf choice = some handle)
    : handle.Fits state.held state.admissions := by
  obtain ⟨entry, found, rfl⟩ := Option.map_eq_some_iff.mp taken
  constructor
  · exact Nat.le_refl _
  · intro source member same
    obtain ⟨present, held, rfl⟩ := List.mem_map.mp member
    have sameAddress : entry.address = choice.2 := by simpa using List.find?_some found
    have one := distinct.eq_of_address_eq held (List.mem_of_find?_eq_some found)
      (same.trans sameAddress.symm)
    left
    rw [one]
    simp [PeerEntry.source, Handle.source, sameAddress]

namespace EjectionInvariant

variable {maxPeers : Nat} {state next : PoolState}

/-- The pool's own steps keep every handle fitting. -/
theorem change (h : EjectionInvariant maxPeers state) (change : PoolChange state next)
    (pool : PoolInvariant maxPeers [] next)
    : EjectionInvariant maxPeers next where
  pool := pool
  handles := by
    rw [change.handles]
    exact fun handle member => (h.handles handle member).change change.held
  requests := by
    rw [change.requests]
    exact fun request member => (h.requests request member).change change.held
  ejections := by
    rw [change.ejections]
    exact h.ejections

/-- A request that fits and is undisturbed ejects its own session. -/
theorem ownSession {request : Handle} (fits : request.Fits state.held state.admissions)
    (undisturbed
      : ∀ source ∈ state.held, source.address = request.address →
          source ∉ state.admissions.drop request.takenAt)
    {removed : List FrameSource}
    (hremoved
      : removed
        = (state.entries.filter (fun entry =>
            entry ∉ PeerPool.ejectPeer state.entries request.address)).map PeerEntry.source)
    : Ejection.OwnSession { request, removed } := by
  intro source member
  rw [hremoved] at member
  obtain ⟨entry, gone, rfl⟩ := List.mem_map.mp member
  obtain ⟨held, ejected⟩ := List.mem_filter.mp gone
  have present : entry.source ∈ state.held := List.mem_map_of_mem held
  have atAddress : entry.address = request.address := by
    by_contra elsewhere
    have spared : entry ∈ PeerPool.ejectPeer state.entries request.address :=
      List.mem_filter.mpr ⟨held, by simpa using elsewhere⟩
    simp [spared] at ejected
  rcases fits.own entry.source present atAddress with own | since
  · exact own
  · exact absurd since (undisturbed entry.source present atAddress)

/-- A failure removes what its address holds, and settles the request. -/
theorem fail {index : Nat} (h : EjectionInvariant maxPeers state)
    (undisturbed : RequestsUndisturbed state (.fail index))
    (stepped : poolStep maxPeers state (.fail index) = some next)
    : EjectionInvariant maxPeers next := by
  have pool := h.pool.step stepped
  obtain ⟨request, found, rfl⟩ := Option.map_eq_some_iff.mp stepped
  have shrunk : ((PeerPool.ejectPeer state.entries request.address).map
      PeerEntry.source).Sublist state.held :=
    (PeerPool.ejectPeer_sublist _ _).map _
  simp only [RequestsUndisturbed, found] at undisturbed
  have fits := h.requests request (List.mem_of_getElem? found)
  exact {
    pool
    handles := fun handle member => (h.handles handle member).sublist shrunk
    requests := by
      intro waiting member
      exact (h.requests waiting (List.mem_of_mem_eraseIdx member)).sublist shrunk
    ejections := by
      intro ejection member
      rcases List.mem_cons.mp member with rfl | earlier
      · exact ownSession fits undisturbed rfl
      · exact h.ejections ejection earlier
  }

/-- Every undisturbed step keeps the invariant: the callers' events one by one, and the pool's
own together.
-/
theorem step {event : PoolEvent} (h : EjectionInvariant maxPeers state)
    (undisturbed : RequestsUndisturbed state event)
    (stepped : poolStep maxPeers state event = some next)
    : EjectionInvariant maxPeers next := by
  have pool := h.pool.step stepped
  cases event with
  | select selection =>
      cases stepped
      refine ⟨pool, ?_, h.requests, h.ejections⟩
      intro handle member
      rcases List.mem_append.mp member with new | earlier
      · obtain ⟨choice, -, taken⟩ := List.mem_filterMap.mp new
        exact Handle.fits_of_handleOf h.pool.distinct taken
      · exact h.handles handle earlier
  | request index =>
      obtain ⟨handle, found, rfl⟩ := Option.map_eq_some_iff.mp stepped
      refine ⟨pool, h.handles, ?_, h.ejections⟩
      intro request member
      rcases List.mem_cons.mp member with rfl | earlier
      · exact h.handles request (List.mem_of_getElem? found)
      · exact h.requests request earlier
  | answer index =>
      obtain ⟨answered, -, rfl⟩ := Option.map_eq_some_iff.mp stepped
      refine ⟨pool, h.handles, ?_, h.ejections⟩
      intro request member
      exact h.requests request (List.mem_of_mem_eraseIdx member)
  | fail index => exact h.fail undisturbed stepped
  | _ => exact h.change (poolChange_of_step stepped trivial) pool

end EjectionInvariant

------------------------------------------------------------------------------------------
-- Runs with requests in flight beside ejections, refills and re-admissions
------------------------------------------------------------------------------------------

theorem ejectionInvariant_initial (maxPeers : Nat)
    : EjectionInvariant maxPeers (pool maxPeers).initial where
  pool := poolInvariant_initial maxPeers
  handles := by simp [pool]
  requests := by simp [pool]
  ejections := by simp [pool]

/-- In every undisturbed run a request that fails removes at most the entry of the session it
was issued on.
-/
theorem failed_request_ejects_own_session {maxPeers : Nat} {events : List PoolEvent}
    {final : PoolState} (undisturbed : (pool maxPeers).Meets RequestsUndisturbed events)
    (reached : (pool maxPeers).run events = some final)
    : ∀ ejection ∈ final.ejections, ejection.OwnSession := by
  have invariant : EjectionInvariant maxPeers final :=
    Machine.run_invariant (ejectionInvariant_initial maxPeers)
      (fun h guarded stepped => EjectionInvariant.step h guarded stepped) undisturbed reached
  exact invariant.ejections

/-- Two requests in flight on one handle; the first failure ejects the peer, another peer takes
the room, and the second failure finds nothing to eject.
-/
def twoFailures (replacement : DialCandidate Connected) : List PoolEvent :=
  refillEvents (sampleDial 1)
    ++ [.select .any, .request 0, .request 0, .fail 0]
    ++ refillEvents replacement
    ++ [.fail 0]

theorem failed_request_ejects_own_session_sample
    : ∃ final, (pool 1).run (twoFailures (sampleDial 2)) = some final
        ∧ final.ejections.length = 2
        ∧ ∀ ejection ∈ final.ejections, ejection.OwnSession := by
  have counts : ((pool 1).run (twoFailures (sampleDial 2))).map
      (fun final => final.ejections.length) = some 2 := by
    decide +kernel
  obtain ⟨final, reached, two⟩ := Option.map_eq_some_iff.mp counts
  have undisturbed : (pool 1).Meets RequestsUndisturbed (twoFailures (sampleDial 2)) := by
    decide +kernel
  exact ⟨final, reached, two, failed_request_ejects_own_session undisturbed reached⟩

/-- A second connection to the peer `sampleDial 1` reached. -/
def redial : DialCandidate Connected :=
  let first := sampleDial 1
  { first with
    connection := { first.connection with
      peer := { connection := 9, socketAddr := first.address } } }

/-- The second failure on a handle removes the connection dialled in place of the first. -/
theorem failed_request_ejects_replacement
    : ¬ ∀ (maxPeers : Nat) (events : List PoolEvent) (final : PoolState),
        (pool maxPeers).run events = some final
        → ∀ ejection ∈ final.ejections, ejection.OwnSession := by
  intro claim
  have other
      : ((pool 1).run (twoFailures redial)).map (fun final =>
          decide (∀ ejection ∈ final.ejections, ejection.OwnSession))
        = some false := by
    decide +kernel
  obtain ⟨final, reached, refuted⟩ := Option.map_eq_some_iff.mp other
  exact of_decide_eq_false refuted (claim 1 _ final reached)

end ChiaQuery
