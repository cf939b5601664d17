import ChiaQuery.Library.Turns
import ChiaQuery.Peer.Ejection

/-! Whom the pool's round robin reaches. While nobody is admitted, enough selections hand out
every peer that is still held, whatever leaves the pool between them and however the requests on
the handles interleave. So a peer whose requests all fail does not stay.
-/

namespace ChiaQuery

open ChiaQuery.Library

/-- The addresses the pool holds. -/
def PoolState.addresses (state : PoolState) : List SocketAddr :=
  state.entries.map PeerEntry.address

/-- How many turns of the round robin an event takes. -/
def PoolEvent.turns (event : PoolEvent) : Nat :=
  if event = .select .any then 1 else 0

theorem PoolEvent.count_cons (event : PoolEvent) (rest : List PoolEvent)
    : (event :: rest).count (.select .any) = rest.count (.select .any) + event.turns := by
  simp [List.count_cons, PoolEvent.turns]

/-- A step that admits nobody hands out the peer whose turn it is, or takes no turn. Peers leave
then only, and with them the address of a request that failed.
-/
structure TurnStep (state next : PoolState) (turns : Nat) : Prop where
  fewer : next.addresses.Sublist state.addresses
  handles :
    ∃ added, next.handles = added ++ state.handles
      ∧ (state.addresses = []
        ∨ turns = 0 ∧ next.nextIdx = state.nextIdx
        ∨ turns = 1 ∧ next.nextIdx = state.nextIdx + 1
            ∧ next.addresses = state.addresses
            ∧ ∀ address, turnOf state.addresses state.nextIdx.toNat = some address →
                ∃ handle ∈ added, handle.address = address)
  ejections :
    ∃ settled, next.ejections = settled ++ state.ejections
      ∧ ∀ ejection ∈ settled, ejection.request.address ∉ next.addresses

/-- What is left of the pool after a run: each held peer was handed out in it, and no peer is
held whose request failed in it. So peers of which every handle of the run failed are gone.
-/
structure SweepsPool (start final : PoolState) : Prop where
  asked :
    ∃ fresh, final.handles = fresh ++ start.handles
      ∧ ∀ address ∈ final.addresses, ∃ handle ∈ fresh, handle.address = address
  gone :
    ∃ settled, final.ejections = settled ++ start.ejections
      ∧ ∀ ejection ∈ settled, ejection.request.address ∉ final.addresses
  failing :
    ∀ failing : SocketAddr → Prop,
      (∀ fresh settled,
        final.handles = fresh ++ start.handles
        → final.ejections = settled ++ start.ejections
        → ∀ handle ∈ fresh, failing handle.address →
            ∃ ejection ∈ settled, ejection.request.address = handle.address)
      → ∀ address ∈ final.addresses, ¬ failing address

variable {maxPeers : Nat} {start state next final : PoolState} {event : PoolEvent}
variable {events : List PoolEvent}

------------------------------------------------------------------------------------------
-- What one step hands out
------------------------------------------------------------------------------------------

theorem PoolState.addresses_eq_held (state : PoolState)
    : state.addresses = state.held.map FrameSource.address := by
  rw [PoolState.addresses, PoolState.held, List.map_map]
  rfl

/-- A selection chooses the peer whose turn it is. -/
theorem PoolState.chosen_any_address {choice : Peer × SocketAddr}
    (chosen : choice ∈ state.chosen .any)
    : turnOf state.addresses state.nextIdx.toNat = some choice.2 := by
  obtain ⟨entry, found, rfl⟩ := Option.map_eq_some_iff.mp (Option.mem_toList.mp chosen)
  rw [turnOf, PoolState.addresses, List.length_map, List.getElem?_map, found]
  rfl

/-- The pool's tasks take no turn. -/
theorem nextIdx_of_advance {now : Nat} {task : PoolTask}
    (advanced : state.advance maxPeers now task = some next)
    : next.nextIdx = state.nextIdx := by
  cases task with
  | filling rounds =>
      cases rounds with
      | zero =>
          cases advanced
          rfl
      | succ rounds =>
          simp only [PoolState.advance] at advanced
          split at advanced <;> cases advanced <;> rfl
  | dialling | refilling => cases advanced
  | admitting rounds admitted queue =>
      cases queue with
      | nil =>
          simp only [PoolState.advance] at advanced
          split at advanced <;> cases advanced <;> rfl
      | cons connection queue =>
          cases advanced
          rfl
  | offering rounds admitted queue connection session =>
      simp only [PoolState.advance] at advanced
      split at advanced <;> cases advanced <;> rfl
  | opening | sweeping =>
      cases advanced
      rfl

theorem nextIdx_of_receiveDials {results : List (DialCandidate Connected)} {task : PoolTask}
    (received : state.receiveDials results task = some next)
    : next.nextIdx = state.nextIdx := by
  cases task with
  | dialling | refilling =>
      simp only [PoolState.receiveDials] at received
      split at received
      · cases received
        rfl
      · cases received
  | _ => cases received

theorem nextIdx_of_step (stepped : poolStep maxPeers state event = some next)
    (pools : event.IsPools)
    : next.nextIdx = state.nextIdx := by
  cases event with
  | startFill | startSweep | evictLagging | cycleExpired =>
      cases stepped
      rfl
  | startRefill | announce | sessionEnds =>
      simp only [poolStep] at stepped
      split at stepped <;> cases stepped <;> rfl
  | advance index now =>
      obtain ⟨task, -, advanced⟩ := Option.bind_eq_some_iff.mp stepped
      have counter := nextIdx_of_advance advanced
      exact counter
  | dialled index results =>
      obtain ⟨task, -, received⟩ := Option.bind_eq_some_iff.mp stepped
      have counter := nextIdx_of_receiveDials received
      exact counter
  | select | request | answer | fail => cases pools

/-- No step takes a session back that was admitted. -/
theorem admissions_of_step (stepped : poolStep maxPeers state event = some next)
    : state.admissions <+: next.admissions := by
  by_cases pools : event.IsPools
  · rcases (poolChange_of_step stepped pools).held with ⟨-, log⟩ | ⟨source, -, log⟩
    · rw [log]
    · rw [log]
      exact List.prefix_append _ _
  · cases event with
    | select =>
        cases stepped
        exact List.prefix_rfl
    | request | answer | fail =>
        obtain ⟨found, -, rfl⟩ := Option.map_eq_some_iff.mp stepped
        exact List.prefix_rfl
    | _ => exact absurd trivial pools

theorem admissions_of_runFrom (reached : (pool maxPeers).runFrom state events = some final)
    : state.admissions <+: final.admissions := by
  induction events generalizing state with
  | nil =>
      cases reached
      exact List.prefix_rfl
  | cons event rest ih =>
      obtain ⟨next, stepped, reached⟩ := Option.bind_eq_some_iff.mp reached
      exact (admissions_of_step stepped).trans (ih reached)

namespace TurnStep

/-- A selection hands out the peer whose turn it is, when there is one. -/
theorem selectAny (stepped : poolStep maxPeers state (.select .any) = some next)
    : TurnStep state next 1 := by
  cases stepped
  refine ⟨List.Sublist.refl _, ⟨_, rfl, ?_⟩, ⟨[], rfl, fun _ absurd => nomatch absurd⟩⟩
  by_cases empty : state.addresses = []
  · exact Or.inl empty
  · right; right
    have within : state.nextIdx.toNat % state.entries.length < state.entries.length :=
      Nat.mod_lt _ (List.length_pos_iff.mpr (fun none => empty (List.map_eq_nil_iff.mpr none)))
    obtain ⟨entry, found⟩ : ∃ entry,
        state.entries[state.nextIdx.toNat % state.entries.length]? = some entry :=
      ⟨_, List.getElem?_eq_getElem within⟩
    have choice : state.chosen .any = [(entry.peer, entry.address)] := by
      simp [PoolState.chosen, PeerPool.selectPeer, found]
    obtain ⟨held, looked⟩ : ∃ held,
        state.entries.find? (fun other => other.address = entry.address) = some held :=
      Option.isSome_iff_exists.mp (List.find?_isSome.mpr
        ⟨entry, List.mem_of_getElem? found, by simp⟩)
    refine ⟨rfl, ?_, rfl, fun address turn => ?_⟩
    · simp [PoolState.countSelection, choice]
    · have same := PoolState.chosen_any_address (choice ▸ List.mem_singleton_self _)
      rw [turn] at same
      cases same
      simp [choice, PoolState.handleOf, looked]

/-- A step that changes neither the round robin nor the handles. -/
theorem of_unchanged (fewer : next.addresses.Sublist state.addresses)
    (counter : next.nextIdx = state.nextIdx) (handles : next.handles = state.handles)
    (ejections : next.ejections = state.ejections)
    : TurnStep state next 0 where
  fewer := fewer
  handles := ⟨[], handles, Or.inr (Or.inl ⟨rfl, counter⟩)⟩
  ejections := ⟨[], ejections, fun _ absurd => nomatch absurd⟩

/-- The failure of a request removes its address. -/
theorem fail {index : Nat} (stepped : poolStep maxPeers state (.fail index) = some next)
    : TurnStep state next 0 := by
  obtain ⟨request, found, rfl⟩ := Option.map_eq_some_iff.mp stepped
  refine ⟨(PeerPool.ejectPeer_sublist _ _).map _, ⟨[], rfl, Or.inr (Or.inl ⟨rfl, rfl⟩)⟩,
    ⟨[_], rfl, ?_⟩⟩
  intro ejection member
  cases List.mem_singleton.mp member
  intro present
  obtain ⟨entry, spared, same⟩ := List.mem_map.mp present
  have other := (List.mem_filter.mp spared).2
  simp only [decide_eq_true_eq] at other
  exact other same

/-- Every step that admits nobody, by who takes it. -/
theorem of_step (stepped : poolStep maxPeers state event = some next)
    (plain : ∀ excluded, event ≠ .select (.excluding excluded))
    (unadmitted : next.admissions = state.admissions)
    : TurnStep state next event.turns := by
  by_cases pools : event.IsPools
  · have change := poolChange_of_step stepped pools
    have none : event.turns = 0 := by
      unfold PoolEvent.turns
      rw [if_neg]
      rintro rfl
      exact pools
    rw [none]
    apply of_unchanged _ (nextIdx_of_step stepped pools) change.handles change.ejections
    rcases change.held with ⟨shrunk, -⟩ | ⟨source, -, log⟩
    · rw [PoolState.addresses_eq_held, PoolState.addresses_eq_held]
      exact shrunk.map _
    · rw [unadmitted] at log
      simp at log
  · cases event with
    | select selection =>
        cases selection with
        | any => exact selectAny stepped
        | excluding excluded => exact absurd rfl (plain excluded)
        | corroborating asked =>
            cases stepped
            exact ⟨List.Sublist.refl _, ⟨_, rfl, Or.inr (Or.inl ⟨rfl, rfl⟩)⟩,
              ⟨[], rfl, fun _ absurd => nomatch absurd⟩⟩
    | request | answer =>
        obtain ⟨found, -, rfl⟩ := Option.map_eq_some_iff.mp stepped
        exact of_unchanged (List.Sublist.refl _) rfl rfl rfl
    | fail => exact fail stepped
    | _ => exact absurd trivial pools

end TurnStep

------------------------------------------------------------------------------------------
-- What enough selections hand out
------------------------------------------------------------------------------------------

/-- Some handle is of the peer at this address. -/
def HandedOut (handles : List Handle) (address : SocketAddr) : Prop :=
  ∃ handle ∈ handles, handle.address = address

theorem HandedOut.append {handles : List Handle} (added : List Handle) (address : SocketAddr)
    (handed : HandedOut handles address)
    : HandedOut (added ++ handles) address := by
  obtain ⟨handle, member, same⟩ := handed
  exact ⟨handle, List.mem_append_right added member, same⟩

/-- What holds along a run in which `left` more turns are taken. -/
structure TakingTurns (start state : PoolState) (left : Nat) : Prop where
  fits : state.addresses.length ≤ UInt64.size
  asked :
    ∃ fresh, state.handles = fresh ++ start.handles
      ∧ Sweeping UInt64.size (HandedOut fresh) state.addresses state.nextIdx.toNat left
  gone :
    ∃ settled, state.ejections = settled ++ start.ejections
      ∧ ∀ ejection ∈ settled, ejection.request.address ∉ state.addresses

namespace TakingTurns

theorem step {left : Nat} (taking : TakingTurns start state (left + event.turns))
    (turn : TurnStep state next event.turns)
    : TakingTurns start next left where
  fits := Nat.le_trans turn.fewer.length_le taking.fits
  asked := by
    obtain ⟨fresh, before, sweeping⟩ := taking.asked
    obtain ⟨added, handles, cases⟩ := turn.handles
    refine ⟨added ++ fresh, by rw [handles, before, List.append_assoc], ?_⟩
    have grown := sweeping.mono (HandedOut.append added)
    rcases cases with empty | ⟨none, counter⟩ | ⟨one, counter, same, handed⟩
    · left
      have gone := turn.fewer
      rw [empty, List.sublist_nil] at gone
      rw [gone]
      exact fun address member => nomatch member
    · rw [counter]
      rw [none, Nat.add_zero] at grown
      exact grown.leave taking.fits turn.fewer
    · rw [counter, same, UInt64.toNat_add]
      rw [one] at grown
      apply grown.turn
      intro address taker
      obtain ⟨handle, member, of⟩ := handed address taker
      exact ⟨handle, List.mem_append_left fresh member, of⟩
  gone := by
    obtain ⟨earlier, before, absent⟩ := taking.gone
    obtain ⟨settled, ejections, removed⟩ := turn.ejections
    refine ⟨settled ++ earlier, by rw [ejections, before, List.append_assoc], ?_⟩
    intro ejection member
    rcases List.mem_append.mp member with new | old
    · exact removed ejection new
    · exact fun present => absent ejection old (turn.fewer.subset present)

/-- Induction on the events of a run that admits nobody. -/
theorem runFrom {left : Nat}
    (taking : TakingTurns start state (left + events.count (.select .any)))
    (plain : ∀ event ∈ events, ∀ excluded, event ≠ .select (.excluding excluded))
    (reached : (pool maxPeers).runFrom state events = some final)
    (unadmitted : final.admissions = state.admissions)
    : TakingTurns start final left := by
  induction events generalizing state with
  | nil =>
      cases reached
      exact taking
  | cons event rest ih =>
      obtain ⟨next, stepped, reached⟩ := Option.bind_eq_some_iff.mp reached
      have later := admissions_of_runFrom reached
      have same : next.admissions = state.admissions := by
        rw [unadmitted] at later
        exact (admissions_of_step stepped).eq_of_length_le later.length_le |>.symm
      have turn := TurnStep.of_step stepped (plain event List.mem_cons_self) same
      refine ih (step ?_ turn) (fun other member =>
        plain other (List.mem_cons_of_mem event member)) reached (unadmitted.trans same.symm)
      rwa [PoolEvent.count_cons, ← Nat.add_assoc] at taking

end TakingTurns

/-- In every run that admits nobody and makes no selection that excludes a peer, of a pool of n
peers, n * (n + 1) selections hand out every peer that is then held, whatever left the pool
meanwhile; and no peer is held whose request failed in the run.
-/
theorem select_peer_sweeps_pool
    (fits : start.entries.length ≤ UInt64.size)
    (plain : ∀ event ∈ events, ∀ excluded, event ≠ .select (.excluding excluded))
    (reached : (pool maxPeers).runFrom start events = some final)
    (unadmitted : final.admissions = start.admissions)
    (enough
      : start.entries.length * (start.entries.length + 1) ≤ events.count (.select .any))
    : SweepsPool start final := by
  have size : start.addresses.length = start.entries.length := List.length_map _
  have begun : TakingTurns start start (0 + events.count (.select .any)) := by
    refine ⟨size ▸ fits, ⟨[], rfl, ?_⟩, ⟨[], rfl, fun _ absurd => nomatch absurd⟩⟩
    apply Sweeping.start start.nextIdx.toNat_lt
    rw [size, Nat.zero_add]
    exact enough
  have taken := begun.runFrom plain reached unadmitted
  obtain ⟨fresh, handles, sweeping⟩ := taken.asked
  obtain ⟨settled, ejections, absent⟩ := taken.gone
  have asked := sweeping.all_seen taken.fits
  refine ⟨⟨fresh, handles, asked⟩, ⟨settled, ejections, absent⟩, ?_⟩
  intro failing fails address held fail
  obtain ⟨handle, member, rfl⟩ := asked address held
  obtain ⟨ejection, settles, same⟩ := fails fresh settled handles ejections handle member fail
  exact absent ejection settles (same ▸ held)

/-- A pool of two peers with nothing in flight. -/
def sweptPool : PoolState :=
  { (pool 2).initial with entries := [sampleEntry 1, sampleEntry 2] }

/-- The first peer fails, while the second one is selected over and over. -/
def sweepingEvents : List PoolEvent :=
  [.select .any, .request 0, .fail 0] ++ List.replicate 5 (.select .any)

theorem select_peer_sweeps_pool_sample
    : ∃ final, (pool 2).runFrom sweptPool sweepingEvents = some final
        ∧ final.addresses = [(sampleEntry 2).address]
        ∧ SweepsPool sweptPool final := by
  have ends
      : ((pool 2).runFrom sweptPool sweepingEvents).map (fun final =>
          (final.addresses, final.admissions))
        = some ([(sampleEntry 2).address], []) := by
    decide +kernel
  obtain ⟨final, reached, same⟩ := Option.map_eq_some_iff.mp ends
  obtain ⟨left, unadmitted⟩ := Prod.mk.inj same
  have plain : ∀ event ∈ sweepingEvents, ∀ excluded, event ≠ .select (.excluding excluded) := by
    simp [sweepingEvents]
  exact ⟨final, reached, left,
    select_peer_sweeps_pool (by decide) plain reached unadmitted (by decide +kernel)⟩

/-- Selections that exclude a peer take turns as well: alternating with them, the round robin
never reaches the second peer.
-/
example
    : ((pool 2).runFrom sweptPool
        (List.replicate 4
          [.select .any, .select (.excluding (sampleEntry 2).address)]).flatten).map
          (fun final => final.handles.map Handle.address)
      = some (List.replicate 8 (sampleEntry 1).address) := by
  decide +kernel

end ChiaQuery
