import ChiaQuery.Library.GuardedRuns
import ChiaQuery.Peer.DialRound
import ChiaQuery.Peer.Maintenance

/-! The pool with everything that changes it at once: fill rounds and refills that admit what
they dialled against an earlier view of the pool, the four removals, and the requests that eject
the peer they fail at. Each step is one lock taken or one message handled.
-/

namespace ChiaQuery

open ChiaQuery.Library

/-- `Connected`, with the inbound frames left to the fan-out. -/
structure Connected where
  peer : Peer
  address : SocketAddr
  origin : PeerOrigin
  deriving DecidableEq, Repr

/-- A task of the pool, by how far it has come. `rounds` counts the fill rounds still owed, and
a refill admits its one connection as a round that owes none.
-/
inductive PoolTask where
  | filling (rounds : Nat)
  | dialling (rounds : Nat) (held : List SocketAddr) (wanted : Nat)
  | refilling (held : List SocketAddr)
  | admitting (rounds admitted : Nat) (queue : List Connected)
  | offering (rounds admitted : Nat) (queue : List Connected) (connection : Connected)
      (session : SessionId)
  | opening (rounds admitted : Nat) (queue : List Connected) (source : FrameSource)
  | sweeping (dead : List FrameSource)
  deriving DecidableEq, Repr

/-- What a selection hands out. `session` and `takenAt` record which connection it is the handle
of, and how many the pool had admitted by then.
-/
structure Handle where
  peer : Peer
  address : SocketAddr
  session : SessionId
  takenAt : Nat
  deriving DecidableEq, Repr

def Handle.source (handle : Handle) : FrameSource where
  address := handle.address
  session := handle.session

/-- The three selections of the pool. -/
inductive Selection where
  | any
  | excluding (excluded : SocketAddr)
  | corroborating (asked : SocketAddr)
  deriving DecidableEq, Repr

/-- A request that failed, and the sessions its ejection removed. -/
structure Ejection where
  request : Handle
  removed : List FrameSource
  deriving DecidableEq, Repr

/-- The pool, its tasks, the handles given out and the requests in flight on them. `allocated`
counts the sessions allocated, `admissions` lists the sessions admitted in their order, and
`ejections` what each failed request removed.
-/
structure PoolState where
  entries : List PeerEntry
  nextIdx : UInt64
  nextSession : UInt64
  following : List FrameSource
  deadSessions : List FrameSource
  tasks : List PoolTask
  handles : List Handle
  requests : List Handle
  allocated : Nat
  admissions : List FrameSource
  ejections : List Ejection
  deriving DecidableEq, Repr

/-- One step of one task, or of the pool's callers and peers. A task is named by its place in
the list of tasks; `now` is the time an admission or a rotation reads.
-/
inductive PoolEvent where
  | startFill
  | startRefill
  | startSweep
  | advance (task now : Nat)
  | dialled (task : Nat) (results : List (DialCandidate Connected))
  | evictLagging
  | cycleExpired (now : Nat)
  | announce (source : FrameSource) (height : UInt32)
  | sessionEnds (source : FrameSource)
  | select (selection : Selection)
  | request (handle : Nat)
  | answer (request : Nat)
  | fail (request : Nat)
  deriving DecidableEq, Repr

namespace PoolState

/-- The task goes on from its next stage. -/
def resume (state : PoolState) (task : PoolTask) : PoolState :=
  { state with tasks := task :: state.tasks }

/-- The entry a connection is held as. -/
def entryFor (connection : Connected) (session : SessionId) (now : Nat) : PeerEntry where
  peer := connection.peer
  address := connection.address
  session := session
  origin := connection.origin
  lastPeak := 0
  admittedAt := now

/-- One stage of a task that the state no longer lists. A dial in progress has none. -/
def advance (maxPeers now : Nat) (state : PoolState) : PoolTask → Option PoolState
  | .filling 0 => some state
  | .filling (rounds + 1) =>
      let held := state.entries.map PeerEntry.address
      let wanted := maxPeers - held.length
      if wanted = 0 then some state else some (state.resume (.dialling rounds held wanted))
  | .dialling _ _ _ => none
  | .refilling _ => none
  | .admitting rounds admitted [] =>
      if admitted = 0 then some state else some (state.resume (.filling rounds))
  | .admitting rounds admitted (connection :: queue) =>
      some ({ state with
        nextSession := state.nextSession + 1,
        allocated := state.allocated + 1 }.resume
          (.offering rounds admitted queue connection state.nextSession))
  | .offering rounds admitted queue connection session =>
      let entry := entryFor connection session now
      match PeerPool.admitEntry maxPeers state.entries entry with
      | none => some (state.resume (.admitting rounds admitted queue))
      | some entries =>
          some ({ state with
            entries,
            admissions := state.admissions ++ [entry.source] }.resume
              (.opening rounds admitted queue entry.source))
  | .opening rounds admitted queue source =>
      some ({ state with following := source :: state.following }.resume
        (.admitting rounds (admitted + 1) queue))
  | .sweeping dead =>
      some { state with entries := PeerPool.ejectDeadSessions state.entries dead }

/-- The dials of a task return. They were told to leave out what the pool held before them. -/
def receiveDials (state : PoolState) (results : List (DialCandidate Connected))
    : PoolTask → Option PoolState
  | .dialling rounds held wanted =>
      if results.length ≤ dialsFor wanted ∧ ∀ result ∈ results, result.address ∉ held then
        some (state.resume (.admitting rounds 0
          ((mostCredible results wanted).map DialCandidate.connection)))
      else none
  | .refilling held =>
      if results.length ≤ 1 ∧ ∀ result ∈ results, result.address ∉ held then
        some (state.resume (.admitting 0 0 (results.map DialCandidate.connection)))
      else none
  | _ => none

/-- What a selection chooses. -/
def chosen (state : PoolState) : Selection → List (Peer × SocketAddr)
  | .any => (PeerPool.selectPeer state.entries state.nextIdx).toList
  | .excluding excluded =>
      (PeerPool.selectPeerExcluding state.entries state.nextIdx excluded).toList
  | .corroborating asked => PeerPool.selectCorroboratingPeers state.entries asked

/-- Both round-robin selections count the choice they make. -/
def countSelection (state : PoolState) : Selection → UInt64
  | .corroborating _ => state.nextIdx
  | selection => if state.chosen selection = [] then state.nextIdx else state.nextIdx + 1

/-- The handle of a chosen peer, with the session of the entry it was chosen from. -/
def handleOf (state : PoolState) (choice : Peer × SocketAddr) : Option Handle :=
  (state.entries.find? (fun entry => entry.address = choice.2)).map (fun entry =>
    {
      peer := choice.1,
      address := choice.2,
      session := entry.session,
      takenAt := state.admissions.length
    })

/-- `eject_peer` at the address of a request that failed. -/
def ejectFor (state : PoolState) (request : Handle) : PoolState :=
  let remaining := PeerPool.ejectPeer state.entries request.address
  let removed := (state.entries.filter (fun entry => entry ∉ remaining)).map PeerEntry.source
  { state with
    entries := remaining,
    ejections := { request, removed } :: state.ejections }

end PoolState

open PoolState in
/-- One step of the pool. A step that names a task, a handle, a request or a session that is not
there is not enabled.
-/
def poolStep (maxPeers : Nat) (state : PoolState) : PoolEvent → Option PoolState
  | .startFill => some (state.resume (.filling fillRounds))
  | .startRefill =>
      if maxPeers ≤ state.entries.length then some state
      else some (state.resume (.refilling (state.entries.map PeerEntry.address)))
  | .startSweep =>
      some ({ state with deadSessions := [] }.resume (.sweeping state.deadSessions))
  | .advance index now =>
      state.tasks[index]?.bind (fun task =>
        advance maxPeers now { state with tasks := state.tasks.eraseIdx index } task)
  | .dialled index results =>
      state.tasks[index]?.bind (fun task =>
        receiveDials { state with tasks := state.tasks.eraseIdx index } results task)
  | .evictLagging =>
      some { state with entries := (PeerPool.evictLaggingPeers state.entries).1 }
  | .cycleExpired now =>
      some { state with entries := (PeerPool.cycleExpiredPeers state.entries now).1 }
  | .announce source height =>
      if source ∈ state.following then
        some { state with
          entries := state.entries.map (fun entry =>
            if entry.source = source then { entry with lastPeak := max entry.lastPeak height }
            else entry) }
      else none
  | .sessionEnds source =>
      if source ∈ state.following then
        some { state with
          following := state.following.erase source,
          deadSessions := state.deadSessions ++ [source] }
      else none
  | .select selection =>
      some { state with
        nextIdx := state.countSelection selection,
        handles := (state.chosen selection).filterMap state.handleOf ++ state.handles }
  | .request index =>
      state.handles[index]?.map (fun handle =>
        { state with requests := handle :: state.requests })
  | .answer index =>
      state.requests[index]?.map (fun _ =>
        { state with requests := state.requests.eraseIdx index })
  | .fail index =>
      state.requests[index]?.map (fun request =>
        { state with requests := state.requests.eraseIdx index }.ejectFor request)

/-- The run of a pool of at most `maxPeers` peers, which starts empty. -/
def pool (maxPeers : Nat) : Machine PoolState PoolEvent where
  initial := {
    entries := [],
    nextIdx := 0,
    nextSession := 0,
    following := [],
    deadSessions := [],
    tasks := [],
    handles := [],
    requests := [],
    allocated := 0,
    admissions := [],
    ejections := []
  }
  step := poolStep maxPeers

/-- A dial that reached the discovered peer at `10.0.0.number`. -/
def sampleDial (number : Nat) : DialCandidate Connected :=
  let entry := sampleEntry number
  {
    origin := entry.origin,
    address := entry.address,
    handshake := number,
    connection := { peer := entry.peer, address := entry.address, origin := entry.origin }
  }

/-- A refill that runs alone, from its snapshot to the end of its task. -/
def refillEvents (result : DialCandidate Connected) : List PoolEvent :=
  [.startRefill, .dialled 0 [result]] ++ List.replicate 5 (.advance 0 0)

end ChiaQuery
