import ChiaQuery.Peer.Ejection
import ChiaQuery.Peer.LocalErrors

/-! The height a by-names or children read is dated with, which its wire response does not carry.
It is looked up by address once the answer is in, while a receiver may record further peaks and
the pool may hold another connection there.
-/

namespace ChiaQuery

open ChiaQuery.Library

/-- A `NewPeakWallet` of one session. -/
structure Announcement where
  source : FrameSource
  height : UInt32
  deriving DecidableEq, Repr

/-- What the peer of a request answered, with the peaks its session had announced by then. -/
structure PeerAnswer where
  request : Handle
  reply : Except ChiaQueryError (List CoinRecord)
  announcedBefore : List UInt32

/-- An answer with what its read made of it. -/
structure DatedAnswer where
  answer : PeerAnswer
  result : Except ChiaQueryError (HeightedSet CoinRecord)

/-- The pool with the announcements on their way to its receivers, those the receivers have
recorded, and the reads whose answers wait for a height.
-/
structure DatingState where
  pool : PoolState
  announced : List Announcement
  inbound : List Announcement
  recorded : List Announcement
  answered : List PeerAnswer
  dated : List DatedAnswer

/-- One step of the pool, of a peer, of a session's receiver or of a read. -/
inductive DatingEvent where
  | pool (event : PoolEvent)
  | announces (announcement : Announcement)
  | records (source : FrameSource)
  | answers (request : Nat) (reply : Except ChiaQueryError (List CoinRecord))
  | dates (answer : Nat)

namespace DatingState

/-- The connections, with the peaks the pool knows of their peers. -/
def wire {crates : ChiaCrates} (state : DatingState) (others : PeerWire crates)
    : PeerWire crates :=
  { others with
    announcedPeak := fun peer =>
      PeerPool.announcedPeak state.pool.entries peer.socketAddr }

/-- The peaks a session has announced. -/
def peaksOf (state : DatingState) (source : FrameSource) : List UInt32 :=
  (state.announced.filter (fun announcement => announcement.source = source)).map
    Announcement.height

end DatingState

/-- One step of the pool beside its reads. A receiver takes the announcements of its session in
their order, and a read that cannot be dated ejects its peer.
-/
def datingStep {crates : ChiaCrates} (maxPeers : Nat) (others : PeerWire crates)
    (state : DatingState)
    : DatingEvent → Option DatingState
  | .pool (.announce _ _) => none
  | .pool event =>
      (poolStep maxPeers state.pool event).map (fun pool => { state with pool })
  | .announces announcement =>
      some { state with
        announced := state.announced ++ [announcement],
        inbound := state.inbound ++ [announcement] }
  | .records source =>
      (state.inbound.find? (fun announcement => announcement.source = source)).bind
        (fun announcement =>
          (poolStep maxPeers state.pool (.announce source announcement.height)).map (fun pool =>
            { state with
              pool,
              inbound := state.inbound.erase announcement,
              recorded := announcement :: state.recorded }))
  | .answers index reply =>
      state.pool.requests[index]?.bind (fun request =>
        (poolStep maxPeers state.pool (.answer index)).map (fun pool =>
          { state with
            pool,
            answered :=
              { request, reply, announcedBefore := state.peaksOf request.source }
                :: state.answered }))
  | .dates index =>
      state.answered[index]?.map (fun answer =>
        let result :=
          PeerBackend.heightedAtPeak (state.wire others) answer.request.peer answer.reply
        { state with
          pool := if result.isOk then state.pool else state.pool.ejectFor answer.request,
          answered := state.answered.eraseIdx index,
          dated := { answer, result } :: state.dated })

/-- The run of a pool of at most `maxPeers` peers and its reads. -/
def dating {crates : ChiaCrates} (maxPeers : Nat) (others : PeerWire crates)
    : Machine DatingState DatingEvent where
  initial := {
    pool := (ChiaQuery.pool maxPeers).initial,
    announced := [],
    inbound := [],
    recorded := [],
    answered := [],
    dated := []
  }
  step := datingStep maxPeers others

/-- The height attached to the answer is at most one its session had announced before it. -/
def DatedAnswer.InTime (dated : DatedAnswer) : Prop :=
  ∀ set,
    dated.result = .ok set
    → ∃ peak ∈ dated.answer.announcedBefore, set.asOfHeight ≤ peak

instance (dated : DatedAnswer) : Decidable dated.InTime :=
  decidable_of_iff
    (∀ set ∈ dated.result.toOption,
      ∃ peak ∈ dated.answer.announcedBefore, set.asOfHeight ≤ peak)
    (forall_congr' (fun set => imp_congr_left (by cases dated.result <;> simp [Except.toOption])))

/-- The announcement is one that the session of an answer had made before the answer. -/
def PeerAnswer.Precedes (answer : PeerAnswer) (announcement : Announcement) : Prop :=
  announcement.source = answer.request.source
  ∧ announcement.height ∈ answer.announcedBefore

instance (answer : PeerAnswer) (announcement : Announcement)
    : Decidable (answer.Precedes announcement) :=
  inferInstanceAs (Decidable (_ ∧ _))

/-- When the height of an answer is looked up, no other announcement than those before the answer
has been recorded, at the connection held at its address, above all that its session had made.
-/
def NoneOvertakes (state : DatingState) : DatingEvent → Prop
  | .dates index =>
      ∀ answer ∈ state.answered[index]?,
        answer.reply.isOk = true
        → ∀ entry ∈ state.pool.entries.find? (fun entry =>
              entry.address = answer.request.peer.socketAddr),
            ∀ announcement ∈ state.recorded,
              announcement.source = entry.source
              → ¬ answer.Precedes announcement
              → ∃ peak ∈ answer.announcedBefore, announcement.height ≤ peak
  | _ => True

instance (state : DatingState) (event : DatingEvent)
    : Decidable (NoneOvertakes state event) := by
  unfold NoneOvertakes
  split <;> infer_instance

/-- The peak of every held connection is none, or one recorded of it. -/
def PeaksRecorded (entries : List PeerEntry) (recorded : List Announcement) : Prop :=
  ∀ entry ∈ entries,
    entry.lastPeak = 0 ∨ { source := entry.source, height := entry.lastPeak } ∈ recorded

/-- What every state of a run without overtaking announcements satisfies. -/
structure DatingInvariant (state : DatingState) : Prop where
  peaks : PeaksRecorded state.pool.entries state.recorded
  dated : ∀ dated ∈ state.dated, dated.InTime

------------------------------------------------------------------------------------------
-- The peaks the pool knows are those its receivers recorded
------------------------------------------------------------------------------------------

/-- The entries of a pool that has gone on without an announcement are held ones or new ones. -/
def EntriesUnraised (state next : PoolState) : Prop :=
  ∀ entry ∈ next.entries, entry ∈ state.entries ∨ entry.lastPeak = 0

section PoolSteps

variable {maxPeers : Nat} {state next : PoolState}

theorem EntriesUnraised.of_sublist (fewer : next.entries.Sublist state.entries)
    : EntriesUnraised state next :=
  fun _ held => Or.inl (fewer.subset held)

theorem EntriesChange.unraised (change : EntriesChange state next)
    : EntriesUnraised state next := by
  rcases change with ⟨fewer, -⟩ | ⟨new, silent, grown, -⟩
  · exact .of_sublist fewer
  · intro entry held
    rw [grown] at held
    rcases List.mem_append.mp held with earlier | admitted
    · exact Or.inl earlier
    · rw [List.mem_singleton.mp admitted]
      exact Or.inr silent

/-- Whatever the pool does beside its receivers raises the peak of no entry. -/
theorem entriesUnraised_of_step {event : PoolEvent}
    (silent : ∀ source height, event ≠ .announce source height)
    (stepped : poolStep maxPeers state event = some next)
    : EntriesUnraised state next := by
  cases event with
  | select =>
      cases stepped
      exact fun _ held => Or.inl held
  | request index | answer index =>
      obtain ⟨handle, -, rfl⟩ := Option.map_eq_some_iff.mp stepped
      exact fun _ held => Or.inl held
  | fail index =>
      obtain ⟨request, -, rfl⟩ := Option.map_eq_some_iff.mp stepped
      exact .of_sublist List.filter_sublist
  | _ => exact (quietChange_of_step stepped trivial silent).entries.unraised

end PoolSteps

/-- `fetch_max` stores the peak it finds, or the one it is given. -/
theorem fetchMax_eq_or (peak height : UInt32)
    : max peak height = peak ∨ max peak height = height := by
  unfold max instMaxUInt32 maxOfLe
  dsimp only
  split
  · exact Or.inr rfl
  · exact Or.inl rfl

namespace PeaksRecorded

variable {maxPeers : Nat} {recorded : List Announcement}

theorem unraised {state next : PoolState} (peaks : PeaksRecorded state.entries recorded)
    (unraised : EntriesUnraised state next)
    : PeaksRecorded next.entries recorded := by
  intro entry held
  rcases unraised entry held with kept | silent
  · exact peaks entry kept
  · exact Or.inl silent

/-- A receiver that raises an entry's peak records the announcement it raises it with. -/
theorem announce {state next : PoolState} (peaks : PeaksRecorded state.entries recorded)
    {source : FrameSource} {height : UInt32}
    (stepped : poolStep maxPeers state (.announce source height) = some next)
    : PeaksRecorded next.entries ({ source, height } :: recorded) := by
  simp only [poolStep] at stepped
  split at stepped
  · cases stepped
    intro raised held
    obtain ⟨entry, member, rfl⟩ := List.mem_map.mp held
    by_cases own : entry.source = source
    · simp only [own, if_true]
      rcases fetchMax_eq_or entry.lastPeak height with kept | new
      · simp only [kept]
        exact (peaks entry member).imp_right (fun known => List.mem_cons_of_mem _ known)
      · refine Or.inr (List.mem_cons.mpr (Or.inl ?_))
        rw [← own, new]
        rfl
    · simp only [own, if_false]
      exact (peaks entry member).imp_right (fun known => List.mem_cons_of_mem _ known)
  · cases stepped

end PeaksRecorded

------------------------------------------------------------------------------------------
-- One step, and a run
------------------------------------------------------------------------------------------

section Runs

variable {crates : ChiaCrates} {maxPeers : Nat} {others : PeerWire crates}

/-- The height a read attaches is the peak of the entry held at its peer's address. -/
theorem heightedAtPeak_inv {state : DatingState} {peer : Peer}
    {reply : Except ChiaQueryError (List CoinRecord)} {set : HeightedSet CoinRecord}
    (dated : PeerBackend.heightedAtPeak (state.wire others) peer reply = .ok set)
    : ∃ entry,
        reply.isOk = true
        ∧ state.pool.entries.find? (fun entry => entry.address = peer.socketAddr)
          = some entry
        ∧ set.asOfHeight = entry.lastPeak
        ∧ 0 < entry.lastPeak := by
  obtain ⟨items, answered, dated⟩ := bind_eq_ok_iff.mp dated
  obtain ⟨height, lookedUp, dated⟩ := bind_eq_ok_iff.mp dated
  cases dated
  unfold PeerBackend.peerAsOf at lookedUp
  cases known : (state.wire others).announcedPeak peer with
  | none =>
      rw [known] at lookedUp
      cases lookedUp
  | some peak =>
      rw [known] at lookedUp
      cases lookedUp
      obtain ⟨found, positive⟩ := Option.filter_eq_some_iff.mp known
      obtain ⟨entry, first, rfl⟩ := Option.map_eq_some_iff.mp found
      exact ⟨entry, answered ▸ rfl, first, rfl, by simpa using positive⟩

/-- An answer that nothing overtook is dated in time. -/
theorem inTime_of_noneOvertakes {state : DatingState} {index : Nat} {answer : PeerAnswer}
    (peaks : PeaksRecorded state.pool.entries state.recorded)
    (waiting : state.answered[index]? = some answer)
    (noneOvertakes : NoneOvertakes state (.dates index))
    : DatedAnswer.InTime {
        answer,
        result :=
          PeerBackend.heightedAtPeak (state.wire others) answer.request.peer answer.reply } := by
  intro set dated
  obtain ⟨entry, answered, first, height, positive⟩ := heightedAtPeak_inv dated
  have known : { source := entry.source, height := entry.lastPeak } ∈ state.recorded := by
    rcases peaks entry (List.mem_of_find?_eq_some first) with silent | known
    · rw [silent] at positive
      exact absurd positive (UInt32.lt_irrefl 0)
    · exact known
  rw [height]
  by_cases precedes : answer.Precedes { source := entry.source, height := entry.lastPeak }
  · exact ⟨entry.lastPeak, precedes.2, UInt32.le_refl _⟩
  · exact noneOvertakes answer waiting answered entry first _ known rfl precedes

theorem datingInvariant_initial : DatingInvariant (dating maxPeers others).initial where
  peaks := by simp [dating, pool, PeaksRecorded]
  dated := by simp [dating]

/-- Only a lookup dates an answer, and only a receiver raises a peak. -/
theorem DatingInvariant.step {state next : DatingState} {event : DatingEvent}
    (h : DatingInvariant state) (noneOvertakes : NoneOvertakes state event)
    (stepped : datingStep maxPeers others state event = some next)
    : DatingInvariant next := by
  cases event with
  | pool event =>
      by_cases announces : ∃ source height, event = .announce source height
      · obtain ⟨source, height, rfl⟩ := announces
        cases stepped
      · have silent : ∀ source height, event ≠ .announce source height :=
          fun source height same => announces ⟨source, height, same⟩
        have moved : (poolStep maxPeers state.pool event).map
            (fun pool => { state with pool }) = some next := by
          cases event <;> first | exact stepped | cases stepped
        obtain ⟨pool, advanced, rfl⟩ := Option.map_eq_some_iff.mp moved
        exact ⟨h.peaks.unraised (entriesUnraised_of_step silent advanced), h.dated⟩
  | announces announcement =>
      cases stepped
      exact ⟨h.peaks, h.dated⟩
  | records source =>
      obtain ⟨announcement, first, recorded⟩ := Option.bind_eq_some_iff.mp stepped
      obtain ⟨pool, raised, rfl⟩ := Option.map_eq_some_iff.mp recorded
      have own : announcement.source = source := by
        simpa using List.find?_some first
      subst own
      exact ⟨h.peaks.announce raised, h.dated⟩
  | answers index reply =>
      obtain ⟨request, -, answered⟩ := Option.bind_eq_some_iff.mp stepped
      obtain ⟨pool, settled, rfl⟩ := Option.map_eq_some_iff.mp answered
      exact ⟨h.peaks.unraised (entriesUnraised_of_step (by simp) settled), h.dated⟩
  | dates index =>
      obtain ⟨answer, waiting, rfl⟩ := Option.map_eq_some_iff.mp stepped
      refine ⟨?_, ?_⟩
      · dsimp only
        split
        · exact h.peaks
        · exact h.peaks.unraised (.of_sublist List.filter_sublist)
      · intro dated member
        rcases List.mem_cons.mp member with rfl | earlier
        · exact inTime_of_noneOvertakes h.peaks waiting noneOvertakes
        · exact h.dated dated earlier

/-- In every run in which no announcement overtakes an answer, every answer is dated at most the
highest peak its session had announced before it.
-/
theorem answers_are_dated_in_time {events : List DatingEvent} {final : DatingState}
    (noneOvertakes : (dating maxPeers others).Meets NoneOvertakes events)
    (reached : (dating maxPeers others).run events = some final)
    : ∀ dated ∈ final.dated, dated.InTime := by
  have invariant : DatingInvariant final :=
    Machine.run_invariant datingInvariant_initial
      (fun h guarded stepped => DatingInvariant.step h guarded stepped) noneOvertakes reached
  exact invariant.dated

end Runs

/-- The session of the discovered peer on the host `10.0.0.number`, `session` being its place. -/
def sampleSession (number : Nat) (session : SessionId) : FrameSource where
  address := (sampleEntry number).address
  session := session

/-- A peer's announcement that its receiver has handled. -/
def heard (source : FrameSource) (height : UInt32) : List DatingEvent :=
  [.announces { source, height }, .records source]

/-- The only peer held has announced 100 and answered a read, and then `meanwhile` comes before
its answer is dated.
-/
def readAround (meanwhile : List DatingEvent) : List DatingEvent :=
  (refillEvents (sampleDial 1)).map .pool
    ++ heard (sampleSession 1 0) 100
    ++ [.pool (.select .any), .pool (.request 0), .answers 0 (.ok [])]
    ++ meanwhile
    ++ [.dates 0]

/-- The session announces a peak below the one that it had announced before the answer. -/
def loweredMeanwhile : List DatingEvent :=
  heard (sampleSession 1 0) 90

theorem answers_are_dated_in_time_sample
    : ∃ final, (dating 1 PeerRequest.silentWire).run (readAround loweredMeanwhile) = some final
        ∧ final.dated.map (fun dated => dated.result.toOption.map HeightedSet.asOfHeight)
          = [some 100]
        ∧ ∀ dated ∈ final.dated, dated.InTime := by
  have dates : ((dating 1 PeerRequest.silentWire).run (readAround loweredMeanwhile)).map
      (fun final => final.dated.map (fun dated =>
        dated.result.toOption.map HeightedSet.asOfHeight)) = some [some 100] := by
    decide +kernel
  obtain ⟨final, reached, dated⟩ := Option.map_eq_some_iff.mp dates
  have noneOvertakes
      : (dating 1 PeerRequest.silentWire).Meets NoneOvertakes (readAround loweredMeanwhile) := by
    decide +kernel
  exact ⟨final, reached, dated, answers_are_dated_in_time noneOvertakes reached⟩

/-- The pool rotates the peer out and dials it again, and the new session announces 200. -/
def replacedMeanwhile : List DatingEvent :=
  (.pool (.cycleExpired 1000000000000) :: (refillEvents (sampleDial 1)).map .pool)
    ++ heard (sampleSession 1 1) 200

/-- An answer is dated with what its session announced later, and one with what another session
did that the pool has come to hold at its address.
-/
theorem overtaking_announcements_date_answers
    : (∃ final,
        (dating 1 PeerRequest.silentWire).run (readAround (heard (sampleSession 1 0) 200))
            = some final
          ∧ ¬ ∀ dated ∈ final.dated, dated.InTime)
      ∧ ∃ final,
          (dating 1 PeerRequest.silentWire).run (readAround replacedMeanwhile) = some final
          ∧ ¬ ∀ dated ∈ final.dated, dated.InTime := by
  have overtaken {meanwhile : List DatingEvent}
      (late
        : ((dating 1 PeerRequest.silentWire).run (readAround meanwhile)).any (fun final =>
            !decide (∀ dated ∈ final.dated, dated.InTime)) = true)
      : ∃ final,
          (dating 1 PeerRequest.silentWire).run (readAround meanwhile) = some final
          ∧ ¬ ∀ dated ∈ final.dated, dated.InTime := by
    obtain ⟨final, reached, notInTime⟩ := (Option.any_eq_true _ _).mp late
    exact ⟨final, reached, by simpa using notInTime⟩
  exact ⟨overtaken (by decide +kernel), overtaken (by decide +kernel)⟩

end ChiaQuery
