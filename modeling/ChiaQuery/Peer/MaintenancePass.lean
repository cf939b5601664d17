import ChiaQuery.Peer.Maintenance

/-! One maintenance pass of the pool before it refills: the removals by a session's end, by lag
and by age, each judging what the one before it has left.
-/

namespace ChiaQuery

open ChiaQuery.Library

namespace PeerPool

/-- `maintain` before its refill, for the session ends recorded by then. -/
def maintain (entries : List PeerEntry) (dead : List FrameSource) (now : Nat)
    : List PeerEntry :=
  (cycleExpiredPeers (evictLaggingPeers (ejectDeadSessions entries dead)).1 now).1

/-- The entry's own session is among those that ended. -/
def sessionEnded (dead : List FrameSource) (entry : PeerEntry) : Bool :=
  entry.source ∈ dead

/-- A discovered entry has announced a peak too far below the reference over `entries`. -/
def trails (entries : List PeerEntry) (entry : PeerEntry) : Bool :=
  match lagReference entries with
  | none => false
  | some reference =>
      entry.origin = .discovered
        && 0 < entry.lastPeak
        && entry.lastPeak.toNat + peakLagEviction.toNat < reference.toNat

/-- A discovered entry has been held for its lifetime. -/
def outlived (now : Nat) (entry : PeerEntry) : Bool :=
  entry.origin = .discovered && peerLifetime ≤ now - entry.admittedAt

/-- The entries whose sessions have not ended. -/
def liveEntries (entries : List PeerEntry) (dead : List FrameSource) : List PeerEntry :=
  entries.filter (fun entry => !sessionEnded dead entry)

/-- The live entries that do not trail the others. -/
def currentEntries (entries : List PeerEntry) (dead : List FrameSource) : List PeerEntry :=
  (liveEntries entries dead).filter (fun entry => !trails (liveEntries entries dead) entry)

/-- Some oldest of the entries that have outlived their time is taken out of the list. -/
def RotatesOldest (entries : List PeerEntry) (now : Nat) (after : List PeerEntry) : Prop :=
  ∃ before oldest behind,
    entries = before ++ oldest :: behind
    ∧ after = before ++ behind
    ∧ outlived now oldest = true
    ∧ ∀ entry ∈ entries, outlived now entry = true → oldest.admittedAt ≤ entry.admittedAt

/-- What a maintenance pass leaves of a pool: the live entries that do not trail, less one
oldest of those that have outlived their time; and every entry that none of this concerns.
-/
structure RemovesExactly (entries : List PeerEntry) (dead : List FrameSource) (now : Nat)
    (after : List PeerEntry)
    : Prop where
  allInTime
    : (∀ entry ∈ currentEntries entries dead, outlived now entry = false)
      → after = currentEntries entries dead
  oneExpired
    : (∃ entry ∈ currentEntries entries dead, outlived now entry = true)
      → RotatesOldest (currentEntries entries dead) now after
  inOrder : after.Sublist entries
  priority
    : after.filter (fun entry => entry.origin = .priority)
      = entries.filter (fun entry =>
          entry.origin = .priority && !sessionEnded dead entry)
  replacements
    : ∀ ended ∈ dead,
        after.filter (fun entry => entry.address = ended.address && !outlived now entry)
        = entries.filter (fun entry =>
            entry.address = ended.address
              && !sessionEnded dead entry
              && !trails (liveEntries entries dead) entry
              && !outlived now entry)
  others
    : after.filter (fun entry => !outlived now entry)
      = entries.filter (fun entry =>
          !sessionEnded dead entry
            && !trails (liveEntries entries dead) entry
            && !outlived now entry)

variable {entries after : List PeerEntry} {dead : List FrameSource} {now : Nat}

------------------------------------------------------------------------------------------
-- Ended sessions and trailing peers
------------------------------------------------------------------------------------------

theorem ejectDeadSessions_eq (entries : List PeerEntry) (dead : List FrameSource)
    : ejectDeadSessions entries dead = liveEntries entries dead := by
  refine List.filter_congr (fun entry _ => congrArg (!·) ?_)
  rw [Bool.eq_iff_iff, sessionEnded, decide_eq_true_eq, List.any_eq_true]
  constructor
  · rintro ⟨ended, member, same⟩
    simp only [Bool.and_eq_true, decide_eq_true_eq] at same
    have source : entry.source = ended := by
      cases ended
      simpa [PeerEntry.source] using ⟨same.1.symm, same.2.symm⟩
    exact source ▸ member
  · intro member
    exact ⟨entry.source, member, by simp [PeerEntry.source]⟩

/-- The retain test compares heights as numbers: no subtraction wraps. -/
theorem isLagging_eq (reference : UInt32) (entry : PeerEntry)
    : isLagging reference entry
      = (entry.origin = .discovered
          && 0 < entry.lastPeak
          && entry.lastPeak.toNat + peakLagEviction.toNat < reference.toNat) := by
  have far : peakLagEviction < saturatingSub reference entry.lastPeak
      ↔ entry.lastPeak.toNat + peakLagEviction.toNat < reference.toNat := by
    rw [UInt32.lt_iff_toNat_lt, saturatingSub_toNat]
    omega
  simp only [isLagging, far]

theorem evictLaggingPeers_eq (entries : List PeerEntry)
    : (evictLaggingPeers entries).1 = entries.filter (fun entry => !trails entries entry) := by
  cases found : lagReference entries with
  | none =>
      have judged := found
      rw [lagReference] at judged
      simp [evictLaggingPeers, judged, trails, found]
  | some reference =>
      rw [evictLaggingPeers_of_reference found]
      refine List.filter_congr (fun entry _ => ?_)
      simp only [trails, found, isLagging_eq]

------------------------------------------------------------------------------------------
-- The oldest entry
------------------------------------------------------------------------------------------

/-- The comparison keeps one of the entries, and none of them is older. Induction on the
entries after the first.
-/
theorem foldl_older (first : PeerEntry × Nat) (rest : List (PeerEntry × Nat))
    : rest.foldl older first ∈ first :: rest
      ∧ ∀ item ∈ first :: rest,
          (rest.foldl older first).1.admittedAt ≤ item.1.admittedAt := by
  induction rest generalizing first with
  | nil => simp
  | cons second rest ih =>
      obtain ⟨member, least⟩ := ih (older first second)
      have chosen : older first second = first ∨ older first second = second := by
        unfold older
        split
        · exact Or.inr rfl
        · exact Or.inl rfl
      have atMost : (older first second).1.admittedAt ≤ first.1.admittedAt
          ∧ (older first second).1.admittedAt ≤ second.1.admittedAt := by
        unfold older
        split <;> omega
      have below := least _ List.mem_cons_self
      rw [List.foldl_cons]
      constructor
      · rcases List.mem_cons.mp member with same | later
        · rcases chosen with one | other
          · exact List.mem_cons.mpr (Or.inl (same.trans one))
          · rw [same, other]
            simp
        · exact List.mem_cons_of_mem _ (List.mem_cons_of_mem _ later)
      · intro item listed
        rcases List.mem_cons.mp listed with rfl | listed
        · exact Nat.le_trans below atMost.1
        · rcases List.mem_cons.mp listed with rfl | later
          · exact Nat.le_trans below atMost.2
          · exact least item (List.mem_cons_of_mem _ later)

/-- An entry that has outlived its time, with its position, passes the test of the pass. -/
theorem mem_expired {item : PeerEntry × Nat}
    : item ∈ entries.zipIdx.filter (fun item =>
          item.1.origin = .discovered && peerLifetime ≤ now - item.1.admittedAt)
      ↔ entries[item.2]? = some item.1 ∧ outlived now item.1 = true := by
  rw [List.mem_filter, List.mem_zipIdx_iff_getElem?]
  rfl

theorem oldestExpired_eq_none_iff
    : oldestExpired entries now = none ↔ ∀ entry ∈ entries, outlived now entry = false := by
  have none_expired : oldestExpired entries now = none
      ↔ entries.zipIdx.filter (fun item =>
          item.1.origin = .discovered && peerLifetime ≤ now - item.1.admittedAt) = [] := by
    unfold oldestExpired
    split
    · rename_i empty
      simp [empty]
    · rename_i found
      simp [found]
  rw [none_expired, List.eq_nil_iff_forall_not_mem]
  constructor
  · intro nobody entry member
    obtain ⟨index, found⟩ := List.mem_iff_getElem?.mp member
    by_contra expired
    exact nobody (entry, index) (mem_expired.mpr ⟨found, by simpa using expired⟩)
  · intro inTime item expired
    obtain ⟨found, old⟩ := mem_expired.mp expired
    rw [inTime item.1 (List.mem_of_getElem? found)] at old
    cases old

theorem oldestExpired_spec {entry : PeerEntry} {index : Nat}
    (found : oldestExpired entries now = some (entry, index))
    : entries[index]? = some entry
      ∧ outlived now entry = true
      ∧ ∀ other ∈ entries, outlived now other = true → entry.admittedAt ≤ other.admittedAt := by
  unfold oldestExpired at found
  split at found
  · cases found
  · rename_i first rest expired
    obtain ⟨member, least⟩ := foldl_older first rest
    rw [Option.some.inj found, ← expired] at member
    obtain ⟨held, old⟩ := mem_expired.mp member
    refine ⟨held, old, fun other otherMember otherOld => ?_⟩
    obtain ⟨position, at_position⟩ := List.mem_iff_getElem?.mp otherMember
    have listed := mem_expired.mpr
      (show entries[(other, position).2]? = some (other, position).1
          ∧ outlived now (other, position).1 = true from ⟨at_position, otherOld⟩)
    rw [expired] at listed
    have below := least _ listed
    rwa [Option.some.inj found] at below

/-- Rotation takes out one oldest entry when any has outlived its time, and nothing else. -/
theorem cycleExpiredPeers_cases (entries : List PeerEntry) (now : Nat)
    : (∀ entry ∈ entries, outlived now entry = false)
        ∧ (cycleExpiredPeers entries now).1 = entries
      ∨ RotatesOldest entries now (cycleExpiredPeers entries now).1 := by
  cases found : oldestExpired entries now with
  | none =>
      refine Or.inl ⟨oldestExpired_eq_none_iff.mp found, ?_⟩
      simp only [cycleExpiredPeers, found]
  | some oldest =>
      obtain ⟨entry, index⟩ := oldest
      obtain ⟨held, old, least⟩ := oldestExpired_spec found
      obtain ⟨inside, same⟩ := List.getElem?_eq_some_iff.mp held
      refine Or.inr ⟨entries.take index, entry, entries.drop (index + 1), ?_, ?_, old, least⟩
      · rw [← same, ← List.drop_eq_getElem_cons inside, List.take_append_drop]
      · simp only [cycleExpiredPeers, found, List.eraseIdx_eq_take_drop_succ]

/-- Whoever has not outlived its time stays where it is. -/
theorem RotatesOldest.filter_kept {kept : PeerEntry → Bool}
    (rotated : RotatesOldest entries now after)
    (inTime : ∀ entry ∈ entries, kept entry = true → outlived now entry = false)
    : after.filter kept = entries.filter kept := by
  obtain ⟨before, oldest, behind, rfl, rfl, old, -⟩ := rotated
  have gone : kept oldest = false := by
    by_contra held
    have young := inTime oldest (by simp) (by simpa using held)
    rw [old] at young
    cases young
  simp [gone]

------------------------------------------------------------------------------------------
-- The pass
------------------------------------------------------------------------------------------

/-- Entries that are kept by every test for who they are stay through the whole pass. -/
theorem maintain_filter {kept : PeerEntry → Bool}
    (inTime : ∀ entry, kept entry = true → outlived now entry = false)
    : (maintain entries dead now).filter kept
      = entries.filter (fun entry =>
          kept entry
            && (!sessionEnded dead entry && !trails (liveEntries entries dead) entry)) := by
  have rotation : (maintain entries dead now).filter kept
      = (currentEntries entries dead).filter kept := by
    rw [maintain, ejectDeadSessions_eq, evictLaggingPeers_eq, ← currentEntries]
    rcases cycleExpiredPeers_cases (currentEntries entries dead) now with ⟨-, same⟩ | rotated
    · rw [same]
    · exact rotated.filter_kept (fun entry _ => inTime entry)
  rw [rotation, currentEntries, List.filter_filter]
  nth_rewrite 2 [liveEntries]
  rw [List.filter_filter]
  refine List.filter_congr (fun entry _ => ?_)
  cases kept entry <;> cases sessionEnded dead entry <;> simp

theorem trails_priority {entry : PeerEntry} (priority : entry.origin = .priority)
    (entries : List PeerEntry)
    : trails entries entry = false := by
  unfold trails
  split
  · rfl
  · simp [priority]

/-- For every pool state, every set of recorded session ends and every time, the pass removes
exactly what it should.
-/
theorem maintain_removes_exactly (entries : List PeerEntry) (dead : List FrameSource)
    (now : Nat)
    : RemovesExactly entries dead now (maintain entries dead now) := by
  have stages : maintain entries dead now
      = (cycleExpiredPeers (currentEntries entries dead) now).1 := by
    rw [maintain, ejectDeadSessions_eq, evictLaggingPeers_eq, ← currentEntries]
  constructor
  · intro inTime
    rcases cycleExpiredPeers_cases (currentEntries entries dead) now with ⟨-, same⟩ | rotated
    · exact stages.trans same
    · obtain ⟨before, oldest, behind, split, -, old, -⟩ := rotated
      rw [inTime oldest (by simp [split])] at old
      cases old
  · rintro ⟨entry, member, old⟩
    rcases cycleExpiredPeers_cases (currentEntries entries dead) now with ⟨inTime, -⟩ | rotated
    · rw [inTime entry member] at old
      cases old
    · exact stages ▸ rotated
  · exact (cycleExpiredPeers_sublist _ _).trans
      ((evictLaggingPeers_sublist _).trans (ejectDeadSessions_sublist _ _))
  · rw [maintain_filter (by simp +contextual [outlived])]
    refine List.filter_congr (fun entry _ => ?_)
    by_cases priority : entry.origin = .priority
    · simp [priority, trails_priority priority]
    · simp [priority]
  · intro ended _
    rw [maintain_filter (by simp +contextual)]
    refine List.filter_congr (fun entry _ => ?_)
    cases outlived now entry <;> simp [Bool.and_assoc]
  · rw [maintain_filter (by simp)]
    refine List.filter_congr (fun entry _ => ?_)
    cases outlived now entry <;> simp

end PeerPool

end ChiaQuery
