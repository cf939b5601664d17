import ChiaQuery.Library.LowerMedian
import ChiaQuery.Peer.PoolEntries
import Mathlib.Data.List.MinMax

/-! Eviction of the discovered peers that trail the pool's reference peak, pass after pass.
The reference is a lower median over the discovered peers that have spoken, so a hostile half of
them cannot lift it over an honest peer.
-/

namespace ChiaQuery

open ChiaQuery.Library

/-- `u32::saturating_sub`. -/
def saturatingSub (left right : UInt32) : UInt32 :=
  if right ≤ left then left - right else 0

theorem saturatingSub_toNat (left right : UInt32)
    : (saturatingSub left right).toNat = left.toNat - right.toNat := by
  unfold saturatingSub
  split
  · rename_i le
    exact UInt32.toNat_sub_of_le left right le
  · rename_i more
    have below : left.toNat < right.toNat := UInt32.lt_iff_toNat_lt.mp (Std.not_le.mp more)
    simp only [UInt32.toNat_zero]
    omega

/-- `reference_peak`. -/
def referencePeak (announced : List UInt32) : Option UInt32 :=
  if announced.isEmpty then none else lowerMedian announced

/-- The reference is an announced peak, the same in every order. Liars that are at most half of
the peaks do not lift it over the largest honest one, and liars that are fewer do not push it
under the smallest.
-/
structure ReferenceBounded (announced : List UInt32) : Prop where
  announcedOnly : ∀ reference, referencePeak announced = some reference → reference ∈ announced
  missing : referencePeak announced = none ↔ announced = []
  unordered : ∀ other, other.Perm announced → referencePeak other = referencePeak announced
  upper
    : ∀ honest liars reference,
        announced.Perm (honest ++ liars)
        → 2 * liars.length ≤ announced.length
        → referencePeak announced = some reference
        → ∃ largest ∈ honest, (∀ peak ∈ honest, peak ≤ largest) ∧ reference ≤ largest
  lower
    : ∀ honest liars reference,
        announced.Perm (honest ++ liars)
        → 2 * liars.length < announced.length
        → referencePeak announced = some reference
        → ∃ smallest ∈ honest, (∀ peak ∈ honest, smallest ≤ peak) ∧ smallest ≤ reference

theorem referencePeak_eq (announced : List UInt32)
    : referencePeak announced = lowerMedian announced := by
  cases announced with
  | nil => simp [referencePeak, lowerMedian, ascending]
  | cons first rest => rfl

/-- Peaks of which there is one have a largest one. -/
theorem exists_largest_peak {peaks : List UInt32} {peak : UInt32} (member : peak ∈ peaks)
    : ∃ largest ∈ peaks, ∀ other ∈ peaks, other ≤ largest := by
  cases found : peaks.argmax UInt32.toNat with
  | none =>
      rw [List.argmax_eq_none.mp found] at member
      cases member
  | some largest =>
      refine ⟨largest, List.argmax_mem found, fun other held => ?_⟩
      exact UInt32.le_iff_toNat_le.mpr (List.le_of_mem_argmax held found)

/-- Peaks of which there is one have a smallest one. -/
theorem exists_smallest_peak {peaks : List UInt32} {peak : UInt32} (member : peak ∈ peaks)
    : ∃ smallest ∈ peaks, ∀ other ∈ peaks, smallest ≤ other := by
  cases found : peaks.argmin UInt32.toNat with
  | none =>
      rw [List.argmin_eq_none.mp found] at member
      cases member
  | some smallest =>
      refine ⟨smallest, List.argmin_mem found, fun other held => ?_⟩
      exact UInt32.le_iff_toNat_le.mpr (List.le_of_mem_argmin held found)

theorem referencePeak_bounded (announced : List UInt32) : ReferenceBounded announced where
  announcedOnly := by
    intro reference found
    rw [referencePeak_eq] at found
    exact lowerMedian_mem found
  missing := by
    constructor
    · intro absent
      by_contra nonempty
      obtain ⟨median, found⟩ := exists_lowerMedian nonempty
      rw [referencePeak_eq, found] at absent
      cases absent
    · rintro rfl
      rfl
  unordered := by
    intro other perm
    rw [referencePeak_eq, referencePeak_eq]
    exact lowerMedian_perm perm
  upper := by
    intro honest liars reference split half found
    rw [referencePeak_eq] at found
    obtain ⟨peak, member, reaches⟩ := exists_ge_lowerMedian found split half
    obtain ⟨largest, inside, most⟩ := exists_largest_peak member
    exact ⟨largest, inside, most, Std.le_trans reaches (most peak member)⟩
  lower := by
    intro honest liars reference split fewer found
    rw [referencePeak_eq] at found
    obtain ⟨peak, member, within⟩ := exists_le_lowerMedian found split fewer
    obtain ⟨smallest, inside, least⟩ := exists_smallest_peak member
    exact ⟨smallest, inside, least, Std.le_trans (least peak member) within⟩

namespace PeerPool

/-- Discovered and heard from: such a peer votes on the reference and may be evicted by it. -/
def votesOnLag (entry : PeerEntry) : Bool :=
  entry.origin = .discovered && 0 < entry.lastPeak

/-- The retain test of `evict_lagging_peers`, for the reference it judges by. -/
def isLagging (reference : UInt32) (entry : PeerEntry) : Bool :=
  entry.origin = .discovered && 0 < entry.lastPeak
    && peakLagEviction < saturatingSub reference entry.lastPeak

/-- `evict_lagging_peers`: what the pool holds after the pass, and the addresses removed. -/
def evictLaggingPeers (entries : List PeerEntry) : List PeerEntry × List SocketAddr :=
  let announced := ((entries.filter (fun entry => entry.origin = .discovered)).map
    PeerEntry.lastPeak).filter (fun peak => 0 < peak)
  match referencePeak announced with
  | none => (entries, [])
  | some reference =>
      (entries.filter (fun entry => !isLagging reference entry),
        (entries.filter (isLagging reference)).map PeerEntry.address)

/-- The reference `evict_lagging_peers` judges by, none while no discovered peer has spoken. -/
def lagReference (entries : List PeerEntry) : Option UInt32 :=
  referencePeak (((entries.filter (fun entry => entry.origin = .discovered)).map
    PeerEntry.lastPeak).filter (fun peak => 0 < peak))

/-- What the pool holds after a number of lag passes with no other change in between. -/
def lagPasses (entries : List PeerEntry) : Nat → List PeerEntry
  | 0 => entries
  | passes + 1 => (evictLaggingPeers (lagPasses entries passes)).1

/-- At most half of the peers that vote are marked hostile. -/
def HostileAtMostHalf (hostile : PeerEntry → Bool) (entries : List PeerEntry) : Prop :=
  2 * entries.countP (fun entry => votesOnLag entry && hostile entry)
    ≤ entries.countP votesOnLag

/-- The announced discovered peaks of the peers not marked hostile lie within the bar. -/
def HonestAgree (hostile : PeerEntry → Bool) (entries : List PeerEntry) : Prop :=
  ∀ low ∈ entries, votesOnLag low = true → hostile low = false →
    ∀ high ∈ entries, votesOnLag high = true → hostile high = false →
      high.lastPeak.toNat ≤ low.lastPeak.toNat + peakLagEviction.toNat

variable {entries : List PeerEntry} {hostile : PeerEntry → Bool}

/-- The peaks that vote are those of the voting entries. -/
theorem announced_eq (entries : List PeerEntry)
    : ((entries.filter (fun entry => entry.origin = .discovered)).map
          PeerEntry.lastPeak).filter (fun peak => 0 < peak)
      = (entries.filter votesOnLag).map PeerEntry.lastPeak := by
  rw [List.filter_map, List.filter_filter]
  congr 2
  funext entry
  simp [votesOnLag, Bool.and_comm]

theorem evictLaggingPeers_of_reference {reference : UInt32}
    (judged : lagReference entries = some reference)
    : (evictLaggingPeers entries).1
      = entries.filter (fun entry => !isLagging reference entry) := by
  unfold lagReference at judged
  simp only [evictLaggingPeers, judged]

/-- One pass keeps the pool, or drops what lags behind the lower median of the voting peaks. -/
theorem evictLaggingPeers_cases (entries : List PeerEntry)
    : (evictLaggingPeers entries).1 = entries
      ∨ ∃ reference,
          lowerMedian ((entries.filter votesOnLag).map PeerEntry.lastPeak) = some reference
          ∧ (evictLaggingPeers entries).1
            = entries.filter (fun entry => !isLagging reference entry) := by
  simp only [evictLaggingPeers, announced_eq, referencePeak]
  split
  · exact Or.inl rfl
  · rename_i reference found
    split at found
    · cases found
    · exact Or.inr ⟨reference, found, rfl⟩

/-- A peer that lags votes, and its peak is below the reference by more than the bar. -/
theorem votesOnLag_of_isLagging {reference : UInt32} {entry : PeerEntry}
    (h : isLagging reference entry = true)
    : votesOnLag entry = true
      ∧ entry.lastPeak.toNat + peakLagEviction.toNat < reference.toNat := by
  simp only [isLagging, Bool.and_eq_true, decide_eq_true_eq] at h
  obtain ⟨voter, trailing⟩ := h
  have far := UInt32.lt_iff_toNat_lt.mp trailing
  rw [saturatingSub_toNat] at far
  refine ⟨?_, by omega⟩
  simpa [votesOnLag] using voter

/-- A filter that keeps every entry of a kind leaves the entries of that kind as they are. -/
theorem filter_kind_of_kept {kind kept : PeerEntry → Bool}
    (h : ∀ entry ∈ entries, kind entry = true → kept entry = true)
    : (entries.filter kept).filter kind = entries.filter kind := by
  rw [List.filter_filter]
  refine List.filter_congr ?_
  intro entry member
  cases hkind : kind entry with
  | false => simp
  | true => simp [h entry member hkind]

/-- A pass leaves everyone who has no vote in place: priority peers and silent ones. -/
theorem evictLaggingPeers_keeps_voiceless (entries : List PeerEntry)
    : (evictLaggingPeers entries).1.filter (fun entry => !votesOnLag entry)
      = entries.filter (fun entry => !votesOnLag entry) := by
  rcases evictLaggingPeers_cases entries with same | ⟨reference, -, dropped⟩
  · rw [same]
  · rw [dropped]
    apply filter_kind_of_kept
    intro entry _ voiceless
    cases lagging : isLagging reference entry with
    | false => rfl
    | true =>
        have voter := (votesOnLag_of_isLagging lagging).1
        simp [voter] at voiceless

/-- While the hostile voters do not outnumber the honest ones, an honest voter's peak is at
least the reference: more than half of the voters are, so they are not all hostile.
-/
theorem exists_honest_of_lowerMedian {reference : UInt32}
    (minority : HostileAtMostHalf hostile entries)
    (median
      : lowerMedian ((entries.filter votesOnLag).map PeerEntry.lastPeak) = some reference)
    : ∃ entry ∈ entries, votesOnLag entry = true ∧ hostile entry = false
        ∧ reference ≤ entry.lastPeak := by
  by_contra noneHigh
  have above := length_lt_two_mul_countP_of_lowerMedian median
  rw [List.length_map, List.countP_map, List.countP_filter, ← List.countP_eq_length_filter]
    at above
  have hostileOnly : entries.countP (fun entry =>
        ((fun peak => decide (reference ≤ peak)) ∘ PeerEntry.lastPeak) entry
          && votesOnLag entry)
      ≤ entries.countP (fun entry => votesOnLag entry && hostile entry) := by
    apply List.countP_mono_left
    intro entry held high
    simp only [Function.comp_apply, Bool.and_eq_true, decide_eq_true_eq] at high
    obtain ⟨atLeast, voter⟩ := high
    cases side : hostile entry with
    | true => simp [voter]
    | false => exact absurd ⟨entry, held, voter, side, atLeast⟩ noneHigh
  unfold HostileAtMostHalf at minority
  omega

/-- One pass evicts no honest peer while the hostile voters are at most half. -/
theorem evictLaggingPeers_keeps_honest (minority : HostileAtMostHalf hostile entries)
    (agree : HonestAgree hostile entries)
    : (evictLaggingPeers entries).1.filter (fun entry => !hostile entry)
      = entries.filter (fun entry => !hostile entry) := by
  rcases evictLaggingPeers_cases entries with same | ⟨reference, median, dropped⟩
  · rw [same]
  · obtain ⟨high, highHeld, highVotes, highHonest, atLeast⟩ :=
      exists_honest_of_lowerMedian minority median
    rw [dropped]
    apply filter_kind_of_kept
    intro entry held honest
    cases lagging : isLagging reference entry with
    | false => rfl
    | true =>
        obtain ⟨votes, trailing⟩ := votesOnLag_of_isLagging lagging
        have near := agree entry held votes (by simpa using honest) high highHeld highVotes
          highHonest
        have reach := UInt32.le_iff_toNat_le.mp atLeast
        omega

/-- A pass only removes. -/
theorem evictLaggingPeers_sublist (entries : List PeerEntry)
    : (evictLaggingPeers entries).1.Sublist entries := by
  rcases evictLaggingPeers_cases entries with same | ⟨reference, -, dropped⟩
  · rw [same]
  · rw [dropped]
    exact List.filter_sublist

/-- The voters of a pool are its hostile voters and the voters among its honest peers. -/
theorem countP_votesOnLag (hostile : PeerEntry → Bool) (entries : List PeerEntry)
    : entries.countP votesOnLag
      = entries.countP (fun entry => votesOnLag entry && hostile entry)
        + (entries.filter (fun entry => !hostile entry)).countP votesOnLag := by
  rw [List.countP_filter]
  induction entries with
  | nil => rfl
  | cons entry rest ih =>
      simp only [List.countP_cons, ih]
      cases votesOnLag entry <;> cases hostile entry <;> simp <;> omega

/-- A pass that removes hostile peers only cannot turn their half into a majority. -/
theorem HostileAtMostHalf.of_pass {fewer : List PeerEntry} (shrunk : fewer.Sublist entries)
    (kept
      : fewer.filter (fun entry => !hostile entry)
        = entries.filter (fun entry => !hostile entry))
    (minority : HostileAtMostHalf hostile entries)
    : HostileAtMostHalf hostile fewer := by
  unfold HostileAtMostHalf at minority ⊢
  have before := countP_votesOnLag hostile entries
  have after := countP_votesOnLag hostile fewer
  rw [kept] at after
  have fewerHostile := shrunk.countP_le (p := fun entry => votesOnLag entry && hostile entry)
  omega

theorem HonestAgree.sublist {fewer : List PeerEntry} (shrunk : fewer.Sublist entries)
    (agree : HonestAgree hostile entries)
    : HonestAgree hostile fewer :=
  fun low lowHeld lowVotes lowHonest high highHeld highVotes highHonest =>
    agree low (shrunk.subset lowHeld) lowVotes lowHonest high (shrunk.subset highHeld) highVotes
      highHonest

theorem lagPasses_sublist (entries : List PeerEntry) (passes : Nat)
    : (lagPasses entries passes).Sublist entries := by
  induction passes with
  | zero => exact List.Sublist.refl entries
  | succ passes ih => exact (evictLaggingPeers_sublist _).trans ih

/-- However many passes run on fixed peaks, priority and silent peers stay, and so does every
honest peer while at most half of the voters are hostile and the honest ones agree. Each pass
keeps the honest peers, by induction on the passes, and so the half.
-/
theorem lag_passes_spare_the_honest (entries : List PeerEntry) (passes : Nat)
    : (lagPasses entries passes).filter (fun entry => !votesOnLag entry)
        = entries.filter (fun entry => !votesOnLag entry)
      ∧ ∀ hostile : PeerEntry → Bool,
          HostileAtMostHalf hostile entries
          → HonestAgree hostile entries
          → (lagPasses entries passes).filter (fun entry => !hostile entry)
            = entries.filter (fun entry => !hostile entry) := by
  induction passes with
  | zero => exact ⟨rfl, fun _ _ _ => rfl⟩
  | succ passes ih =>
      obtain ⟨voiceless, spared⟩ := ih
      refine ⟨(evictLaggingPeers_keeps_voiceless _).trans voiceless, ?_⟩
      intro hostile minority agree
      have shrunk := lagPasses_sublist entries passes
      have kept := spared hostile minority agree
      have pass := evictLaggingPeers_keeps_honest
        (HostileAtMostHalf.of_pass shrunk kept minority) (HonestAgree.sublist shrunk agree)
      exact pass.trans kept

/-- Two honest peers three blocks apart, and as many hostile ones at the greatest height. -/
def splitPool : List PeerEntry :=
  [
    { sampleEntry 1 with lastPeak := 100 },
    { sampleEntry 2 with lastPeak := 4294967295 },
    { sampleEntry 3 with lastPeak := 103 },
    { sampleEntry 4 with lastPeak := 4294967295 }
  ]

theorem lag_passes_spare_the_honest_sample
    : (lagPasses splitPool 3).filter (fun entry => !decide (entry.lastPeak = 4294967295))
      = [{ sampleEntry 1 with lastPeak := 100 }, { sampleEntry 3 with lastPeak := 103 }] :=
  (lag_passes_spare_the_honest splitPool 3).2
    (fun entry => decide (entry.lastPeak = 4294967295))
    (by unfold HostileAtMostHalf; decide) (by unfold HonestAgree; decide)

end PeerPool

end ChiaQuery
