import ChiaQuery.Library.RoundRobin
import ChiaQuery.Peer.DialRound

/-! Which candidates of a dial round are kept. The best copy of each address is ranked, the
priority candidates keep the front, and the discovered ones take the other slots in turns of
their subnets.
-/

namespace ChiaQuery

open ChiaQuery.Library

variable {α : Type}

namespace DialCandidate

/-- The subnet a candidate is spread by. -/
def subnet (candidate : DialCandidate α) : SubnetKey :=
  SubnetKey.of candidate.address

def isPriority (candidate : DialCandidate α) : Bool :=
  candidate.origin = .priority

def isDiscovered (candidate : DialCandidate α) : Bool :=
  candidate.origin = .discovered

/-- No dial of the round reached the candidate's address as a priority address. -/
def onlyDiscovered (candidates : List (DialCandidate α)) (candidate : DialCandidate α) : Bool :=
  candidates.all (fun other => other.address ≠ candidate.address || other.isDiscovered)

theorem isDiscovered_eq_not (candidate : DialCandidate α)
    : candidate.isDiscovered = !candidate.isPriority := by
  cases h : candidate.origin <;> simp [isDiscovered, isPriority, h]

theorem ranksBefore_total (left right : DialCandidate α)
    : left.ranksBefore right || right.ranksBefore left := by
  unfold ranksBefore
  cases left.origin <;> cases right.origin <;> simp [Nat.le_total]

theorem ranksBefore_refl (candidate : DialCandidate α)
    : candidate.ranksBefore candidate = true := by
  simpa using ranksBefore_total candidate candidate

theorem ranksBefore_trans (first second third : DialCandidate α)
    (left : first.ranksBefore second = true) (right : second.ranksBefore third = true)
    : first.ranksBefore third = true := by
  unfold ranksBefore at left right ⊢
  cases hfirst : first.origin <;> cases hsecond : second.origin <;>
    cases hthird : third.origin <;> simp_all <;> omega

/-- Among candidates of one origin the rank is by handshake. -/
theorem handshake_le_of_ranksBefore {left right : DialCandidate α}
    (same : left.origin = right.origin) (ranked : left.ranksBefore right = true)
    : left.handshake ≤ right.handshake := by
  unfold ranksBefore at ranked
  rw [same] at ranked
  cases origin : right.origin <;> simpa [origin] using ranked

end DialCandidate

open DialCandidate

/-- The best copy of each address of a round, by rank. -/
def ranking (candidates : List (DialCandidate α)) : List (DialCandidate α) :=
  distinctBy DialCandidate.address (candidates.mergeSort ranksBefore)

/-- The ranking of one subnet's discovered peers. -/
def subnetRanking (candidates : List (DialCandidate α)) (subnet : SubnetKey)
    : List (DialCandidate α) :=
  bucketOf DialCandidate.subnet ((ranking candidates).filter isDiscovered) subnet

/-- What is kept of one subnet's discovered peers. -/
def keptOf (kept : List (DialCandidate α)) (subnet : SubnetKey) : List (DialCandidate α) :=
  bucketOf DialCandidate.subnet (kept.filter isDiscovered) subnet

/-- A list ranks a subnet: the addresses in it that only discovered dials reached, once each
and by handshake.
-/
structure RanksSubnet (candidates : List (DialCandidate α)) (subnet : SubnetKey)
    (ranked : List (DialCandidate α))
    : Prop where
  byHandshake : ranked.Pairwise (fun left right => left.handshake ≤ right.handshake)
  once : (ranked.map DialCandidate.address).Nodup
  reached
    : ∀ address,
        address ∈ ranked.map DialCandidate.address
        ↔ ∃ candidate ∈ candidates,
            candidate.address = address
            ∧ candidate.subnet = subnet
            ∧ candidate.onlyDiscovered candidates = true

/-- The ranking of the priority peers. -/
def priorityRanking (candidates : List (DialCandidate α)) : List (DialCandidate α) :=
  (ranking candidates).filter isPriority

/-- A list ranks the priority peers: the addresses that a priority dial reached, once each and by
handshake.
-/
structure RanksPriority (candidates ranked : List (DialCandidate α)) : Prop where
  byHandshake : ranked.Pairwise (fun left right => left.handshake ≤ right.handshake)
  once : (ranked.map DialCandidate.address).Nodup
  reached
    : ∀ address,
        address ∈ ranked.map DialCandidate.address
        ↔ ∃ candidate ∈ candidates, candidate.address = address ∧ candidate.isPriority = true

/-- What a dial round keeps of its candidates. -/
structure KeepsMostCredible (candidates kept : List (DialCandidate α)) (slots : Nat)
    : Prop where
  drawn : kept.Subperm candidates
  distinct : (kept.map DialCandidate.address).Nodup
  length : kept.length = min slots (candidates.map DialCandidate.address).toFinset.card
  best
    : ∀ candidate ∈ kept, ∀ other ∈ candidates,
        other.address = candidate.address → candidate.ranksBefore other = true
  priorityFirst : kept = kept.filter isPriority ++ kept.filter isDiscovered
  priorityByHandshake
    : (kept.filter isPriority).Pairwise (fun left right => left.handshake ≤ right.handshake)
  priorityKept
    : RanksPriority candidates (priorityRanking candidates)
      ∧ kept.filter isPriority = (priorityRanking candidates).take slots
  subnetsCovered
    : ((kept.filter isDiscovered).map DialCandidate.subnet).toFinset.card
      = min (slots - (priorityRanking candidates).length)
          ((candidates.filter (onlyDiscovered candidates)).map
            DialCandidate.subnet).toFinset.card
  subnetPrefix
    : ∀ subnet,
        RanksSubnet candidates subnet (subnetRanking candidates subnet)
        ∧ keptOf kept subnet <+: subnetRanking candidates subnet
  fair
    : ∀ fewer more,
        (keptOf kept fewer).length + 1 < (keptOf kept more).length
        → (keptOf kept fewer).length = (subnetRanking candidates fewer).length

variable {candidates : List (DialCandidate α)}

------------------------------------------------------------------------------------------
-- The ranking has the best copy of each address
------------------------------------------------------------------------------------------

theorem ranking_sublist (candidates : List (DialCandidate α))
    : (ranking candidates).Sublist (candidates.mergeSort ranksBefore) :=
  distinctBy_sublist DialCandidate.address _

theorem mem_of_mem_ranking {candidate : DialCandidate α}
    (ranked : candidate ∈ ranking candidates)
    : candidate ∈ candidates :=
  List.mem_mergeSort.mp ((ranking_sublist candidates).subset ranked)

theorem ranking_subperm (candidates : List (DialCandidate α))
    : (ranking candidates).Subperm candidates :=
  (ranking_sublist candidates).subperm.trans (List.mergeSort_perm candidates _).subperm

theorem ranking_addresses_nodup (candidates : List (DialCandidate α))
    : ((ranking candidates).map DialCandidate.address).Nodup :=
  distinctBy_keys_nodup DialCandidate.address _

theorem mergeSort_ordered (candidates : List (DialCandidate α))
    : (candidates.mergeSort ranksBefore).Pairwise (fun left right =>
        left.ranksBefore right = true) :=
  List.pairwise_mergeSort ranksBefore_trans ranksBefore_total candidates

theorem ranking_ordered (candidates : List (DialCandidate α))
    : (ranking candidates).Pairwise (fun left right => left.ranksBefore right = true) :=
  (mergeSort_ordered candidates).sublist (ranking_sublist candidates)

theorem ranking_best {candidate other : DialCandidate α}
    (ranked : candidate ∈ ranking candidates) (member : other ∈ candidates)
    (same : other.address = candidate.address)
    : candidate.ranksBefore other = true :=
  ordered_of_mem_distinctBy ranksBefore_refl (mergeSort_ordered candidates) ranked
    (List.mem_mergeSort.mpr member) same

/-- Every address of the round is ranked. -/
theorem exists_ranked {candidate : DialCandidate α} (member : candidate ∈ candidates)
    : ∃ ranked ∈ ranking candidates, ranked.address = candidate.address :=
  List.mem_map.mp (mem_keys_distinctBy (List.mem_mergeSort.mpr member))

/-- The best copy of an address that a priority dial reached is a priority copy. -/
theorem isPriority_of_best {candidate other : DialCandidate α}
    (before : candidate.ranksBefore other = true) (priority : other.isPriority = true)
    : candidate.isPriority = true := by
  rw [isPriority, decide_eq_true_eq] at priority ⊢
  cases origin : candidate.origin with
  | priority => rfl
  | discovered => simp [ranksBefore, origin, priority] at before

/-- A ranked candidate is discovered exactly when only discovered dials reached its address: a
priority copy would rank before it.
-/
theorem isDiscovered_iff_onlyDiscovered {candidate : DialCandidate α}
    (ranked : candidate ∈ ranking candidates)
    : candidate.isDiscovered = true ↔ candidate.onlyDiscovered candidates = true := by
  simp only [onlyDiscovered, List.all_eq_true, Bool.or_eq_true, decide_eq_true_eq]
  constructor
  · intro discovered other member
    by_cases same : other.address = candidate.address
    · refine Or.inr ?_
      cases origin : other.origin with
      | discovered => simp [isDiscovered, origin]
      | priority =>
          have before := ranking_best ranked member same
          have first := isPriority_of_best before (decide_eq_true origin)
          rw [isDiscovered, decide_eq_true_eq] at discovered
          rw [isPriority, decide_eq_true_eq, discovered] at first
          cases first
    · exact Or.inl same
  · intro only
    rcases only candidate (mem_of_mem_ranking ranked) with other | discovered
    · exact absurd rfl other
    · exact discovered

/-- Copies of one address are told apart by none of the round's tests for it. -/
theorem onlyDiscovered_congr {left right : DialCandidate α}
    (same : left.address = right.address)
    : left.onlyDiscovered candidates = right.onlyDiscovered candidates := by
  simp only [onlyDiscovered, same]

theorem subnet_congr {left right : DialCandidate α} (same : left.address = right.address)
    : left.subnet = right.subnet := by
  simp only [DialCandidate.subnet, same]

theorem ranking_length (candidates : List (DialCandidate α))
    : (ranking candidates).length = (candidates.map DialCandidate.address).toFinset.card := by
  have addresses : (candidates.map DialCandidate.address).toFinset
      = ((ranking candidates).map DialCandidate.address).toFinset := by
    ext address
    simp only [List.mem_toFinset, List.mem_map]
    constructor
    · rintro ⟨candidate, member, rfl⟩
      exact exists_ranked member
    · rintro ⟨candidate, ranked, rfl⟩
      exact ⟨candidate, mem_of_mem_ranking ranked, rfl⟩
  rw [addresses, List.toFinset_card_of_nodup (ranking_addresses_nodup candidates),
    List.length_map]

/-- The candidates of one origin are ranked by handshake. -/
theorem ranked_by_handshake {chosen : List (DialCandidate α)} {origin : PeerOrigin}
    (some_ranked : chosen.Sublist (ranking candidates))
    (all : ∀ candidate ∈ chosen, candidate.origin = origin)
    : chosen.Pairwise (fun left right => left.handshake ≤ right.handshake) := by
  refine ((ranking_ordered candidates).sublist some_ranked).imp_of_mem ?_
  intro left right leftMember rightMember ranked
  exact handshake_le_of_ranksBefore ((all left leftMember).trans (all right rightMember).symm)
    ranked

theorem priorityRanking_byHandshake (candidates : List (DialCandidate α))
    : (priorityRanking candidates).Pairwise (fun left right =>
        left.handshake ≤ right.handshake) := by
  have all : ∀ candidate ∈ priorityRanking candidates, candidate.origin = .priority :=
    fun candidate member => of_decide_eq_true (List.mem_filter.mp member).2
  exact ranked_by_handshake List.filter_sublist all

theorem ranksPriority (candidates : List (DialCandidate α))
    : RanksPriority candidates (priorityRanking candidates) where
  byHandshake := priorityRanking_byHandshake candidates
  once := (ranking_addresses_nodup candidates).sublist (List.filter_sublist.map _)
  reached address := by
    simp only [priorityRanking, List.mem_map, List.mem_filter]
    constructor
    · rintro ⟨candidate, ⟨ranked, priority⟩, rfl⟩
      exact ⟨candidate, mem_of_mem_ranking ranked, rfl, priority⟩
    · rintro ⟨candidate, member, rfl, priority⟩
      obtain ⟨ranked, isRanked, same⟩ := exists_ranked member
      have before := ranking_best isRanked member same.symm
      exact ⟨ranked, ⟨isRanked, isPriority_of_best before priority⟩, same⟩

theorem subnetRanking_sublist (candidates : List (DialCandidate α)) (subnet : SubnetKey)
    : (subnetRanking candidates subnet).Sublist (ranking candidates) :=
  List.filter_sublist.trans List.filter_sublist

theorem mem_subnetRanking {candidate : DialCandidate α} {subnet : SubnetKey}
    : candidate ∈ subnetRanking candidates subnet
      ↔ candidate ∈ ranking candidates
        ∧ candidate.isDiscovered = true
        ∧ candidate.subnet = subnet := by
  simp [subnetRanking, bucketOf, and_comm]

theorem ranksSubnet (candidates : List (DialCandidate α)) (subnet : SubnetKey)
    : RanksSubnet candidates subnet (subnetRanking candidates subnet) where
  byHandshake := by
    have all : ∀ candidate ∈ subnetRanking candidates subnet, candidate.origin = .discovered :=
      fun candidate member => of_decide_eq_true (mem_subnetRanking.mp member).2.1
    exact ranked_by_handshake (subnetRanking_sublist candidates subnet) all
  once := (ranking_addresses_nodup candidates).sublist
    ((subnetRanking_sublist candidates subnet).map _)
  reached address := by
    simp only [List.mem_map, mem_subnetRanking]
    constructor
    · rintro ⟨candidate, ⟨ranked, discovered, inSubnet⟩, rfl⟩
      exact ⟨candidate, mem_of_mem_ranking ranked, rfl, inSubnet,
        (isDiscovered_iff_onlyDiscovered ranked).mp discovered⟩
    · rintro ⟨candidate, member, rfl, inSubnet, only⟩
      obtain ⟨ranked, isRanked, same⟩ := exists_ranked member
      refine ⟨ranked, ⟨isRanked, ?_, (subnet_congr same).trans inSubnet⟩, same⟩
      rw [isDiscovered_iff_onlyDiscovered isRanked, onlyDiscovered_congr same]
      exact only

/-- The subnets of the ranked discovered candidates are those of the addresses that only
discovered dials reached.
-/
theorem ranked_subnets (candidates : List (DialCandidate α))
    : (((ranking candidates).filter isDiscovered).map DialCandidate.subnet).toFinset
      = ((candidates.filter (onlyDiscovered candidates)).map
          DialCandidate.subnet).toFinset := by
  ext subnet
  simp only [List.mem_toFinset, List.mem_map, List.mem_filter]
  constructor
  · rintro ⟨candidate, ⟨ranked, discovered⟩, rfl⟩
    exact ⟨candidate, ⟨mem_of_mem_ranking ranked,
      (isDiscovered_iff_onlyDiscovered ranked).mp discovered⟩, rfl⟩
  · rintro ⟨candidate, ⟨member, only⟩, rfl⟩
    obtain ⟨ranked, isRanked, same⟩ := exists_ranked member
    refine ⟨ranked, ⟨isRanked, ?_⟩, subnet_congr same⟩
    rw [isDiscovered_iff_onlyDiscovered isRanked, onlyDiscovered_congr same]
    exact only

------------------------------------------------------------------------------------------
-- The spread goes round the subnets
------------------------------------------------------------------------------------------

/-- A candidate joins the bucket of its subnet, or opens one. Induction on the buckets. -/
theorem addToBucket_eq {keys : List SubnetKey} (distinct : keys.Nodup)
    (members : SubnetKey → List (DialCandidate α)) (candidate : DialCandidate α)
    : addToBucket (keys.map (fun key => (key, members key))) candidate
      = keys.map (fun key =>
          (key, members key ++ if key = candidate.subnet then [candidate] else []))
        ++ if candidate.subnet ∈ keys then [] else [(candidate.subnet, [candidate])] := by
  induction keys with
  | nil => simp [addToBucket, DialCandidate.subnet]
  | cons key keys ih =>
      obtain ⟨absent, distinct⟩ := List.nodup_cons.mp distinct
      rw [List.map_cons, addToBucket, ← DialCandidate.subnet]
      by_cases same : key = candidate.subnet
      · have others : keys.map (fun key =>
              (key, members key ++ if key = candidate.subnet then [candidate] else []))
            = keys.map (fun key => (key, members key)) := by
          refine List.map_congr_left (fun other member => ?_)
          have differs : other ≠ candidate.subnet := by
            rintro rfl
            exact absent (same ▸ member)
          simp [differs]
        rw [if_pos same, List.map_cons, others]
        simp [same]
      · have elsewhere : candidate.subnet ≠ key := Ne.symm same
        rw [if_neg same, ih distinct]
        simp [same, elsewhere]

/-- The loop over the candidates puts each subnet's into one bucket, by induction from the end
of the list.
-/
theorem foldl_addToBucket (candidates : List (DialCandidate α))
    : candidates.foldl addToBucket []
      = (keysInOrder DialCandidate.subnet candidates).map (fun key =>
          (key, bucketOf DialCandidate.subnet candidates key)) := by
  induction candidates using List.reverseRecOn with
  | nil => rfl
  | append_singleton candidates candidate ih =>
      rw [List.foldl_append, List.foldl_cons, List.foldl_nil, ih,
        addToBucket_eq (keysInOrder_nodup _ _), keysInOrder_append_singleton, List.map_append]
      simp only [bucketOf_append_singleton]
      by_cases listed : candidate.subnet ∈ keysInOrder DialCandidate.subnet candidates
      · rw [if_pos listed, if_pos listed]
        rfl
      · rw [if_neg listed, if_neg listed, List.map_singleton, bucketOf_eq_nil listed]
        simp

/-- The loop over the buckets makes passes until they are empty, by induction on the passes. -/
theorem spreadPasses_eq (passes : Nat) (buckets : List (List (DialCandidate α)))
    : spreadPasses passes buckets = takePasses buckets passes := by
  induction passes generalizing buckets with
  | zero => rfl
  | succ passes ih =>
      rw [spreadPasses, takePasses_succ_heads, ih]
      by_cases remaining : (buckets.map List.tail).any (fun bucket => !bucket.isEmpty) = true
      · rw [if_pos remaining]
      · have empty : ∀ bucket ∈ buckets.map List.tail, bucket = [] := by
          simpa using remaining
        rw [if_neg remaining, takePasses_of_empty empty]

theorem spreadAcrossSubnets_eq (candidates : List (DialCandidate α))
    : spreadAcrossSubnets candidates
      = candidates.filter isPriority
        ++ roundRobin DialCandidate.subnet (candidates.filter isDiscovered) := by
  have discovered : candidates.filter (fun candidate => candidate.origin ≠ .priority)
      = candidates.filter isDiscovered := by
    refine List.filter_congr (fun candidate _ => ?_)
    rw [isDiscovered_eq_not]
    simp [isPriority]
  have fewer : (candidates.filter isDiscovered).length ≤ candidates.length :=
    List.length_filter_le _ _
  rw [spreadAcrossSubnets, discovered, foldl_addToBucket, spreadPasses_eq, List.map_map,
    ← Nat.add_sub_cancel' fewer, takePasses_of_exhausted]
  · rfl
  · intro bucket member
    obtain ⟨key, -, rfl⟩ := List.mem_map.mp member
    exact List.length_filter_le _ _

------------------------------------------------------------------------------------------
-- The slots
------------------------------------------------------------------------------------------

/-- The kept candidates are the front of the priority ranking, and then of the spread. -/
theorem mostCredible_eq (candidates : List (DialCandidate α)) (slots : Nat)
    : mostCredible candidates slots
      = (priorityRanking candidates).take slots
        ++ (roundRobin DialCandidate.subnet ((ranking candidates).filter isDiscovered)).take
            (slots - (priorityRanking candidates).length) := by
  rw [mostCredible, ← ranking, spreadAcrossSubnets_eq, List.take_append]
  rfl

/-- The spread of the ranking only reorders it. -/
theorem spreadAcrossSubnets_perm (candidates : List (DialCandidate α))
    : (spreadAcrossSubnets candidates).Perm candidates := by
  have spread := roundRobin_perm DialCandidate.subnet (candidates.filter isDiscovered)
  have split := List.filter_append_perm isPriority candidates
  rw [← funext isDiscovered_eq_not] at split
  rw [spreadAcrossSubnets_eq]
  exact (spread.append_left _).trans split

theorem mostCredible_subperm_ranking (candidates : List (DialCandidate α)) (slots : Nat)
    : (mostCredible candidates slots).Subperm (ranking candidates) :=
  (List.take_sublist slots _).subperm.trans (spreadAcrossSubnets_perm _).subperm

theorem filter_isPriority_mostCredible (candidates : List (DialCandidate α)) (slots : Nat)
    : (mostCredible candidates slots).filter isPriority
      = (priorityRanking candidates).take slots := by
  have front : ((priorityRanking candidates).take slots).filter isPriority
      = (priorityRanking candidates).take slots := by
    refine List.filter_eq_self.mpr (fun candidate member => ?_)
    exact (List.mem_filter.mp (List.mem_of_mem_take member)).2
  rw [mostCredible_eq, List.filter_append, front]
  refine List.append_right_eq_self.mpr (List.filter_eq_nil_iff.mpr ?_)
  intro candidate member priority
  have discovered := (List.mem_filter.mp
    ((roundRobin_perm _ _).mem_iff.mp (List.mem_of_mem_take member))).2
  simp [isDiscovered_eq_not, priority] at discovered

theorem filter_isDiscovered_mostCredible (candidates : List (DialCandidate α)) (slots : Nat)
    : (mostCredible candidates slots).filter isDiscovered
      = (roundRobin DialCandidate.subnet ((ranking candidates).filter isDiscovered)).take
          (slots - (priorityRanking candidates).length) := by
  have back : ∀ candidate ∈ (roundRobin DialCandidate.subnet
      ((ranking candidates).filter isDiscovered)).take
        (slots - (priorityRanking candidates).length),
      candidate.isDiscovered = true := by
    intro candidate member
    exact (List.mem_filter.mp
      ((roundRobin_perm _ _).mem_iff.mp (List.mem_of_mem_take member))).2
  rw [mostCredible_eq, List.filter_append, List.filter_eq_self.mpr back]
  refine List.append_left_eq_self.mpr (List.filter_eq_nil_iff.mpr ?_)
  intro candidate member discovered
  have priority := (List.mem_filter.mp (List.mem_of_mem_take member)).2
  simp [isDiscovered_eq_not, priority] at discovered

/-- Whatever the origins, repeats and subnets of a round's candidates and however many slots it
fills, it keeps the most credible ones, spread over their subnets.
-/
theorem mostCredible_keeps (candidates : List (DialCandidate α)) (slots : Nat)
    : KeepsMostCredible candidates (mostCredible candidates slots) slots where
  drawn := (mostCredible_subperm_ranking candidates slots).trans (ranking_subperm candidates)
  distinct := by
    have spread := (spreadAcrossSubnets_perm (ranking candidates)).map DialCandidate.address
    have addresses := spread.nodup_iff.mpr (ranking_addresses_nodup candidates)
    exact addresses.sublist ((List.take_sublist slots _).map DialCandidate.address)
  length := by
    rw [mostCredible, ← ranking, List.length_take, (spreadAcrossSubnets_perm _).length_eq,
      ranking_length]
  best candidate kept other member same :=
    ranking_best ((mostCredible_subperm_ranking candidates slots).subset kept) member same
  priorityFirst := by
    rw [filter_isPriority_mostCredible, filter_isDiscovered_mostCredible, ← mostCredible_eq]
  priorityByHandshake := by
    rw [filter_isPriority_mostCredible]
    exact (priorityRanking_byHandshake candidates).sublist (List.take_sublist slots _)
  priorityKept := ⟨ranksPriority candidates, filter_isPriority_mostCredible candidates slots⟩
  subnetsCovered := by
    rw [filter_isDiscovered_mostCredible, card_keys_take_roundRobin, ranked_subnets]
  subnetPrefix subnet := by
    refine ⟨ranksSubnet candidates subnet, ?_⟩
    rw [keptOf, filter_isDiscovered_mostCredible]
    exact bucketOf_take_roundRobin_prefix _ _ _ subnet
  fair fewer more apart := by
    rw [keptOf, keptOf, filter_isDiscovered_mostCredible] at apart
    rw [keptOf, filter_isDiscovered_mostCredible]
    exact roundRobin_fair _ _ _ apart

end ChiaQuery
