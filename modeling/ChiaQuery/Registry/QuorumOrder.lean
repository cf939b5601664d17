import ChiaQuery.Registry.Custody

/-! Whether the order in which independent groups are registered matters to a quorum. The
first representative that enough groups agree with is accepted, so the order decides between
two answers that each have enough groups, and it decides nothing else.
-/

namespace ChiaQuery.Registry

open ChiaQuery.Library

variable {Provider α : Type*}

/-- The groups may be interleaved otherwise; each has its registrations in the same order. -/
def SameWithinGroups (providers reordered : List (Registration Provider)) : Prop :=
  ∀ group,
    providers.filter (fun registration => registration.independenceGroup = group)
    = reordered.filter (fun registration => registration.independenceGroup = group)

/-- Both reads accept an answer and the answers agree, or neither accepts one. -/
def SameOutcome (comparable : QuorumComparable α)
    : Except ChainSourceError α → Except ChainSourceError α → Prop
  | .ok left, .ok right => comparable.quorumEq left right = true
  | .error _, .error _ => True
  | _, _ => False

namespace ProviderRegistry

/-- No order of the groups changes what is accepted, and the read fails closed when two
conflicting answers each reach the threshold.
-/
structure OrderIndependent (registry : ProviderRegistry Provider)
    (comparable : QuorumComparable α) (query : Provider → Except ChainSourceError α)
    : Prop where
  permuted
    : ∀ reordered, SameWithinGroups registry.providers reordered
        → SameOutcome comparable (custodyRead registry comparable query)
            (custodyRead { registry with providers := reordered } comparable query)
  conflicting
    : ∀ left right, registry.QuorumAnswer comparable query left
        → registry.QuorumAnswer comparable query right
        → comparable.quorumEq left right = false
        → ∃ failure, custodyRead registry comparable query = .error failure

/-- No two answers that disagree each have as many groups as the threshold asks for. -/
def NoRivals (registry : ProviderRegistry Provider) (comparable : QuorumComparable α)
    (query : Provider → Except ChainSourceError α)
    : Prop :=
  ∀ left right, registry.QuorumAnswer comparable query left
    → registry.QuorumAnswer comparable query right
    → comparable.quorumEq left right = true

end ProviderRegistry

variable {registry : ProviderRegistry Provider} {comparable : QuorumComparable α}
variable {query : Provider → Except ChainSourceError α}
variable {providers reordered : List (Registration Provider)}

------------------------------------------------------------------------------------------
-- A quorum accepts whenever some answer has enough groups
------------------------------------------------------------------------------------------

/-- What agrees with an answer of enough groups has enough groups itself. -/
theorem ProviderRegistry.QuorumAnswer.of_agreeing {left right : α}
    (quorum : registry.QuorumAnswer comparable query left)
    (agree : comparable.quorumEq left right = true)
    : registry.QuorumAnswer comparable query right := by
  obtain ⟨groups, distinct, enough, each⟩ := quorum
  refine ⟨groups, distinct, enough, fun group member => ?_⟩
  obtain ⟨answer, first, agrees⟩ := each group member
  exact ⟨answer, first, comparable.equivalence.trans agrees agree⟩

/-- Some group's representative agrees with an answer of enough groups. -/
theorem ProviderRegistry.QuorumAnswer.exists_group {value : α}
    (quorum : registry.QuorumAnswer comparable query value)
    : ∃ group answer,
        representative comparable query group registry.providers = some answer
        ∧ comparable.quorumEq answer value = true := by
  obtain ⟨groups, -, enough, each⟩ := quorum
  have nonempty : groups ≠ [] := by
    rintro rfl
    simp [publicQuorumThreshold] at enough
  obtain ⟨group, member⟩ := List.exists_mem_of_ne_nil groups nonempty
  obtain ⟨answer, first, agrees⟩ := each group member
  exact ⟨group, answer, first, agrees⟩

/-- The read accepts an answer exactly when some answer has enough groups. -/
theorem exists_quorumRead {value : α} (quorum : registry.QuorumAnswer comparable query value)
    : ∃ accepted,
        quorumRead comparable registry.providers publicQuorumThreshold query = .ok accepted := by
  obtain ⟨group, answer, first, agrees⟩ := quorum.exists_group
  have own : registry.QuorumAnswer comparable query answer :=
    quorum.of_agreeing (comparable.equivalence.symm agrees)
  rw [quorumRead]
  split
  · exact ⟨_, rfl⟩
  · rename_i noneFound
    have refused := List.find?_eq_none.mp noneFound (group, answer) (mem_gather.mpr first)
    exact absurd (quorumAnswer_iff.mp own) (by simpa using refused)

/-- In a registry of untrusted providers where the operator has opted in, a read is a quorum's. -/
theorem custodyRead_of_quorum
    (untrusted : ∀ registration ∈ registry.providers, registration.trust = .untrusted)
    (optedIn : registry.allowPublicQuorumCustody = true)
    : custodyRead registry comparable query
      = quorumRead comparable registry.providers publicQuorumThreshold query := by
  have none_trusted : ¬ registry.HasTrusted := by
    rintro ⟨registration, member, trusted⟩
    rw [untrusted registration member] at trusted
    cases trusted
  rw [custodyRead_of_untrusted none_trusted, if_pos optedIn]

------------------------------------------------------------------------------------------
-- The order of the groups decides between rivals and nothing else
------------------------------------------------------------------------------------------

theorem SameWithinGroups.mem_iff (same : SameWithinGroups providers reordered)
    {registration : Registration Provider}
    : registration ∈ providers ↔ registration ∈ reordered := by
  have mine := congrArg (registration ∈ ·) (same registration.independenceGroup)
  simpa using mine

/-- The same answers have enough groups in either order. -/
theorem SameWithinGroups.quorumAnswer_iff
    (same : SameWithinGroups registry.providers reordered) {value : α}
    : ProviderRegistry.QuorumAnswer { registry with providers := reordered } comparable query value
      ↔ registry.QuorumAnswer comparable query value := by
  have first (group : String)
      : representative comparable query group reordered
        = representative comparable query group registry.providers := by
    rw [representative, representative, firstAnswer, firstAnswer, same group]
  simp only [ProviderRegistry.QuorumAnswer, first]

/-- The registrations of one group, moved to the front. -/
def groupFirst (group : String) (providers : List (Registration Provider))
    : List (Registration Provider) :=
  providers.filter (fun registration => registration.independenceGroup = group)
    ++ providers.filter (fun registration => !decide (registration.independenceGroup = group))

theorem sameWithinGroups_groupFirst (group : String) (providers : List (Registration Provider))
    : SameWithinGroups providers (groupFirst group providers) := by
  intro other
  rw [groupFirst, List.filter_append, List.filter_filter, List.filter_filter]
  by_cases mine : other = group
  · subst mine
    simp
  · have front : ∀ registration ∈ providers,
        ¬ (decide (registration.independenceGroup = other)
          && decide (registration.independenceGroup = group)) = true := by
      intro registration _ both
      simp only [Bool.and_eq_true, decide_eq_true_eq] at both
      exact mine (both.1.symm.trans both.2)
    rw [List.filter_eq_nil_iff.mpr front, List.nil_append]
    refine List.filter_congr (fun registration _ => ?_)
    by_cases theirs : registration.independenceGroup = other
    · simp [theirs, mine]
    · simp [theirs]

/-- A group whose representative has enough groups behind it wins when it is registered first. -/
theorem quorumRead_groupFirst {group : String} {answer : α}
    (first : representative comparable query group registry.providers = some answer)
    (quorum : registry.QuorumAnswer comparable query answer)
    : quorumRead comparable (groupFirst group registry.providers) publicQuorumThreshold query
      = .ok answer := by
  have moved := sameWithinGroups_groupFirst group registry.providers
  have enough := ChiaQuery.Registry.quorumAnswer_iff.mp (moved.quorumAnswer_iff.mpr quorum)
  obtain ⟨later, gathered⟩ := gather_of_first (fun registration member =>
    of_decide_eq_true (List.mem_filter.mp member).2) first
  rw [quorumRead, perGroup]
  rw [perGroup] at enough
  dsimp only at enough ⊢
  rw [groupFirst, ← gathered] at enough ⊢
  rw [List.singleton_append, List.find?_cons_of_pos (by simpa using enough)]

/-- When no two answers are rivals, every order accepts the same answer or none. -/
theorem sameOutcome_of_noRivals (alone : registry.NoRivals comparable query)
    (same : SameWithinGroups registry.providers reordered)
    : SameOutcome comparable
        (quorumRead comparable registry.providers publicQuorumThreshold query)
        (quorumRead comparable reordered publicQuorumThreshold query) := by
  cases here : quorumRead comparable registry.providers publicQuorumThreshold query with
  | ok left =>
      have leftQuorum := quorumAnswer_of_quorumRead here
      obtain ⟨right, there⟩ := exists_quorumRead (same.quorumAnswer_iff.mpr leftQuorum)
      rw [there]
      exact alone left right leftQuorum
        (same.quorumAnswer_iff.mp (quorumAnswer_of_quorumRead there))
  | error failure =>
      cases there : quorumRead comparable reordered publicQuorumThreshold query with
      | error other => trivial
      | ok right =>
          have moved : ProviderRegistry.QuorumAnswer
              { registry with providers := reordered } comparable query right :=
            quorumAnswer_of_quorumRead there
          obtain ⟨left, accepted⟩ := exists_quorumRead (same.quorumAnswer_iff.mp moved)
          rw [here] at accepted
          cases accepted

/-- Two rivals cannot both be accepted, and the one that is not is accepted once its group is
registered first; so where no order changes what is accepted, there are no rivals.
-/
theorem noRivals_of_permuted
    (permuted
      : ∀ reordered, SameWithinGroups registry.providers reordered
          → SameOutcome comparable
              (quorumRead comparable registry.providers publicQuorumThreshold query)
              (quorumRead comparable reordered publicQuorumThreshold query))
    : registry.NoRivals comparable query := by
  intro left right leftQuorum rightQuorum
  by_contra rivals
  obtain ⟨accepted, here⟩ := exists_quorumRead leftQuorum
  have lost : ∃ value, registry.QuorumAnswer comparable query value
      ∧ ¬ comparable.quorumEq accepted value = true := by
    by_cases agrees : comparable.quorumEq accepted left = true
    · refine ⟨right, rightQuorum, fun both => rivals ?_⟩
      exact comparable.equivalence.trans (comparable.equivalence.symm agrees) both
    · exact ⟨left, leftQuorum, agrees⟩
  obtain ⟨value, quorum, differs⟩ := lost
  obtain ⟨group, answer, first, agrees⟩ := quorum.exists_group
  have wins := quorumRead_groupFirst first
    (quorum.of_agreeing (comparable.equivalence.symm agrees))
  have outcome := permuted _ (sameWithinGroups_groupFirst group registry.providers)
  rw [here, wins] at outcome
  exact differs (comparable.equivalence.trans outcome agrees)

/-- A quorum of untrusted providers is independent of the order of the groups, and fails
closed on a conflict, exactly when no two conflicting answers each reach the threshold.
-/
theorem order_independent_iff
    (untrusted : ∀ registration ∈ registry.providers, registration.trust = .untrusted)
    (optedIn : registry.allowPublicQuorumCustody = true)
    : registry.OrderIndependent comparable query ↔ registry.NoRivals comparable query := by
  have asQuorum {reordered : List (Registration Provider)}
      (same : SameWithinGroups registry.providers reordered)
      : custodyRead { registry with providers := reordered } comparable query
        = quorumRead comparable reordered publicQuorumThreshold query :=
    custodyRead_of_quorum
      (fun registration member => untrusted registration (same.mem_iff.mpr member)) optedIn
  constructor
  · intro independent
    refine noRivals_of_permuted (fun reordered same => ?_)
    have outcome := independent.permuted reordered same
    rwa [asQuorum same, custodyRead_of_quorum untrusted optedIn] at outcome
  · intro alone
    constructor
    · intro reordered same
      rw [asQuorum same, custodyRead_of_quorum untrusted optedIn]
      exact sameOutcome_of_noRivals alone same
    · intro left right leftQuorum rightQuorum conflict
      rw [alone left right leftQuorum rightQuorum] at conflict
      cases conflict

/-- A public provider of a group that reports a peak. -/
def peakOf (group : String) (height : UInt32) : Registration (Option UInt32) where
  provider := some height
  info := { kind := .publicOracle, priority := 10 }
  trust := .untrusted
  independenceGroup := group

/-- Public providers only, where the operator has opted in. -/
def publicRegistry (providers : List (Registration (Option UInt32)))
    : ProviderRegistry (Option UInt32) where
  providers
  allowPublicQuorumCustody := true

theorem order_independent_sample
    : (publicRegistry [peakOf "a" 10, peakOf "b" 11, peakOf "c" 10]).OrderIndependent
        (quorumEqViaPartialEq (Option UInt32)) .ok := by
  have untrusted : ∀ registration ∈ (publicRegistry
      [peakOf "a" 10, peakOf "b" 11, peakOf "c" 10]).providers,
      registration.trust = .untrusted := by
    simp [publicRegistry, peakOf]
  -- Only the peak at 10 is reported by two groups.
  have only : ∀ value, (publicRegistry
        [peakOf "a" 10, peakOf "b" 11, peakOf "c" 10]).QuorumAnswer
          (quorumEqViaPartialEq (Option UInt32)) .ok value
      → value = some 10 := by
    intro value quorum
    have enough := quorumAnswer_iff.mp quorum
    have gathered : perGroup (quorumEqViaPartialEq (Option UInt32)) .ok
        [peakOf "a" 10, peakOf "b" 11, peakOf "c" 10]
        = [("a", some 10), ("b", some 11), ("c", some 10)] := by
      decide
    rw [publicRegistry, gathered] at enough
    by_contra other
    by_cases eleven : some 11 = value
    · subst eleven
      exact absurd enough (by decide)
    · simp [agreeing, quorumEqViaPartialEq, eleven, Ne.symm other, publicQuorumThreshold]
        at enough
  refine (order_independent_iff untrusted rfl).mpr (fun left right leftQuorum rightQuorum => ?_)
  rw [only left leftQuorum, only right rightQuorum]
  rfl

/-- Two groups report one peak and two report another. -/
def rivalRegistry : ProviderRegistry (Option UInt32) :=
  publicRegistry [peakOf "a" 10, peakOf "b" 10, peakOf "c" 11, peakOf "d" 11]

/-- There both peaks reach the threshold, and the one registered first is returned. -/
theorem rival_peaks_are_decided_by_order
    : ¬ ∀ registry : ProviderRegistry (Option UInt32),
        (∀ registration ∈ registry.providers, registration.trust = .untrusted)
        → registry.allowPublicQuorumCustody = true
        → registry.OrderIndependent (quorumEqViaPartialEq (Option UInt32)) .ok := by
  intro claim
  have untrusted : ∀ registration ∈ rivalRegistry.providers,
      registration.trust = .untrusted := by
    simp [rivalRegistry, publicRegistry, peakOf]
  have independent := claim rivalRegistry untrusted rfl
  have accepted : custodyRead rivalRegistry (quorumEqViaPartialEq (Option UInt32)) .ok
      = .ok (some 10) := by
    rw [custodyRead_of_quorum untrusted rfl]
    rfl
  obtain ⟨failure, failed⟩ := independent.conflicting (some 10) (some 11)
    (quorumAnswer_iff.mpr (by decide)) (quorumAnswer_iff.mpr (by decide)) rfl
  rw [accepted] at failed
  cases failed

end ChiaQuery.Registry
