import ChiaQuery.Registry.Views

/-! What an answer accepted for custody rests on: the first trusted provider that answers, or
a quorum of independent groups where no provider is trusted.
-/

namespace ChiaQuery.Registry

open ChiaQuery.Library

variable {Provider α : Type*}

/-- A provider answers a query. -/
def answers (query : Provider → Except ChainSourceError α)
    (registration : Registration Provider)
    : Bool :=
  match query registration.provider with
  | .ok _ => true
  | .error _ => false

/-- The answer of an independence group in a quorum: the first one within the bound. -/
def representative (comparable : QuorumComparable α)
    (query : Provider → Except ChainSourceError α) (group : String)
    (providers : List (Registration Provider))
    : Option α :=
  firstAnswer Registration.independenceGroup (inBoundAnswer comparable query) group providers

namespace ProviderRegistry

/-- A trusted provider is registered. -/
def HasTrusted (registry : ProviderRegistry Provider) : Prop :=
  ∃ registration ∈ registry.providers, registration.trust = .trusted

/-- The value is the answer of the trusted provider that comes first among those that answer:
by priority, and in the order of registration among providers of one priority.
-/
def FirstTrustedAnswer (registry : ProviderRegistry Provider)
    (query : Provider → Except ChainSourceError α) (value : α)
    : Prop :=
  ∃ before registration after,
    registry.providers = before ++ registration :: after
    ∧ registration.trust = .trusted
    ∧ query registration.provider = .ok value
    ∧ (∀ other ∈ before, other.trust = .trusted → answers query other = true
        → registration.info.priority < other.info.priority)
    ∧ ∀ other ∈ after, other.trust = .trusted → answers query other = true
        → registration.info.priority ≤ other.info.priority

/-- As many different groups as the threshold asks for have a representative that agrees with
the value.
-/
def QuorumAnswer (registry : ProviderRegistry Provider) (comparable : QuorumComparable α)
    (query : Provider → Except ChainSourceError α) (value : α)
    : Prop :=
  ∃ groups : List String,
    groups.Nodup
    ∧ publicQuorumThreshold ≤ groups.length
    ∧ ∀ group ∈ groups, ∃ answer,
        representative comparable query group registry.providers = some answer
        ∧ comparable.quorumEq answer value = true

end ProviderRegistry

/-- The custody rule for one read. -/
structure CustodySound (registry : ProviderRegistry Provider) (comparable : QuorumComparable α)
    (query : Provider → Except ChainSourceError α)
    : Prop where
  accepted
    : ∀ value, custodyRead registry comparable query = .ok value
        → registry.HasTrusted ∧ registry.FirstTrustedAnswer query value
          ∨ ¬ registry.HasTrusted
            ∧ registry.allowPublicQuorumCustody = true
            ∧ registry.QuorumAnswer comparable query value
  failsClosed
    : registry.HasTrusted
      → (∀ registration ∈ registry.providers, registration.trust = .trusted
          → answers query registration = false)
      → ∃ failure, custodyRead registry comparable query = .error failure
  untrustedIgnored
    : registry.HasTrusted
      → ∀ other : Provider → Except ChainSourceError α,
          (∀ registration ∈ registry.providers, registration.trust = .trusted
            → other registration.provider = query registration.provider)
          → custodyRead registry comparable other = custodyRead registry comparable query

variable {registry : ProviderRegistry Provider} {comparable : QuorumComparable α}
variable {query : Provider → Except ChainSourceError α}

------------------------------------------------------------------------------------------
-- The trusted providers are asked in turn
------------------------------------------------------------------------------------------

/-- A value comes from the first registration that answers, by induction on the list. -/
theorem exists_of_firstValue {lastError : ChainSourceError} {value : α}
    {registrations : List (Registration Provider)}
    (found : firstValue query lastError registrations = .ok value)
    : ∃ registration,
        registrations.find? (answers query) = some registration
        ∧ query registration.provider = .ok value := by
  induction registrations generalizing lastError with
  | nil => cases found
  | cons registration rest ih =>
      rw [firstValue] at found
      cases asked : query registration.provider with
      | ok first =>
          rw [asked] at found
          cases found
          exact ⟨registration, List.find?_cons_of_pos (by simp [answers, asked]), asked⟩
      | error failure =>
          rw [asked] at found
          rw [List.find?_cons_of_neg (by simp [answers, asked])]
          exact ih found

theorem firstValue_of_silent {lastError : ChainSourceError}
    {registrations : List (Registration Provider)}
    (silent : ∀ registration ∈ registrations, answers query registration = false)
    : ∃ failure, firstValue query lastError registrations = .error failure := by
  induction registrations generalizing lastError with
  | nil => exact ⟨lastError, rfl⟩
  | cons registration rest ih =>
      have first := silent registration List.mem_cons_self
      have later := fun other member => silent other (List.mem_cons_of_mem registration member)
      rw [firstValue]
      cases asked : query registration.provider with
      | ok value => simp [answers, asked] at first
      | error failure => exact ih later

/-- Only the registrations of the list are asked. -/
theorem firstValue_congr {other : Provider → Except ChainSourceError α}
    {lastError : ChainSourceError} {registrations : List (Registration Provider)}
    (same
      : ∀ registration ∈ registrations,
          other registration.provider = query registration.provider)
    : firstValue other lastError registrations = firstValue query lastError registrations := by
  induction registrations generalizing lastError with
  | nil => rfl
  | cons registration rest ih =>
      have later := fun one member => same one (List.mem_cons_of_mem registration member)
      rw [firstValue, firstValue, same registration List.mem_cons_self]
      cases query registration.provider with
      | ok value => rfl
      | error failure => exact ih later

/-- The trusted registrations in the order they are asked. -/
def ProviderRegistry.trustedByPriority (registry : ProviderRegistry Provider)
    : List (Registration Provider) :=
  registry.byPriority.filter (fun registration => registration.trust = .trusted)

theorem mem_trustedByPriority {registration : Registration Provider}
    : registration ∈ registry.trustedByPriority
      ↔ registration ∈ registry.providers ∧ registration.trust = .trusted := by
  simp [ProviderRegistry.trustedByPriority, ProviderRegistry.byPriority, mem_sortByKey]

theorem trustedByPriority_isEmpty_iff
    : registry.trustedByPriority.isEmpty = true ↔ ¬ registry.HasTrusted := by
  rw [List.isEmpty_iff, List.eq_nil_iff_forall_not_mem]
  simp only [mem_trustedByPriority, ProviderRegistry.HasTrusted, not_exists]

theorem custodyRead_of_trusted (trusted : registry.HasTrusted)
    : custodyRead registry comparable query
      = firstValue query .noProvider registry.trustedByPriority := by
  have some_trusted : registry.trustedByPriority.isEmpty = false := by
    rw [← Bool.not_eq_true, trustedByPriority_isEmpty_iff]
    exact not_not.mpr trusted
  rw [custodyRead]
  rw [← ProviderRegistry.trustedByPriority, some_trusted]
  rfl

theorem custodyRead_of_untrusted (untrusted : ¬ registry.HasTrusted)
    : custodyRead registry comparable query
      = if registry.allowPublicQuorumCustody then
          quorumRead comparable registry.providers publicQuorumThreshold query
        else .error .noProvider := by
  have none_trusted := trustedByPriority_isEmpty_iff.mpr untrusted
  rw [custodyRead]
  rw [← ProviderRegistry.trustedByPriority, none_trusted]
  cases registry.allowPublicQuorumCustody <;> rfl

/-- What the trusted providers answer is the answer of the first of them that does. -/
theorem firstTrustedAnswer_of_firstValue {value : α}
    (found
      : firstValue query .noProvider registry.trustedByPriority = .ok value)
    : registry.FirstTrustedAnswer query value := by
  obtain ⟨registration, first, answered⟩ := exists_of_firstValue found
  rw [ProviderRegistry.trustedByPriority, List.find?_filter] at first
  obtain ⟨before, after, split, earlier, later⟩ := find?_sortByKey first
  have holds := List.find?_some first
  simp only [decide_eq_true_eq] at holds earlier later
  exact ⟨before, registration, after, split, holds.1, answered,
    fun other member trusted answering => earlier other member ⟨trusted, answering⟩,
    fun other member trusted answering => later other member ⟨trusted, answering⟩⟩

------------------------------------------------------------------------------------------
-- A quorum is of different groups
------------------------------------------------------------------------------------------

/-- The groups that agree with a value are those whose representatives are counted. -/
theorem quorumAnswer_iff {value : α}
    : registry.QuorumAnswer comparable query value
      ↔ publicQuorumThreshold
        ≤ agreeing comparable (perGroup comparable query registry.providers) value := by
  constructor
  · rintro ⟨groups, distinct, enough, each⟩
    have counted : groups ⊆ ((perGroup comparable query registry.providers).filter
        (fun entry => comparable.quorumEq entry.2 value)).map Prod.fst := by
      intro group member
      obtain ⟨answer, first, agrees⟩ := each group member
      exact List.mem_map.mpr
        ⟨(group, answer), List.mem_filter.mpr ⟨mem_gather.mpr first, agrees⟩, rfl⟩
    have bound := (List.subperm_of_subset distinct counted).length_le
    rw [List.length_map] at bound
    exact Nat.le_trans enough bound
  · intro enough
    have chosen : ((perGroup comparable query registry.providers).filter
        (fun entry => comparable.quorumEq entry.2 value)).Sublist
          (perGroup comparable query registry.providers) :=
      List.filter_sublist
    refine ⟨_, (gather_keys_nodup registry.providers).sublist (chosen.map Prod.fst),
      by simpa [agreeing] using enough, fun group member => ?_⟩
    obtain ⟨entry, kept, rfl⟩ := List.mem_map.mp member
    obtain ⟨gathered, agrees⟩ := List.mem_filter.mp kept
    exact ⟨entry.2, mem_gather.mp gathered, agrees⟩

/-- A value that a quorum accepts is agreed with by as many groups as the threshold. -/
theorem quorumAnswer_of_quorumRead {value : α}
    (found
      : quorumRead comparable registry.providers publicQuorumThreshold query = .ok value)
    : registry.QuorumAnswer comparable query value := by
  rw [quorumRead] at found
  split at found
  · rename_i candidate lookup
    cases found
    exact quorumAnswer_iff.mpr (by simpa using List.find?_some lookup)
  · cases found

/-- For every registry, every behaviour of its providers and every read, the custody view
accepts an answer by its rule alone.
-/
theorem custody_read_is_sound (registry : ProviderRegistry Provider)
    (comparable : QuorumComparable α) (query : Provider → Except ChainSourceError α)
    : CustodySound registry comparable query where
  accepted value found := by
    by_cases trusted : registry.HasTrusted
    · rw [custodyRead_of_trusted trusted] at found
      exact Or.inl ⟨trusted, firstTrustedAnswer_of_firstValue found⟩
    · rw [custodyRead_of_untrusted trusted] at found
      split at found
      · rename_i allowed
        exact Or.inr ⟨trusted, allowed, quorumAnswer_of_quorumRead found⟩
      · cases found
  failsClosed trusted silent := by
    rw [custodyRead_of_trusted trusted]
    refine firstValue_of_silent (fun registration member => ?_)
    obtain ⟨registered, trusts⟩ := mem_trustedByPriority.mp member
    exact silent registration registered trusts
  untrustedIgnored trusted other same := by
    rw [custodyRead_of_trusted trusted, custodyRead_of_trusted trusted]
    refine firstValue_congr (fun registration member => ?_)
    obtain ⟨registered, trusts⟩ := mem_trustedByPriority.mp member
    exact same registration registered trusts

end ChiaQuery.Registry
