import ChiaQuery.Registry.Custody

/-! The discovery view, which asks the providers by priority until one gives an answer within the
bound. A provider that fails and one whose answer is too large are passed over alike.
-/

namespace ChiaQuery.Registry

open ChiaQuery.Library

variable {Provider α : Type*}

/-- The loop of `discovery_read`: the first answer within the bound, or else the last error. -/
def discoveryWalk (comparable : QuorumComparable α)
    (query : Provider → Except ChainSourceError α)
    : ChainSourceError → List (Registration Provider) → Except ChainSourceError α
  | lastError, [] => .error lastError
  | _, registration :: rest =>
      match query registration.provider with
      | .ok value =>
          match comparable.validateBound value with
          | .ok () => .ok value
          | .error failure => discoveryWalk comparable query failure rest
      | .error failure => discoveryWalk comparable query failure rest

/-- `discovery_read`. -/
def discoveryRead (registry : ProviderRegistry Provider) (comparable : QuorumComparable α)
    (query : Provider → Except ChainSourceError α)
    : Except ChainSourceError α :=
  discoveryWalk comparable query .noProvider registry.byPriority

/-- `any`: every read from the first provider that answers. -/
def ProviderRegistry.any {SingletonLineage : Type*} [DecidableEq SingletonLineage]
    (coinId : ProtocolCoin → Bytes32)
    (registry : ProviderRegistry (ChainSource SingletonLineage))
    : ChainSource SingletonLineage where
  coinRecord id :=
    discoveryRead registry (quorumEqViaPartialEq _) (fun source => source.coinRecord id)
  coinRecordsByPuzzleHash puzzleHash includeSpent :=
    discoveryRead registry (recordsComparable coinId) (fun source =>
      source.coinRecordsByPuzzleHash puzzleHash includeSpent)
  coinRecordsByParent parent :=
    discoveryRead registry (recordsComparable coinId) (fun source =>
      source.coinRecordsByParent parent)
  coinSpend id :=
    discoveryRead registry (quorumEqViaPartialEq _) (fun source => source.coinSpend id)
  resolveSingletonLineage launcher :=
    discoveryRead registry (quorumEqViaPartialEq _) (fun source =>
      source.resolveSingletonLineage launcher)
  peakHeight :=
    discoveryRead registry (quorumEqViaPartialEq _) (fun source => source.peakHeight)
  blockTimestamp height :=
    discoveryRead registry (quorumEqViaPartialEq _) (fun source => source.blockTimestamp height)

/-- The value is the in-bound answer of the provider that comes first among those that give one:
by priority, and in the order of registration among providers of one priority.
-/
def ProviderRegistry.FirstInBoundAnswer (registry : ProviderRegistry Provider)
    (comparable : QuorumComparable α) (query : Provider → Except ChainSourceError α) (value : α)
    : Prop :=
  ∃ before registration after,
    registry.providers = before ++ registration :: after
    ∧ inBoundAnswer comparable query registration = some value
    ∧ (∀ other ∈ before, (inBoundAnswer comparable query other).isSome = true
        → registration.info.priority < other.info.priority)
    ∧ ∀ other ∈ after, (inBoundAnswer comparable query other).isSome = true
        → registration.info.priority ≤ other.info.priority

/-- Why a provider's answer is passed over. -/
def PassedOver (comparable : QuorumComparable α) (query : Provider → Except ChainSourceError α)
    (registration : Registration Provider) (failure : ChainSourceError)
    : Prop :=
  query registration.provider = .error failure
  ∨ ∃ value,
      query registration.provider = .ok value
      ∧ comparable.validateBound value = .error failure

/-- The rule of a discovery read: the first answer within the bound, and without one the failure of
the provider that was asked last.
-/
structure DiscoversFirst (registry : ProviderRegistry Provider)
    (comparable : QuorumComparable α) (query : Provider → Except ChainSourceError α)
    : Prop where
  answered
    : (∃ value, discoveryRead registry comparable query = .ok value)
      ↔ ∃ registration ∈ registry.providers,
          (inBoundAnswer comparable query registration).isSome = true
  first
    : ∀ value,
        discoveryRead registry comparable query = .ok value
        ↔ registry.FirstInBoundAnswer comparable query value
  unregistered
    : registry.providers = []
      → discoveryRead registry comparable query = .error .noProvider
  lastFailure
    : ∀ failure,
        discoveryRead registry comparable query = .error failure
        → ∀ earlier last,
            registry.byPriority = earlier ++ [last] → PassedOver comparable query last failure
  bounded
    : ∀ value,
        discoveryRead registry comparable query = .ok value
        → comparable.validateBound value = .ok ()

------------------------------------------------------------------------------------------
-- The walk takes the first value of the bounded query
------------------------------------------------------------------------------------------

/-- A query whose answer is refused when it exceeds the bound. -/
def boundedQuery (comparable : QuorumComparable α) (query : Provider → Except ChainSourceError α)
    (provider : Provider)
    : Except ChainSourceError α :=
  match query provider with
  | .error failure => .error failure
  | .ok value =>
      match comparable.validateBound value with
      | .error failure => .error failure
      | .ok () => .ok value

section Walk

variable {comparable : QuorumComparable α} {query : Provider → Except ChainSourceError α}
  {registry : ProviderRegistry Provider}

theorem inBoundAnswer_eq (registration : Registration Provider)
    : inBoundAnswer comparable query registration
      = (boundedQuery comparable query registration.provider).toOption := by
  unfold inBoundAnswer boundedQuery
  cases query registration.provider with
  | error failure => rfl
  | ok value =>
      cases bound : comparable.validateBound value <;> simp [bound, Except.toOption]

theorem inBoundAnswer_eq_some_iff {registration : Registration Provider} {value : α}
    : inBoundAnswer comparable query registration = some value
      ↔ boundedQuery comparable query registration.provider = .ok value := by
  rw [inBoundAnswer_eq]
  cases boundedQuery comparable query registration.provider <;> simp [Except.toOption]

theorem inBoundAnswer_isSome (registration : Registration Provider)
    : (inBoundAnswer comparable query registration).isSome
      = answers (boundedQuery comparable query) registration := by
  rw [inBoundAnswer_eq, answers]
  cases boundedQuery comparable query registration.provider <;> rfl

theorem passedOver_iff {registration : Registration Provider} {failure : ChainSourceError}
    : PassedOver comparable query registration failure
      ↔ boundedQuery comparable query registration.provider = .error failure := by
  unfold PassedOver boundedQuery
  cases query registration.provider with
  | error reason => simp
  | ok value => cases bound : comparable.validateBound value <;> simp [bound]

theorem validateBound_of_boundedQuery {provider : Provider} {value : α}
    (answered : boundedQuery comparable query provider = .ok value)
    : comparable.validateBound value = .ok () := by
  unfold boundedQuery at answered
  split at answered
  · cases answered
  · split at answered
    · cases answered
    · rename_i within
      cases answered
      exact within

/-- The walk is the trusted providers' walk with the bounded query, by induction on the list. -/
theorem discoveryWalk_eq (lastError : ChainSourceError)
    (registrations : List (Registration Provider))
    : discoveryWalk comparable query lastError registrations
      = firstValue (boundedQuery comparable query) lastError registrations := by
  induction registrations generalizing lastError with
  | nil => rfl
  | cons registration rest ih =>
      rw [discoveryWalk, firstValue, boundedQuery]
      cases query registration.provider with
      | error failure => exact ih failure
      | ok value =>
          cases bound : comparable.validateBound value with
          | error failure => simpa only [bound] using ih failure
          | ok => simp only [bound]

theorem discoveryRead_eq (registry : ProviderRegistry Provider)
    (comparable : QuorumComparable α) (query : Provider → Except ChainSourceError α)
    : discoveryRead registry comparable query
      = firstValue (boundedQuery comparable query) .noProvider registry.byPriority :=
  discoveryWalk_eq _ _

/-- A walk that fails was answered by nobody, and fails as the last provider did. Induction on the
list.
-/
theorem firstValue_error_inv {query : Provider → Except ChainSourceError α}
    {lastError failure : ChainSourceError} {registrations : List (Registration Provider)}
    (failed : firstValue query lastError registrations = .error failure)
    : (∀ registration ∈ registrations, answers query registration = false)
      ∧ ∀ earlier last,
          registrations = earlier ++ [last] → query last.provider = .error failure := by
  induction registrations generalizing lastError with
  | nil => exact ⟨by simp, fun earlier last split => by simp at split⟩
  | cons registration rest ih =>
      rw [firstValue] at failed
      cases asked : query registration.provider with
      | ok value =>
          rw [asked] at failed
          cases failed
      | error reason =>
          rw [asked] at failed
          obtain ⟨silent, ended⟩ := ih failed
          refine ⟨?_, fun earlier last split => ?_⟩
          · rintro other (_ | ⟨_, later⟩)
            · simp [answers, asked]
            · exact silent other later
          · cases earlier with
            | nil =>
                simp only [List.nil_append, List.cons.injEq] at split
                rw [split.2] at failed
                cases failed
                rw [← split.1, asked]
            | cons first others => exact ended others last (List.cons.inj split).2

/-- The registration that is the first to answer gives the value of the walk. -/
theorem firstValue_of_find? {query : Provider → Except ChainSourceError α}
    {lastError : ChainSourceError} {registrations : List (Registration Provider)}
    {registration : Registration Provider} {value : α}
    (first : registrations.find? (answers query) = some registration)
    (answered : query registration.provider = .ok value)
    : firstValue query lastError registrations = .ok value := by
  cases found : firstValue query lastError registrations with
  | ok other =>
      obtain ⟨chosen, lookup, given⟩ := exists_of_firstValue found
      rw [first] at lookup
      cases lookup
      rw [← given, answered]
  | error failure =>
      have silent := (firstValue_error_inv found).1 registration (List.mem_of_find?_eq_some first)
      rw [List.find?_some first] at silent
      cases silent

/-- The walk by priority is answered by the first provider of the registry that answers. -/
theorem discoveryRead_ok_iff {value : α}
    : discoveryRead registry comparable query = .ok value
      ↔ registry.FirstInBoundAnswer comparable query value := by
  rw [discoveryRead_eq]
  constructor
  · intro found
    obtain ⟨registration, lookup, answered⟩ := exists_of_firstValue found
    obtain ⟨before, after, split, earlier, later⟩ := find?_sortByKey lookup
    refine ⟨before, registration, after, split, inBoundAnswer_eq_some_iff.mpr answered, ?_, ?_⟩
    · intro other member answers
      exact earlier other member (by rwa [inBoundAnswer_isSome] at answers)
    · intro other member answers
      exact later other member (by rwa [inBoundAnswer_isSome] at answers)
  · rintro ⟨before, registration, after, split, answered, earlier, later⟩
    have holds : answers (boundedQuery comparable query) registration = true := by
      rw [← inBoundAnswer_isSome, answered]
      rfl
    have lookup
        : registry.byPriority.find? (answers (boundedQuery comparable query))
          = some registration := by
      rw [ProviderRegistry.byPriority, split]
      refine find?_sortByKey_of_first holds (fun other member answers => ?_)
        (fun other member answers => ?_)
      · exact earlier other member (by rwa [inBoundAnswer_isSome])
      · exact later other member (by rwa [inBoundAnswer_isSome])
    exact firstValue_of_find? lookup (inBoundAnswer_eq_some_iff.mp answered)

/-- A read is answered when some provider's answer is within the bound. -/
theorem discoveryRead_isOk_iff
    : (∃ value, discoveryRead registry comparable query = .ok value)
      ↔ ∃ registration ∈ registry.providers,
          (inBoundAnswer comparable query registration).isSome = true := by
  rw [discoveryRead_eq]
  constructor
  · rintro ⟨value, found⟩
    obtain ⟨registration, lookup, answered⟩ := exists_of_firstValue found
    refine ⟨registration, mem_sortByKey.mp (List.mem_of_find?_eq_some lookup), ?_⟩
    rw [inBoundAnswer_eq_some_iff.mpr answered]
    rfl
  · rintro ⟨registration, member, within⟩
    cases found : firstValue (boundedQuery comparable query) .noProvider registry.byPriority with
    | ok value => exact ⟨value, rfl⟩
    | error failure =>
        have silent := (firstValue_error_inv found).1 registration (mem_sortByKey.mpr member)
        rw [← inBoundAnswer_isSome, within] at silent
        cases silent

theorem discoversFirst (registry : ProviderRegistry Provider) (comparable : QuorumComparable α)
    (query : Provider → Except ChainSourceError α)
    : DiscoversFirst registry comparable query := by
  refine ⟨discoveryRead_isOk_iff, fun value => discoveryRead_ok_iff, ?_, ?_, ?_⟩
  · intro empty
    rw [discoveryRead, ProviderRegistry.byPriority, empty]
    rfl
  · intro failure failed earlier last split
    rw [discoveryRead_eq] at failed
    exact passedOver_iff.mpr ((firstValue_error_inv failed).2 earlier last split)
  · intro value found
    rw [discoveryRead_eq] at found
    obtain ⟨registration, -, answered⟩ := exists_of_firstValue found
    exact validateBound_of_boundedQuery answered

end Walk

/-- For every registry, every behaviour of its providers and every read, a discovery read follows
its rule, and a list it returns is within the bound.
-/
theorem discovery_read_is_first (registry : ProviderRegistry Provider)
    : (∀ (comparable : QuorumComparable α) (query : Provider → Except ChainSourceError α),
        DiscoversFirst registry comparable query)
      ∧ ∀ (coinId : ProtocolCoin → Bytes32)
          (query : Provider → Except ChainSourceError (List IfaceCoinRecord))
          (records : List IfaceCoinRecord),
          discoveryRead registry (recordsComparable coinId) query = .ok records
          → records.length ≤ maxQuorumRecords := by
  refine ⟨discoversFirst registry, fun coinId query records found => ?_⟩
  have within := (discoversFirst registry (recordsComparable coinId) query).bounded records found
  simp only [recordsComparable] at within
  split at within
  · cases within
  · omega

end ChiaQuery.Registry
