import ChiaQuery.LightClient.Subscribing

/-! Where responses and frames land in time, the cache of a settled session is current. What
is in flight is followed for each coin: the response, the frames that overtook it and the
frames still queued lead to the newest state the server sent.
-/

namespace ChiaQuery.LightClient

open Std ChiaQuery.Library CoinStateCache

------------------------------------------------------------------------------------------
-- What is in flight leads every coin to the newest state sent
------------------------------------------------------------------------------------------

/-- From `held` of one coin, the frames lead a cache to `final` of it. -/
abbrev Reaches (coinId : ProtocolCoin → Bytes32) (id : Bytes32) (peakKnown : Bool)
    (held : Option CoinState) (frames : List PoolFrame) (final : Option CoinState)
    : Prop :=
  Leads (fun frame => frame.newest coinId id) (fun frame held => frame.Spares peakKnown held)
    held frames final

/-- Some frame mentions the coin. -/
abbrev Mentions (coinId : ProtocolCoin → Bytes32) (id : Bytes32) (frames : List PoolFrame)
    : Prop :=
  Overridden (fun frame => frame.newest coinId id) frames

variable {coinId : ProtocolCoin → Bytes32}

/-- The server's states lie under their coins' ids and below its height, and it has sent the
ones of the registered coins.
-/
structure Server.Agrees (coinId : ProtocolCoin → Bytes32) (server : Server)
    (sent : CoinStates)
    : Prop where
  keyed : ∀ (id : Bytes32) (state : CoinState),
    server.states[id]? = some state → coinId state.coin = id
  created : ∀ (id : Bytes32) (state : CoinState),
    server.states[id]? = some state → state.createdBy server.height = true
  sent : ∀ id : Bytes32, sent[id]? = if id ∈ server.registered then server.states[id]? else none

theorem Server.Agrees.registered_of_sent {server : Server} {sent : CoinStates}
    (h : server.Agrees coinId sent) {id : Bytes32} (known : (sent[id]?).isSome = true)
    : id ∈ server.registered := by
  by_contra unregistered
  rw [h.sent, if_neg unregistered] at known
  cases known

/-- What a response must satisfy until it lands. -/
structure PendingResponse.Expected (coinId : ProtocolCoin → Bytes32)
    (registered : Finset Bytes32) (sent : CoinStates) (queue : List PoolFrame)
    (response : PendingResponse)
    : Prop where
  before : response.before ≤ queue.length
  registered : ∀ id ∈ response.coinIds, id ∈ registered
  answered : ∀ state ∈ response.states,
    coinId state.coin ∈ response.coinIds ∧ (sent[coinId state.coin]?).isSome = true
  reaches : ∀ id ∈ response.coinIds,
    Reaches coinId id false (newestState coinId response.states id)
      (response.overtaken ++ queue.drop response.before) sent[id]?

/-- What every state of a run in time satisfies. -/
structure SubscribeInvariant (coinId : ProtocolCoin → Bytes32) (state : SubscribeState)
    : Prop where
  agrees : state.server.Agrees coinId state.sent
  queued : ∀ frame ∈ state.queue, frame.CreatedInTime
    ∧ ∀ item ∈ frame.items, (state.sent[coinId item.coin]?).isSome = true
  inFlight : ∀ id : Bytes32, Mentions coinId id state.queue
    → ∀ held, Reaches coinId id false held state.queue state.sent[id]?
  pending : ∀ response ∈ state.pending,
    response.Expected coinId state.server.registered state.sent state.queue
  subscribed : ∀ id ∈ state.cache.subscribedCoins, id ∈ state.server.registered
    ∧ Reaches coinId id state.cache.peak.isSome (state.cache.get id) state.queue
        state.sent[id]?
  cached : ∀ id : Bytes32, (state.cache.get id).isSome = true → (state.sent[id]?).isSome = true
  bounded : state.cache.PeakBounded

/-- What one event of the server does to what is in flight: `update` is queued and `after`
becomes what was sent.
-/
structure Continues (coinId : ProtocolCoin → Bytes32) (registered : Finset Bytes32)
    (before after : CoinStates) (update : List PoolFrame)
    : Prop where
  carried : ∀ frame ∈ update, frame.CreatedInTime
    ∧ ∀ item ∈ frame.items, (after[coinId item.coin]?).isSome = true
  kept : ∀ id : Bytes32, (before[id]?).isSome = true → (after[id]?).isSome = true
  decided : ∀ id : Bytes32, Mentions coinId id update
    → ∀ held frames, Reaches coinId id false held (frames ++ update) after[id]?
  reaches : ∀ id ∈ registered, ∀ peakKnown held frames,
    Reaches coinId id peakKnown held frames before[id]?
    → Reaches coinId id peakKnown held (frames ++ update) after[id]?

------------------------------------------------------------------------------------------
-- An event of the server extends what is in flight
------------------------------------------------------------------------------------------

theorem Mentions.append_iff {id : Bytes32} {frames more : List PoolFrame}
    : Mentions coinId id (frames ++ more)
      ↔ Mentions coinId id frames ∨ Mentions coinId id more := by
  simp only [Mentions, Overridden, List.mem_append]
  constructor
  · intro mentioned
    obtain ⟨frame, member | member, mentions⟩ := mentioned
    · exact Or.inl ⟨frame, member, mentions⟩
    · exact Or.inr ⟨frame, member, mentions⟩
  · intro mentioned
    rcases mentioned with ⟨frame, member, mentions⟩ | ⟨frame, member, mentions⟩
    · exact ⟨frame, Or.inl member, mentions⟩
    · exact ⟨frame, Or.inr member, mentions⟩

/-- A mention is of a coin whose state was sent. -/
theorem SubscribeInvariant.sent_of_mentions {state : SubscribeState}
    (h : SubscribeInvariant coinId state) {id : Bytes32}
    (mentions : Mentions coinId id state.queue)
    : (state.sent[id]?).isSome = true := by
  obtain ⟨frame, member, carries⟩ := mentions
  obtain ⟨item, inFrame, rfl⟩ := newestState_isSome_iff.mp carries
  exact (h.queued frame member).2 item inFrame

theorem PendingResponse.Expected.continue {registered : Finset Bytes32}
    {before after : CoinStates} {queue update : List PoolFrame} {response : PendingResponse}
    (h : response.Expected coinId registered before queue)
    (continues : Continues coinId registered before after update)
    : response.Expected coinId registered after (queue ++ update) where
  before := by
    have := h.before
    rw [List.length_append]
    omega
  registered := h.registered
  answered state member := by
    obtain ⟨asked, known⟩ := h.answered state member
    exact ⟨asked, continues.kept _ known⟩
  reaches id member := by
    rw [List.drop_append_of_le_length h.before, ← List.append_assoc]
    exact continues.reaches id (h.registered id member) _ _ _ (h.reaches id member)

/-- An event of the server keeps the invariant when it continues what is in flight. -/
theorem SubscribeInvariant.continue {state : SubscribeState}
    (h : SubscribeInvariant coinId state) {server : Server} {sent : CoinStates}
    {update : List PoolFrame} (agrees : server.Agrees coinId sent)
    (grown : state.server.registered ⊆ server.registered)
    (continues : Continues coinId state.server.registered state.sent sent update)
    : SubscribeInvariant coinId
        { state with server, sent, queue := state.queue ++ update } where
  agrees := agrees
  queued frame member := by
    rcases List.mem_append.mp member with old | new
    · exact ⟨(h.queued frame old).1,
        fun item inFrame => continues.kept _ ((h.queued frame old).2 item inFrame)⟩
    · exact continues.carried frame new
  inFlight id mentions held := by
    rcases Mentions.append_iff.mp mentions with old | new
    · have known := h.agrees.registered_of_sent (h.sent_of_mentions old)
      exact continues.reaches id known _ _ _ (h.inFlight id old held)
    · exact continues.decided id new held state.queue
  pending response member := by
    have expected := (h.pending response member).continue continues
    exact ⟨expected.before, fun id mine => grown (expected.registered id mine),
      expected.answered, expected.reaches⟩
  subscribed id member := by
    obtain ⟨known, reaches⟩ := h.subscribed id member
    exact ⟨grown known, continues.reaches id known _ _ _ reaches⟩
  cached id held := continues.kept id (h.cached id held)
  bounded := h.bounded

------------------------------------------------------------------------------------------
-- Each event of the server continues what is in flight
------------------------------------------------------------------------------------------

section ServerEvents

variable {server : Server} {sent : CoinStates}

/-- The answer to a registration has the server's state of each coin asked about. -/
theorem newestState_answer (h : server.Agrees coinId sent) (coinIds : List Bytes32)
    (id : Bytes32)
    : newestState coinId (server.answer coinIds) id
      = if id ∈ coinIds then server.states[id]? else none := by
  have answers {state : CoinState} (member : state ∈ server.answer coinIds)
      : coinId state.coin ∈ coinIds ∧ server.states[coinId state.coin]? = some state := by
    obtain ⟨asked, mine, known⟩ := List.mem_filterMap.mp member
    rw [h.keyed asked state known]
    exact ⟨mine, known⟩
  cases found : newestState coinId (server.answer coinIds) id with
  | some state =>
      obtain ⟨member, rfl⟩ := newestState_inv found
      rw [if_pos (answers member).1, (answers member).2]
  | none =>
      split
      · rename_i mine
        cases known : server.states[id]? with
        | none => rfl
        | some state =>
            have present : (newestState coinId (server.answer coinIds) id).isSome = true :=
              newestState_isSome_iff.mpr
                ⟨state, List.mem_filterMap.mpr ⟨id, mine, known⟩, h.keyed id state known⟩
            rw [found] at present
            cases present
      · rfl

/-- After a registration the server has sent its states of the coins it was asked about. -/
theorem Server.Agrees.register (h : server.Agrees coinId sent) (coinIds : List Bytes32)
    : { server with registered := server.registered ∪ coinIds.toFinset : Server }.Agrees coinId
        (recordStates coinId sent (server.answer coinIds)) where
  keyed := h.keyed
  created := h.created
  sent id := by
    rw [getElem?_recordStates, newestState_answer h, h.sent]
    by_cases asked : id ∈ coinIds
    · by_cases known : id ∈ server.registered
      · simp [asked, known]
      · simp [asked, known]
    · simp [asked]

/-- A registration sends nothing new of a coin registered before. -/
theorem Continues.register (h : server.Agrees coinId sent) (coinIds : List Bytes32)
    : Continues coinId server.registered sent
        (recordStates coinId sent (server.answer coinIds)) [] where
  carried := by simp
  kept id known := by
    rw [getElem?_recordStates, Option.isSome_or, known, Bool.or_true]
  decided id mentions := by
    obtain ⟨frame, member, _⟩ := mentions
    cases member
  reaches id known peakKnown held frames reaches := by
    have same : (recordStates coinId sent (server.answer coinIds))[id]? = sent[id]? := by
      rw [(h.register coinIds).sent, h.sent, if_pos known,
        if_pos (Finset.mem_union_left _ known)]
    rw [same, List.append_nil]
    exact reaches

/-- Every state the server has sent is spared by its own peak. -/
theorem Continues.announcePeak (h : server.Agrees coinId sent) (headerHash : Bytes32)
    : Continues coinId server.registered sent sent [.peak server.height headerHash] where
  carried := by simp [PoolFrame.CreatedInTime, PoolFrame.items]
  kept id known := known
  decided id mentions := by
    obtain ⟨frame, member, carries⟩ := mentions
    rw [List.mem_singleton.mp member] at carries
    cases carries
  reaches id known peakKnown held frames reaches := by
    refine Leads.append_of_none rfl (Or.inr ?_) reaches
    rw [h.sent, if_pos known]
    cases found : server.states[id]? with
    | none => rfl
    | some state => exact h.created id state found

variable {changes : List CoinState} {height forkHeight : UInt32} {peakHash : Bytes32}

/-- What the server may report: changes of its time, and a fork above the rest. -/
theorem Server.extends_inv (h : server.extends coinId changes height forkHeight = true)
    : forkHeight ≤ height
      ∧ (∀ state ∈ changes, state.createdBy height = true)
      ∧ ∀ id : Bytes32, newestState coinId changes id = none
          → (server.states[id]?).all (fun state =>
              state.createdBy forkHeight && state.spentBy forkHeight)
            = true := by
  simp only [Server.extends, Bool.and_eq_true, decide_eq_true_eq, List.all_eq_true] at h
  obtain ⟨⟨ordered, inTime⟩, rest⟩ := h
  refine ⟨ordered, inTime, fun id unlisted => ?_⟩
  cases found : server.states[id]? with
  | none => rfl
  | some state =>
      have entry := rest (id, state) (ExtTreeMap.mem_toList_iff_getElem?_eq_some.mpr found)
      rcases Bool.or_eq_true_iff.mp entry with listed | sits
      · obtain ⟨changed, member, same⟩ := List.any_eq_true.mp listed
        have present : (newestState coinId changes id).isSome = true :=
          newestState_isSome_iff.mpr ⟨changed, member, of_decide_eq_true same⟩
        rw [unlisted] at present
        cases present
      · exact sits

theorem newestState_registeredChanges (id : Bytes32)
    : newestState coinId (server.registeredChanges coinId changes) id
      = if id ∈ server.registered then newestState coinId changes id else none := by
  split
  · rename_i known
    refine newestState_filter (fun changed _ same => ?_)
    simpa [same] using known
  · rename_i unknown
    rw [← Option.not_isSome_iff_eq_none, newestState_isSome_iff]
    intro mentioned
    obtain ⟨changed, member, rfl⟩ := mentioned
    exact unknown (by simpa using (List.mem_filter.mp member).2)

/-- A reported change keeps the server's states in time and in step with what was sent. -/
theorem Server.Agrees.advance (h : server.Agrees coinId sent)
    (allowed : server.extends coinId changes height forkHeight = true)
    : { server with states := recordStates coinId server.states changes, height : Server }.Agrees
        coinId (recordStates coinId sent (server.registeredChanges coinId changes)) where
  keyed id state found := by
    rcases getElem?_recordStates_inv found with changed | ⟨-, before⟩
    · exact (newestState_inv changed).2
    · exact h.keyed id state before
  created id state found := by
    obtain ⟨ordered, inTime, rest⟩ := Server.extends_inv allowed
    rcases getElem?_recordStates_inv found with changed | ⟨unchanged, before⟩
    · exact inTime state (newestState_inv changed).1
    · have sits := rest id unchanged
      rw [before, Option.all_some, Bool.and_eq_true] at sits
      exact CoinState.createdBy_mono sits.1 ordered
  sent id := by
    rw [getElem?_recordStates, newestState_registeredChanges, getElem?_recordStates, h.sent]
    split
    · rfl
    · rfl

theorem Server.updates_cases (server : Server) (changes : List CoinState)
    : server.registeredChanges coinId changes = []
        ∧ server.updates coinId changes height forkHeight peakHash = []
      ∨ server.updates coinId changes height forkHeight peakHash
        = [.coinStates height forkHeight peakHash
            (server.registeredChanges coinId changes)] := by
  unfold Server.updates
  dsimp only
  split
  · rename_i none
    exact Or.inl ⟨List.isEmpty_iff.mp none, rfl⟩
  · exact Or.inr rfl

theorem Server.eq_of_mem_updates {frame : PoolFrame}
    (member : frame ∈ server.updates coinId changes height forkHeight peakHash)
    : frame
      = .coinStates height forkHeight peakHash (server.registeredChanges coinId changes) := by
  rcases server.updates_cases changes with ⟨-, silent⟩ | single
  · rw [silent] at member
    cases member
  · rw [single] at member
    exact List.mem_singleton.mp member

/-- A change that is reported decides what its coin is led to. -/
theorem reaches_updates_of_some {id : Bytes32} {newest : CoinState}
    (changed : newestState coinId (server.registeredChanges coinId changes) id = some newest)
    (peakKnown : Bool) (held : Option CoinState) (frames : List PoolFrame)
    : Reaches coinId id peakKnown held
        (frames ++ server.updates coinId changes height forkHeight peakHash)
        (recordStates coinId sent (server.registeredChanges coinId changes))[id]? := by
  rw [getElem?_recordStates, changed, Option.some_or]
  rcases server.updates_cases changes with ⟨none, -⟩ | single
  · rw [none] at changed
    cases changed
  · rw [single]
    refine Leads.append_of_some ?_ frames
    exact changed

/-- A registered coin whose state is not changed is led where it was, because its state sits
at or below the fork.
-/
theorem reaches_updates_of_none (h : server.Agrees coinId sent)
    (allowed : server.extends coinId changes height forkHeight = true) {id : Bytes32}
    (known : id ∈ server.registered)
    (unchanged : newestState coinId (server.registeredChanges coinId changes) id = none)
    {peakKnown : Bool} {held : Option CoinState} {frames : List PoolFrame}
    (reaches : Reaches coinId id peakKnown held frames sent[id]?)
    : Reaches coinId id peakKnown held
        (frames ++ server.updates coinId changes height forkHeight peakHash)
        (recordStates coinId sent (server.registeredChanges coinId changes))[id]? := by
  rw [getElem?_recordStates, unchanged, Option.none_or]
  rcases server.updates_cases changes with ⟨-, silent⟩ | single
  · rw [silent, List.append_nil]
    exact reaches
  · rw [single]
    refine Leads.append_of_none unchanged ?_ reaches
    obtain ⟨ordered, -, rest⟩ := Server.extends_inv allowed
    rw [newestState_registeredChanges, if_pos known] at unchanged
    have sits := rest id unchanged
    rw [h.sent, if_pos known]
    cases found : server.states[id]? with
    | none => rfl
    | some state =>
        rw [found, Option.all_some] at sits
        have created := (Bool.and_eq_true_iff.mp sits).1
        simp only [PoolFrame.Spares, Option.all_some, sits, Bool.true_and]
        exact CoinState.createdBy_mono created ordered

theorem Continues.advance (h : server.Agrees coinId sent)
    (allowed : server.extends coinId changes height forkHeight = true)
    : Continues coinId server.registered sent
        (recordStates coinId sent (server.registeredChanges coinId changes))
        (server.updates coinId changes height forkHeight peakHash) where
  carried frame member := by
    cases Server.eq_of_mem_updates member
    constructor
    · intro item inFrame
      exact (Server.extends_inv allowed).2.1 item (List.mem_filter.mp inFrame).1
    · intro item inFrame
      have changed
          : (newestState coinId (server.registeredChanges coinId changes)
              (coinId item.coin)).isSome
            = true :=
        newestState_isSome_iff.mpr ⟨item, inFrame, rfl⟩
      rw [getElem?_recordStates, Option.isSome_or, changed, Bool.true_or]
  kept id known := by
    rw [getElem?_recordStates, Option.isSome_or, known, Bool.or_true]
  decided id mentions held frames := by
    obtain ⟨frame, member, carries⟩ := mentions
    cases Server.eq_of_mem_updates member
    obtain ⟨newest, found⟩ := Option.isSome_iff_exists.mp carries
    exact reaches_updates_of_some found false held frames
  reaches id known peakKnown held frames reaches := by
    cases changed : newestState coinId (server.registeredChanges coinId changes) id with
    | some newest => exact reaches_updates_of_some changed peakKnown held frames
    | none => exact reaches_updates_of_none h allowed known changed reaches

end ServerEvents

------------------------------------------------------------------------------------------
-- Frames applied and responses recorded, in either order
------------------------------------------------------------------------------------------

/-- A frame that is applied counts as overtaking once the frames from before are through. -/
theorem PendingResponse.Expected.passedBy {registered : Finset Bytes32} {sent : CoinStates}
    {frame : PoolFrame} {rest : List PoolFrame} {response : PendingResponse}
    (h : response.Expected coinId registered sent (frame :: rest))
    : (response.passedBy frame).Expected coinId registered sent rest := by
  obtain ⟨before, known, answered, reaches⟩ := h
  unfold PendingResponse.passedBy
  split
  -- No frame from before the response is left: this one overtakes it.
  · rename_i none
    refine ⟨none.le.trans (Nat.zero_le _), known, answered, fun id asked => ?_⟩
    have same
        : (response.overtaken ++ [frame]) ++ rest.drop response.before
          = response.overtaken ++ (frame :: rest).drop response.before := by
      simp [none]
    exact same ▸ reaches id asked
  -- The frame was sent before the response, which does not build on it.
  · rename_i left some
    refine ⟨?_, known, answered, fun id asked => ?_⟩
    · rw [some, List.length_cons] at before
      exact Nat.le_of_succ_le_succ before
    · have here := reaches id asked
      rw [some, List.drop_succ_cons] at here
      exact here

namespace SubscribeInvariant

variable {state next : SubscribeState}

/-- A response that was just sent leads to what was just sent. -/
theorem register (h : SubscribeInvariant coinId state) {coinIds : List Bytes32}
    (stepped : subscribeStep coinId state (.register coinIds) = some next)
    : SubscribeInvariant coinId next := by
  cases stepped
  have agrees := h.agrees.register coinIds
  have continued := h.continue agrees Finset.subset_union_left (Continues.register h.agrees coinIds)
  rw [List.append_nil] at continued
  refine { continued with pending := fun response member => ?_ }
  rcases List.mem_append.mp member with old | new
  · exact continued.pending response old
  · cases List.mem_singleton.mp new
    refine ⟨Nat.le_refl _, fun id asked => ?_, fun answered inResponse => ?_,
      fun id asked => ?_⟩
    · exact Finset.mem_union_right _ (List.mem_toFinset.mpr asked)
    · obtain ⟨asked, mine, known⟩ := List.mem_filterMap.mp inResponse
      rw [h.agrees.keyed asked answered known]
      refine ⟨mine, ?_⟩
      rw [agrees.sent, if_pos (Finset.mem_union_right _ (List.mem_toFinset.mpr mine)), known]
      rfl
    · have answer := newestState_answer h.agrees coinIds id
      rw [if_pos asked] at answer
      rw [agrees.sent, if_pos (Finset.mem_union_right _ (List.mem_toFinset.mpr asked)), answer,
        List.nil_append, List.drop_length]
      rfl

theorem advance (h : SubscribeInvariant coinId state) {changes : List CoinState}
    {height forkHeight : UInt32} {peakHash : Bytes32}
    (stepped
      : subscribeStep coinId state (.advance changes height forkHeight peakHash) = some next)
    : SubscribeInvariant coinId next := by
  simp only [subscribeStep] at stepped
  split at stepped
  · cases stepped
  · rename_i allowed
    cases stepped
    have allowed : state.server.extends coinId changes height forkHeight = true := by
      simpa using allowed
    exact h.continue (h.agrees.advance allowed) (Finset.Subset.refl _)
      (Continues.advance h.agrees allowed)

theorem announcePeak (h : SubscribeInvariant coinId state) {headerHash : Bytes32}
    (stepped : subscribeStep coinId state (.announcePeak headerHash) = some next)
    : SubscribeInvariant coinId next := by
  cases stepped
  exact h.continue h.agrees (Finset.Subset.refl _) (Continues.announcePeak h.agrees headerHash)

/-- A frame that fits gives a mentioned coin its newest state and spares the others, so every
coin still reaches what it did.
-/
theorem apply (h : SubscribeInvariant coinId state) (inTime : InTime coinId state .apply)
    (stepped : subscribeStep coinId state .apply = some next)
    : SubscribeInvariant coinId next := by
  simp only [subscribeStep] at stepped
  split at stepped
  · cases stepped
  · rename_i frame rest queue
    cases stepped
    have fits : frame.Fits coinId state.cache := inTime frame (by simp [queue])
    obtain ⟨agrees, queued, inFlight, pending, subscribed, cached, bounded⟩ := h
    rw [queue] at queued inFlight pending subscribed
    have first := queued frame List.mem_cons_self
    refine ⟨agrees, fun later member => queued later (List.mem_cons_of_mem frame member), ?_, ?_,
      ?_, ?_, bounded.applyFrame⟩
    · intro id mentions held
      have still : Mentions coinId id (frame :: rest) :=
        (Mentions.append_iff : Mentions coinId id ([frame] ++ rest) ↔ _).mpr (Or.inr mentions)
      exact Leads.later mentions (inFlight id still held)
    · intro response member
      obtain ⟨old, waiting, rfl⟩ := List.mem_map.mp member
      exact (pending old waiting).passedBy
    · intro id member
      have before := CoinStateCache.applyFrame_subscribedCoins_subset member
      obtain ⟨known, reaches⟩ := subscribed id before
      refine ⟨known, ?_⟩
      have arrived := reaches.tail
        (fun newest carries =>
          CoinStateCache.get_applyFrame_of_newest fits first.1 before carries)
        (fun silent spares =>
          CoinStateCache.get_applyFrame_of_spared bounded silent spares)
      exact arrived.mono (fun later held spares =>
        spares.mono CoinStateCache.applyFrame_peak_isSome)
    · intro id held
      rcases CoinStateCache.get_applyFrame_isSome held with before | ⟨item, inFrame, rfl⟩
      · exact cached id before
      · exact first.2 item inFrame

/-- What a coin of a landing response is cached as reaches the newest state sent of it. Either
a queued frame mentions it, and then what is cached does not matter; or nothing does after the
response, whose state is seeded and is the newest one.
-/
theorem reaches_of_lands (h : SubscribeInvariant coinId state) {response : PendingResponse}
    (expected
      : response.Expected coinId state.server.registered state.sent state.queue)
    (room : (state.cache.trackCoins response.coinIds).HasRoom coinId response.states)
    {id : Bytes32} (asked : id ∈ response.coinIds) (lands : response.Lands coinId state id)
    : Reaches coinId id state.cache.peak.isSome
        ((state.cache.finishSubscribe coinId response).get id) state.queue state.sent[id]? := by
  by_cases mentions : Mentions coinId id state.queue
  -- The frame that mentions the coin replaces whatever the response seeds.
  · exact (h.inFlight id mentions _).mono
      (fun frame held spares => spares.mono (fun impossible => absurd impossible (by simp)))
  · obtain ⟨clear, admitted⟩ := lands.resolve_left mentions
    have silent : ¬ Mentions coinId id
        (response.overtaken ++ state.queue.drop response.before) := by
      intro mentioned
      rcases Mentions.append_iff.mp mentioned with overtook | ⟨frame, member, carries⟩
      · exact clear overtook
      · exact mentions ⟨frame, List.mem_of_mem_drop member, carries⟩
    obtain ⟨newest, spared⟩ :=
      (Leads.iff_of_not_overridden silent).mp (expected.reaches id asked)
    have seeded
        : (state.cache.finishSubscribe coinId response).get id
          = (newestState coinId response.states id).or (state.cache.get id) :=
      get_seed room (fun answered found => (admitted answered found).1)
    refine (Leads.iff_of_not_overridden mentions).mpr ?_
    cases answer : newestState coinId response.states id with
    | none =>
        -- The server has never had a state of this coin, so none was cached either.
        have nothing : state.cache.get id = none := by
          rw [← Option.not_isSome_iff_eq_none]
          intro held
          have known := h.cached id held
          rw [← newest, answer] at known
          cases known
        rw [seeded, answer, Option.none_or, nothing, ← newest, answer]
        exact ⟨rfl, fun frame _ => frame.spares_none _⟩
    | some answered =>
        rw [seeded, answer, Option.some_or, ← newest, answer]
        refine ⟨rfl, fun frame member => ?_⟩
        -- Frames from before the response spare it by the guard, later ones by the server.
        rw [← List.take_append_drop response.before state.queue] at member
        rcases List.mem_append.mp member with earlier | later
        · exact (admitted answered answer).2 frame earlier
        · have spares := spared frame (List.mem_append_right _ later)
          rw [answer] at spares
          exact spares.mono (fun impossible => absurd impossible (by simp))

/-- A response that lands in time leaves every subscribed coin on its way to the newest state
sent of it; coins it is not about stay as they were.
-/
theorem finish (h : SubscribeInvariant coinId state) {index : Nat}
    (inTime : InTime coinId state (.finish index))
    (stepped : subscribeStep coinId state (.finish index) = some next)
    : SubscribeInvariant coinId next := by
  simp only [subscribeStep] at stepped
  split at stepped
  · cases stepped
  · rename_i response found
    cases stepped
    obtain ⟨room, lands⟩ := inTime response found
    have expected := h.pending response (List.mem_of_getElem? found)
    have peak : (state.cache.finishSubscribe coinId response).peak = state.cache.peak :=
      seed_peak response.states
    refine ⟨h.agrees, h.queued, h.inFlight, ?_, ?_, ?_, ?_⟩
    · intro other member
      exact h.pending other (List.mem_of_mem_eraseIdx member)
    · intro id member
      have tracked
          : (state.cache.finishSubscribe coinId response).subscribedCoins
            = state.cache.subscribedCoins ∪ response.coinIds.toFinset :=
        seed_subscribedCoins response.states
      have member : id ∈ state.cache.subscribedCoins ∨ id ∈ response.coinIds := by
        simpa [tracked] using member
      change id ∈ state.server.registered
        ∧ Reaches coinId id (state.cache.finishSubscribe coinId response).peak.isSome
            ((state.cache.finishSubscribe coinId response).get id) state.queue state.sent[id]?
      rw [peak]
      by_cases asked : id ∈ response.coinIds
      · exact ⟨expected.registered id asked,
          h.reaches_of_lands expected room asked (lands id asked)⟩
      · have unanswered : newestState coinId response.states id = none := by
          rw [← Option.not_isSome_iff_eq_none, newestState_isSome_iff]
          intro mentioned
          obtain ⟨answered, inResponse, rfl⟩ := mentioned
          exact asked (expected.answered answered inResponse).1
        have same : (state.cache.finishSubscribe coinId response).get id = state.cache.get id :=
          get_seed_of_unmentioned unanswered
        rw [same]
        exact h.subscribed id (member.resolve_right asked)
    · intro id held
      obtain ⟨answered, cached⟩ := Option.isSome_iff_exists.mp held
      rcases get_seed_inv cached with before | ⟨inResponse, rfl⟩
      · exact h.cached id (Option.isSome_iff_exists.mpr ⟨answered, before⟩)
      · exact (expected.answered answered inResponse).2
    · have tracked : (state.cache.trackCoins response.coinIds).PeakBounded := h.bounded
      exact tracked.seed

/-- Every event of a run in time keeps the invariant. Cases on the event. -/
theorem step (h : SubscribeInvariant coinId state) {event : SubscribeEvent}
    (inTime : InTime coinId state event)
    (stepped : (subscribing coinId).step state event = some next)
    : SubscribeInvariant coinId next := by
  cases event with
  | register coinIds => exact h.register stepped
  | advance changes height forkHeight peakHash => exact h.advance stepped
  | announcePeak headerHash => exact h.announcePeak stepped
  | apply => exact h.apply inTime stepped
  | finish index => exact h.finish inTime stepped

end SubscribeInvariant

------------------------------------------------------------------------------------------
-- A settled session
------------------------------------------------------------------------------------------

theorem subscribeInvariant_initial (coinId : ProtocolCoin → Bytes32)
    : SubscribeInvariant coinId (subscribing coinId).initial where
  agrees := ⟨by simp [subscribing], by simp [subscribing], by simp [subscribing]⟩
  queued frame member := by
    cases List.mem_singleton.mp member
    exact ⟨trivial, by simp [PoolFrame.items]⟩
  inFlight id mentions := by
    obtain ⟨frame, member, carries⟩ := mentions
    cases List.mem_singleton.mp member
    cases carries
  pending := by simp [subscribing]
  subscribed := by simp [subscribing, CoinStateCache.empty]
  cached := by simp [subscribing, CoinStateCache.empty, CoinStateCache.get]
  bounded := by simp [subscribing, CoinStateCache.empty, PeakBounded, CoinStateCache.get]

/-- In every run in which frames and responses land in time, a settled session has the newest
state the server sent in the cache, for every subscribed coin.
-/
theorem settled_cache_is_current {events : List SubscribeEvent} {final : SubscribeState}
    (inTime : (subscribing coinId).Meets (InTime coinId) events)
    (reached : (subscribing coinId).run events = some final) (settled : final.Settled)
    : final.Current := by
  have invariant := Machine.run_invariant (subscribeInvariant_initial coinId)
    (fun h guarded stepped => h.step guarded stepped) inTime reached
  intro id member
  have reaches := (invariant.subscribed id member).2
  rw [settled.2] at reaches
  exact reaches

/-- `sampleCoin` created at height 10. -/
def sampleState (spent : Option UInt32) : CoinState where
  coin := sampleCoin
  createdHeight := some 10
  spentHeight := spent

/-- A session in which the response lands before a reorganisation undoes a spend. -/
def inTimeEvents : List SubscribeEvent :=
  [.advance [sampleState (some 12)] 12 9 0, .announcePeak 0, .register [sampleId],
    .apply, .apply, .finish 0, .advance [sampleState none] 13 11 0, .apply]

theorem settled_cache_is_current_sample
    : ∃ final, (subscribing sampleCoinId).run inTimeEvents = some final
        ∧ final.cache.get sampleId = some (sampleState none)
        ∧ final.Current := by
  have inTime : (subscribing sampleCoinId).Meets (InTime sampleCoinId) inTimeEvents := by
    decide +kernel
  have reached
      : ((subscribing sampleCoinId).run inTimeEvents).any (fun final =>
          decide (final.pending.length = 0 ∧ final.queue = []
            ∧ final.cache.get sampleId = some (sampleState none)))
        = true := by
    decide +kernel
  obtain ⟨final, reached, facts⟩ := (Option.any_eq_true _ _).mp reached
  obtain ⟨answered, applied, cached⟩ := of_decide_eq_true facts
  have settled : final.Settled := ⟨List.length_eq_zero_iff.mp answered, applied⟩
  exact ⟨final, reached, cached, settled_cache_is_current inTime reached settled⟩

/-- A session in which the coin is spent after the server answered, and the frame that says
so is applied before the response is tracked.
-/
def overtakenEvents : List SubscribeEvent :=
  [.advance [sampleState none] 10 9 0, .register [sampleId],
    .advance [sampleState (some 11)] 11 10 0, .apply, .apply, .finish 0]

/-- The settled cache of that session holds the coin as unspent, and follows it as such. -/
theorem settled_cache_is_stale
    : ¬ ∀ (events : List SubscribeEvent) (final : SubscribeState),
        (subscribing sampleCoinId).run events = some final
        → final.Settled
        → final.Current := by
  intro claim
  have reached
      : ((subscribing sampleCoinId).run overtakenEvents).any (fun final =>
          decide (final.pending.length = 0 ∧ final.queue = []
            ∧ sampleId ∈ final.cache.subscribedCoins
            ∧ final.cache.get sampleId = some (sampleState none)
            ∧ final.sent[sampleId]? = some (sampleState (some 11))))
        = true := by
    decide +kernel
  obtain ⟨final, reached, facts⟩ := (Option.any_eq_true _ _).mp reached
  obtain ⟨answered, applied, subscribed, cached, sent⟩ := of_decide_eq_true facts
  have settled : final.Settled := ⟨List.length_eq_zero_iff.mp answered, applied⟩
  have current := claim overtakenEvents final reached settled sampleId subscribed
  rw [cached, sent] at current
  exact absurd current (by decide)

end ChiaQuery.LightClient
