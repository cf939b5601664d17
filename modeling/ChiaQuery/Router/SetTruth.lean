import ChiaQuery.Library.FaultDomains
import ChiaQuery.Peer.LocalErrors
import ChiaQuery.Peer.SetSoundness
import ChiaQuery.Router.HonestPeers
import ChiaQuery.Router.Windows

/-! What a population read tells of the chain while some sources lie. As long as no more hosts lie
than the floor of corroborators counts, and coinset.org does not, a set that is returned leaves out
no coin the caller asks for and names none that is not there.
-/

namespace ChiaQuery

open ChiaQuery.Library

/-- No more hosts than the floor of corroborators counts may lie in a round: the peers on every
other host tell the chain.
-/
def PeerRound.FewLiars (history : History) (round : PeerRound) : Prop :=
  ∃ liars : Finset IpAddr,
    liars.card ≤ corroborationFloor
    ∧ (∀ entry ∈ round.views.atPick,
        entry.address.ip ∉ liars → TellsHistory history (round.readAsked entry.peer))
    ∧ ∀ entry ∈ round.views.atSelection,
        entry.address.ip ∉ liars → TellsHistory history (round.readCorroborator entry.peer)

/-- The list of coinset.org describes the chain at some height. -/
def Exchange.CoinsetTells (history : History) (exchange : Exchange) : Prop :=
  ∀ raw, exchange.coinsetRaw = .ok raw → ∃ tip, history.DescribedBy tip raw

/-- The sources of one exchange, of which few enough lie. -/
structure Exchange.Sound (fallback : Bool) (history : History) (exchange : Exchange) : Prop where
  first : exchange.first.FewLiars history
  retry : exchange.retry.FewLiars history
  coinset : fallback = true → exchange.CoinsetTells history

/-- A projection that keeps every record. -/
def SetProjection.KeepsAll (projection : SetProjection) : Prop :=
  projection.includeSpent = true ∧ projection.startHeight = none

/-- What a list tells of the chain at a height, to a caller who asks for a projection of it: it
leaves out nothing, names no other coins, and where nothing is projected away, what it says last
about each coin is true.
-/
structure TellsSet (history : History) (projection : SetProjection) (height : UInt32)
    (items : List CoinRecord)
    : Prop where
  complete
    : ∀ claim ∈ claimsOf (project (history.snapshot height) projection), claim ∈ claimsOf items
  real : ∀ item ∈ items, ∃ record ∈ history.snapshot height, identity record = identity item
  seconded : projection.KeepsAll → LastClaimsSeconded items (history.snapshot height)

/-- The height a set is of: the one it is reported at, or the one that the list of coinset.org is
of, where coinset.org has not come so far.
-/
def Exchange.IsOf (history : History) (exchange : Exchange) (set : CorroboratedSet CoinRecord)
    (height : UInt32)
    : Prop :=
  height = set.asOfHeight
  ∨ height < set.asOfHeight
      ∧ ∃ raw, exchange.coinsetRaw = .ok raw ∧ history.DescribedBy height raw

/-- A set tells the chain at a height that it is of. -/
def Exchange.Tells (history : History) (projection : SetProjection) (exchange : Exchange)
    (set : CorroboratedSet CoinRecord)
    : Prop :=
  ∃ height, exchange.IsOf history set height ∧ TellsSet history projection height set.items

/-- A read is put together from sets that tell the chain, one for each of its questions, none of
which is reported at a lower height.
-/
structure TellsRead (histories : SetQuestion → History) (exchanges : SetQuestion → Nat → Exchange)
    (read : SetRead) (projection : SetProjection) (set : CorroboratedSet CoinRecord)
    (answers : List (CorroboratedSet CoinRecord))
    : Prop where
  items : set.items = answers.flatMap CorroboratedSet.items
  lowest : ∀ answer ∈ answers, set.asOfHeight ≤ answer.asOfHeight
  told
    : List.Forall₂
        (fun asked answer =>
          (exchanges asked.1 asked.2).Tells (histories asked.1) projection answer)
        read.questions.zipIdx answers

------------------------------------------------------------------------------------------
-- Descriptions of a chain
------------------------------------------------------------------------------------------

section Descriptions

variable {history : History} {projection : SetProjection} {height tip : UInt32}
  {items theirs : List CoinRecord}

theorem claimsOnce_project (once : ClaimsOnce items) (projection : SetProjection)
    : ClaimsOnce (project items projection) :=
  fun left leftHeld right rightHeld =>
    once left (List.mem_of_mem_filter leftHeld) right (List.mem_of_mem_filter rightHeld)

/-- A claim determines whether its record is wanted. -/
theorem wanted_congr {left right : CoinRecord} (same : chainClaim left = chainClaim right)
    : wanted projection left = wanted projection right := by
  obtain ⟨-, created, spent⟩ := chainClaim_eq_iff.mp same
  simp only [wanted, created, spent]

/-- What two lists describe alike they describe alike after a projection, because a claim tells
what is wanted.
-/
theorem DescribeSame.project (same : DescribeSame items theirs) (projection : SetProjection)
    : DescribeSame (project items projection) (project theirs projection) := by
  have kept {left right : List CoinRecord} (alike : DescribeSame left right) :
      ∀ item ∈ ChiaQuery.project left projection,
        ∃ their ∈ ChiaQuery.project right projection,
          identity their = identity item ∧ chainClaim their = chainClaim item := by
    intro item member
    obtain ⟨listed, asked⟩ := List.mem_filter.mp member
    obtain ⟨their, held, named, claimed⟩ := alike.exists_of_mem listed
    exact ⟨their, List.mem_filter.mpr ⟨held, wanted_congr claimed ▸ asked⟩, named, claimed⟩
  exact describeSame_of_forall (kept same) (kept same.symm)

/-- A list with the fingerprint of another one makes every claim of the other. -/
theorem exists_of_fingerprint_eq (same : fingerprint items = fingerprint theirs)
    (once : ClaimsOnce theirs) {their : CoinRecord} (member : their ∈ theirs)
    : ∃ item ∈ items, identity item = identity their ∧ chainClaim item = chainClaim their := by
  have claimed : (fingerprint items)[identity their]? = some (chainClaim their) := by
    rw [same, once.fingerprint_iff]
    exact mem_claimsOf.mpr ⟨their, member, rfl, rfl⟩
  exact exists_of_collectBy_eq_some claimed

theorem SetProjection.KeepsAll.project_eq (keeps : projection.KeepsAll) (items : List CoinRecord)
    : project items projection = items := by
  obtain ⟨all, unbounded⟩ := keeps
  apply List.filter_eq_self.mpr
  intro item _
  simp [wanted, all, unbounded]

/-- What agrees with the snapshot before the projection: a claim tells what is wanted. -/
theorem tellsSet_of_agreement (same : fingerprint items = fingerprint (history.snapshot height))
    : TellsSet history projection height (project items projection) where
  complete := by
    intro claim member
    obtain ⟨record, listed, rfl⟩ := List.mem_map.mp member
    obtain ⟨known, asked⟩ := List.mem_filter.mp listed
    obtain ⟨item, held, named, claimed⟩ :=
      exists_of_fingerprint_eq same (snapshot_claimsOnce history height) known
    have kept : item ∈ project items projection :=
      List.mem_filter.mpr ⟨held, (wanted_congr claimed).trans asked⟩
    exact mem_claimsOf.mpr ⟨item, kept, named, claimed⟩
  real := fun item member =>
    ((seconded_of_fingerprint_eq same).coins _).mp ⟨item, List.mem_of_mem_filter member, rfl⟩
  seconded := fun keeps => by
    rw [keeps.project_eq]
    exact seconded_of_fingerprint_eq same

/-- What agrees with the snapshot after the projection. -/
theorem tellsSet_of_projected
    (same
      : fingerprint items = fingerprint (project (history.snapshot height) projection))
    : TellsSet history projection height items where
  complete := by
    intro claim member
    obtain ⟨record, listed, rfl⟩ := List.mem_map.mp member
    obtain ⟨item, held, named, claimed⟩ := exists_of_fingerprint_eq same
      (claimsOnce_project (snapshot_claimsOnce history height) projection) listed
    exact mem_claimsOf.mpr ⟨item, held, named, claimed⟩
  real := by
    intro item member
    obtain ⟨record, listed, named⟩ :=
      ((seconded_of_fingerprint_eq same).coins _).mp ⟨item, member, rfl⟩
    exact ⟨record, List.mem_of_mem_filter listed, named⟩
  seconded := fun keeps => by
    rw [keeps.project_eq] at same
    exact seconded_of_fingerprint_eq same

/-- What coinset.org's list comes to, where it tells the chain. -/
theorem tellsSet_of_seconded (described : history.DescribedBy tip theirs)
    (same : fingerprint items = fingerprint (secondSet projection height theirs))
    : TellsSet history projection (min height tip) items := by
  apply tellsSet_of_projected
  rw [same]
  exact fingerprint_of_describeSame ((described.normaliseAt height).project projection)
    (claimsOnce_project (snapshot_claimsOnce history _) projection)

end Descriptions

------------------------------------------------------------------------------------------
-- Rounds with few liars
------------------------------------------------------------------------------------------

section Rounds

variable {history : History} {round : PeerRound} {projection : SetProjection}
  {items : List CoinRecord} {height : UInt32}

/-- A host holds these claims at a height, by the peer that is asked or by a corroborator. -/
inductive HostHolds (round : PeerRound) (height : UInt32) : IpAddr → Fingerprint → Prop
  | asked {entry set} (held : entry ∈ round.views.atPick)
    (read : round.readAsked entry.peer = .ok set) (reached : height ≤ set.asOfHeight)
    : HostHolds round height entry.address.ip (PeerBackend.claimsAt set height)
  | corroborator {entry set} (held : entry ∈ round.views.atSelection)
    (read : round.readCorroborator entry.peer = .ok set) (reached : height ≤ set.asOfHeight)
    : HostHolds round height entry.address.ip (PeerBackend.claimsAt set height)

/-- A corroborated set is the asked peer's, and more hosts than the floor hold its claims. -/
theorem backed_of_corroborated
    (settled : round.answer projection = .ok (.corroborated items height))
    : ∃ first : HeightedSet CoinRecord,
        items = project (normaliseAt first.items height) projection
        ∧ Backed (HostHolds round height) (corroborationFloor + 1)
            (PeerBackend.claimsAt first height) := by
  obtain ⟨peer, asked, first, picked, read⟩ :=
    PeerBackend.exists_answer_of_readSetCorroborated settled
  unfold PeerRound.answer at settled
  rw [PeerBackend.readSetCorroborated_of_answer picked read] at settled
  obtain ⟨projected, same, enough, -⟩ := PeerBackend.corroborated_inv settled
  obtain ⟨firstReached, othersReached⟩ :=
    PeerBackend.roundHeight_le (PeerBackend.roundHeight_of_corroborated settled)
  obtain ⟨entry, held, rfl, rfl⟩ := PeerBackend.mem_of_pick picked
  let answering := (PeerPool.corroborators round.views.atSelection entry.address).filter
    (fun other => (round.readCorroborator other.peer).isOk)
  have chosen : answering.Sublist (PeerPool.corroborators round.views.atSelection entry.address) :=
    List.filter_sublist
  refine ⟨first, projected, entry.address.ip :: answering.map (·.address.ip), ?_, ?_, ?_⟩
  · rw [List.nodup_cons]
    constructor
    · intro again
      obtain ⟨other, member, alike⟩ := List.mem_map.mp again
      exact (PeerPool.mem_corroborators (chosen.subset member)).2.1 alike
    · exact (PeerPool.corroborators_hosts_nodup _ _).sublist (chosen.map _)
  · rw [List.length_cons, List.length_map]
    apply Nat.succ_le_succ
    calc
      corroborationFloor ≤ _ := enough
      _ ≤ _ := List.countP_le_length
      _ = answering.length := PeerBackend.length_answered_askCorroborators _ _ _
  · intro host member
    rcases List.mem_cons.mp member with rfl | member
    · exact .asked held read firstReached
    · obtain ⟨other, answers, rfl⟩ := List.mem_map.mp member
      obtain ⟨drawn, answered⟩ := List.mem_filter.mp answers
      cases heard : round.readCorroborator other.peer with
      | error failure =>
          rw [heard] at answered
          cases answered
      | ok set =>
          have source : (other.address, set)
              ∈ (PeerBackend.askCorroborators round.views entry.address
                  round.readCorroborator).answered :=
            PeerBackend.mem_answered_askCorroborators.mpr ⟨other, drawn, rfl, heard⟩
          rw [← same _ source]
          exact .corroborator (PeerPool.mem_corroborators drawn).1 heard (othersReached _ source)

/-- With few liars a corroborated set tells the chain at the height it is reported at. -/
theorem PeerRound.FewLiars.corroborated (few : round.FewLiars history)
    (settled : round.answer projection = .ok (.corroborated items height))
    : TellsSet history projection height items := by
  obtain ⟨liars, bound, asked, others⟩ := few
  obtain ⟨first, rfl, backed⟩ := backed_of_corroborated settled
  apply tellsSet_of_agreement
  apply backed.holds (Nat.lt_succ_of_le bound) (· = fingerprint (history.snapshot height))
  intro host honest claims held
  cases held with
  | asked held read reached => exact asked _ held honest _ read _ reached
  | corroborator held read reached => exact others _ held honest _ read _ reached

end Rounds

------------------------------------------------------------------------------------------
-- The ladder of one question
------------------------------------------------------------------------------------------

section Ladders

variable {fallback : Bool} {history : History} {exchange : Exchange}
  {projection : SetProjection} {set : CorroboratedSet CoinRecord}

/-- A lower height that coinset.org's list is of counts as the height of a set it seconds. -/
theorem Exchange.tells_of_min {tip : UInt32} {raw : List CoinRecord}
    (answered : exchange.coinsetRaw = .ok raw) (described : history.DescribedBy tip raw)
    (told : TellsSet history projection (min set.asOfHeight tip) set.items)
    : exchange.Tells history projection set := by
  refine ⟨min set.asOfHeight tip, ?_, told⟩
  by_cases reached : set.asOfHeight ≤ tip
  · left
    exact Std.le_antisymm Std.min_le_left (Std.le_min_iff.mpr ⟨Std.le_refl _, reached⟩)
  · right
    have behind : tip < set.asOfHeight := Std.not_le.mp reached
    have lower : min set.asOfHeight tip = tip :=
      Std.le_antisymm Std.min_le_right
        (Std.le_min_iff.mpr ⟨Std.le_of_lt behind, Std.le_refl tip⟩)
    rw [lower]
    exact ⟨behind, raw, answered, described⟩

/-- What a peer attempt comes to is settled by its hosts, or by coinset.org. -/
theorem Exchange.Sound.settled (sound : exchange.Sound fallback history) {round : PeerRound}
    (few : round.FewLiars history) {answer : SetAnswer CoinRecord}
    (found : round.answer projection = .ok answer)
    (settled
      : QueryRouter.settleSetAnswer fallback answer projection exchange.coinsetRaw = .ok set)
    : exchange.Tells history projection set := by
  cases answer with
  | corroborated items height =>
      cases settled
      exact ⟨height, Or.inl rfl, few.corroborated found⟩
  | uncorroborated items height =>
      obtain ⟨enabled, answers⟩ := QueryRouter.settleSetAnswer_needs_coinset settled
      cases answered : exchange.coinsetRaw with
      | error failure =>
          rw [answered] at answers
          cases answers
      | ok raw =>
          obtain ⟨tip, described⟩ := sound.coinset enabled raw answered
          have verdict := settle_verdict items height projection raw
          rw [answered, QueryRouter.settleSetAnswer, QueryRouter.consult, if_pos enabled]
            at settled
          rw [verdict_eq_ok_iff.mpr settled] at verdict
          split at verdict
          · rename_i same
            cases verdict
            exact Exchange.tells_of_min answered described (tellsSet_of_seconded described same)
          · cases verdict

/-- What coinset.org alone lists, held to a height below its peak. -/
theorem Exchange.CoinsetTells.only (tells : exchange.CoinsetTells history)
    {peerError : ChiaQueryError}
    (returned
      : QueryRouter.coinsetOnlySet (exchange.attempts projection) projection peerError = .ok set)
    : exchange.Tells history projection set := by
  unfold QueryRouter.coinsetOnlySet at returned
  split at returned
  · cases returned
  · cases returned
  · rename_i peak stated
    split at returned
    · cases returned
    · rename_i height settled
      split at returned
      · cases returned
      · rename_i raw answered
        cases returned
        obtain ⟨tip, described⟩ := tells raw answered
        exact Exchange.tells_of_min answered described (tellsSet_of_seconded described rfl)

/-- A round of a population read that returns a set, over sources of which few enough lie. -/
theorem Exchange.Sound.tells (sound : exchange.Sound fallback history)
    (returned
      : QueryRouter.peerThenCoinsetSet fallback (exchange.attempts projection) projection
        = .ok set)
    : exchange.Tells history projection set := by
  unfold QueryRouter.peerThenCoinsetSet at returned
  split at returned
  · rename_i answer found
    exact sound.settled sound.first found returned
  · split at returned
    · rename_i answer found
      exact sound.settled sound.retry found returned
    · split at returned
      · rename_i enabled
        exact (sound.coinset enabled).only returned
      · cases returned

end Ladders

------------------------------------------------------------------------------------------
-- Whole reads
------------------------------------------------------------------------------------------

section Reads

variable {κ : Type} {fallback : Bool} {histories : SetQuestion → History}
  {exchanges : SetQuestion → Nat → Exchange} {sources : Sources κ}
  {projection : SetProjection} {set : CorroboratedSet CoinRecord}

/-- A list of questions that are all answered, one by one. -/
theorem forall₂_of_map_eq_ok {α β : Type*} {ask : α → Except ChiaQueryError β}
    {questions : List α} {answers : List β} (all : questions.map ask = answers.map .ok)
    : List.Forall₂ (fun question answer => ask question = .ok answer) questions answers := by
  rw [← List.forall₂_eq_eq_eq, List.forall₂_map_left_iff, List.forall₂_map_right_iff] at all
  exact all

/-- A read that asks one question returns what its round returns. -/
theorem tellsRead_of_round {read : SetRead} {question : SetQuestion}
    (one : read.questions = [question])
    (told : (exchanges question 0).Tells (histories question) projection set)
    : TellsRead histories exchanges read projection set [set] where
  items := (List.append_nil _).symm
  lowest := fun answer member => by
    rw [List.mem_singleton.mp member]
    exact Std.le_refl _
  told := by
    rw [one]
    exact .cons told .nil

/-- A read of the children of some parents puts the sets of its rounds together. -/
theorem tellsRead_of_parentIds {parentIds : List String}
    (told
      : ∀ question round answer,
          QueryRouter.setRound fallback sources question projection round = .ok answer
          → (exchanges question round).Tells (histories question) projection answer)
    (returned
      : QueryRouter.getCoinRecordsByParentIdsGraded fallback sources parentIds projection
        = .ok set)
    : ∃ answers,
        TellsRead histories exchanges (.byParentIds parentIds) projection set answers := by
  obtain ⟨answers, rounds, items, height⟩ := QueryRouter.graded_byParentIds_inv returned
  refine ⟨answers, items, ?_, ?_⟩
  · intro answer member
    cases parentIds with
    | nil =>
        cases List.map_eq_nil_iff.mp rounds.symm
        cases member
    | cons parentId rest =>
        rw [height]
        exact (QueryRouter.le_foldl_min_iff.mp (Std.le_refl _)).2 _ (List.mem_map_of_mem member)
  · have each := forall₂_of_map_eq_ok rounds
    have questions : (SetRead.byParentIds parentIds).questions.zipIdx
        = parentIds.zipIdx.map (Prod.map .children id) :=
      List.zipIdx_map
    rw [questions, List.forall₂_map_left_iff]
    exact each.imp (fun asked answer found => told _ _ _ found)

/-- What the tiers of a read answer in some exchanges, they tell with it. -/
theorem tellsRead_of_graded
    (asked
      : ∀ question round,
          sources.sets question projection round
          = (exchanges question round).attempts projection)
    (sound : ∀ question round, (exchanges question round).Sound fallback (histories question))
    (read : SetRead) (returned : read.graded fallback sources projection = .ok set)
    : ∃ answers, TellsRead histories exchanges read projection set answers := by
  have told {question : SetQuestion} {round : Nat} {answer : CorroboratedSet CoinRecord}
      (found : QueryRouter.setRound fallback sources question projection round = .ok answer)
      : (exchanges question round).Tells (histories question) projection answer := by
    rw [QueryRouter.setRound, asked] at found
    exact (sound question round).tells found
  cases read with
  | byParentIds parentIds => exact tellsRead_of_parentIds (fun _ _ _ found => told found) returned
  | _ => exact ⟨[set], tellsRead_of_round rfl (told returned)⟩

/-- A read of one question tells the chain at one height. -/
theorem TellsRead.one {read : SetRead} {question : SetQuestion}
    {answers : List (CorroboratedSet CoinRecord)}
    (told : TellsRead histories exchanges read projection set answers)
    (one : read.questions = [question])
    : ∃ height, TellsSet (histories question) projection height set.items := by
  have each := told.told
  rw [one] at each
  obtain ⟨answer, rest, ⟨height, -, tells⟩, behind, rfl⟩ := List.forall₂_cons_left_iff.mp each
  cases behind
  have items : set.items = answer.items := told.items.trans (List.append_nil _)
  exact ⟨height, items ▸ tells⟩

/-- A population read whose sources tell the chain, but for no more hosts than the floor counts. -/
theorem graded_sets_tell_chain
    (sound : ∀ question round, (exchanges question round).Sound fallback (histories question))
    (read : SetRead)
    (returned
      : read.graded fallback (Sources.ofExchanges exchanges : Sources κ) projection = .ok set)
    : ∃ answers, TellsRead histories exchanges read projection set answers :=
  tellsRead_of_graded (fun _ _ => rfl) sound read returned

end Reads

------------------------------------------------------------------------------------------
-- A liar among three hosts
------------------------------------------------------------------------------------------

/-- The records of the sample chain, and before them the false claim that all were spent at 50. -/
def doubledSet : HeightedSet CoinRecord where
  items :=
    (PeerBackend.sampleHistory.snapshot 100).map (fun record =>
        { record with spent := true, spentBlockIndex := 50 })
      ++ PeerBackend.sampleHistory.snapshot 100
  asOfHeight := 100

/-- The peer that is asked lies, the two others do not. -/
def doubledRound : PeerRound where
  views := .still samplePool
  readAsked peer :=
    if peer = (sampleEntry 1).peer then .ok doubledSet
    else .ok (PeerBackend.sampleHistory.sourceAt 100)
  readCorroborator _ := .ok (PeerBackend.sampleHistory.sourceAt 100)

def doubledExchange : Exchange where
  first := doubledRound
  retry := doubledRound
  coinsetPeak := .error .peerDiscoveryFailed
  coinsetRaw := .error .peerDiscoveryFailed

theorem TellsHistory.sourceAt (history : History) (tip : UInt32)
    : TellsHistory history (.ok (history.sourceAt tip)) := by
  apply TellsHistory.of_described
  intro set found
  cases found
  exact ⟨tip, Std.le_refl tip, fun _ => Iff.rfl⟩

theorem doubledRound_fewLiars : doubledRound.FewLiars PeerBackend.sampleHistory := by
  refine ⟨{(sampleEntry 1).address.ip}, by decide, ?_, ?_⟩
  · intro entry held honest
    have other : entry.peer ≠ (sampleEntry 1).peer := by
      rintro same
      have listed : entry ∈ samplePool := held
      simp only [samplePool, List.mem_cons, List.not_mem_nil, or_false] at listed
      rcases listed with rfl | rfl | rfl
      · exact honest (Finset.mem_singleton_self _)
      · exact absurd same (by decide)
      · exact absurd same (by decide)
    have read : doubledRound.readAsked entry.peer
        = .ok (PeerBackend.sampleHistory.sourceAt 100) :=
      if_neg other
    rw [read]
    exact .sourceAt _ _
  · exact fun _ _ _ => .sourceAt _ _

/-- What the read of all the coins returns in these exchanges. -/
def doubledRead : Except ChiaQueryError (CorroboratedSet CoinRecord) :=
  SetRead.graded false (Sources.ofExchanges (fun _ _ => doubledExchange) : Sources Unit)
    (.byHint "hint") { includeSpent := true }

/-- The false claim is returned beside the true one, which comes last. -/
theorem graded_sets_tell_chain_sample
    : ∃ set answers,
        doubledRead = .ok set
        ∧ set.items.length = 2
        ∧ TellsRead (fun _ => PeerBackend.sampleHistory) (fun _ _ => doubledExchange)
            (.byHint "hint") { includeSpent := true } set answers := by
  have sound : doubledExchange.Sound false PeerBackend.sampleHistory :=
    ⟨doubledRound_fewLiars, doubledRound_fewLiars, nofun⟩
  have two : doubledRead.toOption.map (fun set => set.items.length) = some 2 := by
    decide +kernel
  cases returned : doubledRead with
  | error failure =>
      rw [returned] at two
      cases two
  | ok set =>
      rw [returned] at two
      obtain ⟨answers, told⟩ :=
        graded_sets_tell_chain (fun _ _ => sound) (.byHint "hint") returned
      exact ⟨set, answers, rfl, Option.some.inj two, told⟩

end ChiaQuery
