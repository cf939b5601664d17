import ChiaQuery.Peer.SetRead

/-! Honest sources of one chain. A history lists every coin with its lifetime, a source at
tip `P` returns the snapshot at `P`, and holding that snapshot to a lower height gives the
snapshot at that height, so honest sources never disagree.
-/

namespace ChiaQuery

open ChiaQuery.Library

/-- One coin of a history: where it was created and, if it was, where it was spent. -/
structure ChainCoin where
  coin : ProtocolCoin
  created : UInt32
  spent : Option UInt32
  deriving DecidableEq, Repr

/-- A reorg-free chain: finitely many coins, each listed once and spent no earlier than it
was created.
-/
structure History where
  coins : List ChainCoin
  distinct : (coins.map ChainCoin.coin).Nodup
  ordered : ∀ coin ∈ coins, coin.spent.all (fun spent => coin.created ≤ spent) = true

/-- The record a node at `height` has of a coin created by then. -/
def ChainCoin.recordAt (chainCoin : ChainCoin) (height : UInt32) : CoinRecord :=
  coinStateToRecord
    {
      coin := chainCoin.coin,
      createdHeight := some chainCoin.created,
      spentHeight := chainCoin.spent.filter (fun spent => spent ≤ height)
    }

/-- Everything a node at `height` knows. -/
def History.snapshot (history : History) (height : UInt32) : List CoinRecord :=
  (history.coins.filter (fun coin => coin.created ≤ height)).map
    (fun coin => coin.recordAt height)

/-- A list is the full snapshot at a height when it has the same records, in any order. -/
def IsSnapshot (history : History) (height : UInt32) (items : List CoinRecord) : Prop :=
  ∀ record, record ∈ items ↔ record ∈ history.snapshot height

/-- A source is honest when it returns the full snapshot at the height it states. -/
def IsHonest (history : History) (source : HeightedSet CoinRecord) : Prop :=
  IsSnapshot history source.asOfHeight source.items

/-- The honest source of a history at a tip. -/
def History.sourceAt (history : History) (tip : UInt32) : HeightedSet CoinRecord where
  items := history.snapshot tip
  asOfHeight := tip

theorem mem_snapshot {history : History} {height : UInt32} {record : CoinRecord}
    : record ∈ history.snapshot height
      ↔ ∃ coin ∈ history.coins, coin.created ≤ height ∧ coin.recordAt height = record := by
  simp [History.snapshot, List.mem_map, List.mem_filter, and_assoc]

/-- Coins are determined by the text that identifies them: both hashes are rendered to the
same length, so the text splits at fixed places.
-/
theorem identity_fromProtocol_injective {left right : CoinState}
    (same : identity (coinStateToRecord left) = identity (coinStateToRecord right))
    : left.coin = right.coin := by
  obtain ⟨⟨leftParent, leftPuzzle, leftAmount⟩, _, _⟩ := left
  obtain ⟨⟨rightParent, rightPuzzle, rightAmount⟩, _, _⟩ := right
  have rendered
      : hex32 leftParent ++ ":" ++ hex32 leftPuzzle ++ ":" ++ toString leftAmount
        = hex32 rightParent ++ ":" ++ hex32 rightPuzzle ++ ":" ++ toString rightAmount :=
    same
  have chars := congrArg String.toList rendered
  simp only [String.toList_append, List.append_assoc] at chars
  obtain ⟨hparent, rest⟩ := List.append_inj chars (by simp only [hex32_length])
  obtain ⟨hpuzzle, rest⟩ := List.append_inj (List.append_cancel_left rest)
    (by simp only [hex32_length])
  have hamount := List.append_cancel_left rest
  rw [hex32_injective (String.toList_inj.mp hparent),
    hex32_injective (String.toList_inj.mp hpuzzle),
    amount_toString_injective (String.toList_inj.mp hamount)]

/-- Holding a node's record to a lower height gives the record it had at that height: a
spend above the height is dropped whether or not the node had seen it.
-/
theorem heldAt_recordAt (coin : ChainCoin) {height tip : UInt32} (h : height ≤ tip)
    : heldAt height (coin.recordAt tip) = coin.recordAt height := by
  obtain ⟨coin, created, spent⟩ := coin
  cases spent with
  | none => rfl
  | some spent =>
      by_cases hheight : spent ≤ height
      · have htip : spent ≤ tip := by grind
        have hbelow : ¬height < spent := by grind
        simp [ChainCoin.recordAt, heldAt, coinStateToRecord, spentHeight, Option.filter,
          hheight, htip, hbelow]
      · by_cases htip : spent ≤ tip
        · have habove : height < spent := by grind
          simp [ChainCoin.recordAt, heldAt, coinStateToRecord, spentHeight,
            withSpendDropped, Option.filter, hheight, htip, habove]
        · simp [ChainCoin.recordAt, heldAt, coinStateToRecord, spentHeight, Option.filter,
            hheight, htip]

theorem mem_normaliseAt {α : Type*} [SetMember α] {items : List α} {height : UInt32}
    {record : α}
    : record ∈ normaliseAt items height
      ↔ ∃ item ∈ items, createdHeight item ≤ height ∧ heldAt height item = record := by
  simp [normaliseAt, List.mem_map, List.mem_filter, and_assoc]

/-- Normalising a snapshot gives the snapshot at the lower height. -/
theorem normaliseAt_isSnapshot {history : History} {height tip : UInt32}
    {items : List CoinRecord} (honest : IsSnapshot history tip items) (h : height ≤ tip)
    : IsSnapshot history height (normaliseAt items height) := by
  intro record
  rw [mem_normaliseAt, mem_snapshot]
  constructor
  · intro kept
    obtain ⟨item, member, hcreated, hheld⟩ := kept
    obtain ⟨coin, hcoin, -, rfl⟩ := mem_snapshot.mp ((honest item).mp member)
    rw [heldAt_recordAt coin h] at hheld
    exact ⟨coin, hcoin, hcreated, hheld⟩
  · intro recorded
    obtain ⟨coin, hcoin, hcreated, hrecord⟩ := recorded
    have hknown : coin.created ≤ tip := by grind
    refine ⟨coin.recordAt tip, ?_, hcreated, ?_⟩
    · exact (honest _).mpr (mem_snapshot.mpr ⟨coin, hcoin, hknown, rfl⟩)
    · rw [heldAt_recordAt coin h, hrecord]

/-- One snapshot holds at most one record of each coin. -/
theorem snapshot_identity_injective {history : History} {height : UInt32}
    {left right : CoinRecord} (hleft : left ∈ history.snapshot height)
    (hright : right ∈ history.snapshot height) (same : identity left = identity right)
    : left = right := by
  obtain ⟨leftCoin, hleftCoin, -, rfl⟩ := mem_snapshot.mp hleft
  obtain ⟨rightCoin, hrightCoin, -, rfl⟩ := mem_snapshot.mp hright
  have hcoin := identity_fromProtocol_injective same
  rw [List.inj_on_of_nodup_map history.distinct hleftCoin hrightCoin hcoin]

/-- Two lists of one snapshot have one fingerprint. -/
theorem fingerprint_eq_of_isSnapshot {history : History} {height : UInt32}
    {left right : List CoinRecord} (hleft : IsSnapshot history height left)
    (hright : IsSnapshot history height right)
    : fingerprint left = fingerprint right := by
  refine collectBy_congr (fun item => (hleft item).trans (hright item).symm) ?_
  intro a ha b hb same
  rw [snapshot_identity_injective ((hleft a).mp ha) ((hleft b).mp hb) same]

namespace PeerBackend

/-- What a height does to the answers of honest sources at or above it. -/
structure HonestAgreement (history : History) (sources : List (HeightedSet CoinRecord))
    (height : UInt32)
    : Prop where
  normalised : ∀ source ∈ sources, IsSnapshot history height (normaliseAt source.items height)
  same_claims
    : ∀ left ∈ sources,
        ∀ right ∈ sources, claimsAt left height = claimsAt right height
  no_contradiction
    : ∀ left ∈ sources,
        ∀ right ∈ sources,
          ∀ asked other : String,
            contradiction asked (claimsAt left height) other (claimsAt right height) = none
  projected
    : ∀ source ∈ sources,
        ∀ projection record,
          record ∈ project (normaliseAt source.items height) projection
          ↔ record ∈ project (history.snapshot height) projection

/-- A round asked of honest sources reports what the chain was at the height it states, and
never a disagreement.
-/
structure HonestRound (history : History) (projection : SetProjection)
    (result : Except ChiaQueryError (SetAnswer CoinRecord))
    : Prop where
  agrees : reportsDisagreement result = false
  items
    : ∀ answer,
        result = .ok answer
        → ∀ record,
            record ∈ answer.items
            ↔ record ∈ project (history.snapshot answer.asOfHeight) projection

theorem honest_agreement {history : History} {sources : List (HeightedSet CoinRecord)}
    {height : UInt32} (honest : ∀ source ∈ sources, IsHonest history source)
    (below : ∀ source ∈ sources, height ≤ source.asOfHeight)
    : HonestAgreement history sources height := by
  have hnormalised
      : ∀ source ∈ sources, IsSnapshot history height (normaliseAt source.items height) :=
    fun source member => normaliseAt_isSnapshot (honest source member) (below source member)
  have hsame
      : ∀ left ∈ sources,
          ∀ right ∈ sources, claimsAt left height = claimsAt right height :=
    fun left hleft right hright =>
      fingerprint_eq_of_isSnapshot (hnormalised left hleft) (hnormalised right hright)
  refine ⟨hnormalised, hsame, ?_, ?_⟩
  · intro left hleft right hright asked other
    exact contradiction_eq_none_iff.mpr (hsame left hleft right hright)
  · intro source member projection record
    simp only [project, List.mem_filter, hnormalised source member record]

/-- A round is graded at a height none of its sources is below. -/
theorem roundHeight_le {first : HeightedSet CoinRecord}
    {others : List (SocketAddr × HeightedSet CoinRecord)} {projection : SetProjection}
    {height : UInt32} (h : roundHeight first others projection = some height)
    : height ≤ first.asOfHeight ∧ ∀ other ∈ others, height ≤ other.2.asOfHeight := by
  have hall := commonHeight_le h
  refine ⟨hall _ (by simp), fun other member => hall _ ?_⟩
  exact List.mem_cons_of_mem _ (List.mem_map_of_mem member)

/-- Grading honest answers: at any common height their claims are equal, so the round can
only report the first answer there.
-/
theorem honest_settleSources {history : History} {asked : SocketAddr}
    {ready : CorroborationReadiness} {first : HeightedSet CoinRecord}
    {others : List (SocketAddr × HeightedSet CoinRecord)} {projection : SetProjection}
    (honestFirst : IsHonest history first)
    (honest : ∀ other ∈ others, IsHonest history other.2)
    : HonestRound history projection
        (settleSources asked ready first others projection) := by
  have hverdict := settleSources_verdict asked ready first others projection
  cases hheight : roundHeight first others projection with
  | none =>
      simp only [hheight] at hverdict
      cases hresult : settleSources asked ready first others projection with
      | ok answer => simp [hresult, verdict, Except.mapError] at hverdict
      | error failure =>
          refine ⟨?_, fun answer h => by cases h⟩
          cases failure <;>
            simp [hresult, verdict, Except.mapError, ChiaQueryError.kind] at hverdict
          rfl
  | some height =>
      obtain ⟨hfirst, hothers⟩ := roundHeight_le hheight
      have hsnapshot := normaliseAt_isSnapshot honestFirst hfirst
      have hsame : ∀ source ∈ others, claimsAt source.2 height = claimsAt first height :=
        fun source member =>
          fingerprint_eq_of_isSnapshot
            (normaliseAt_isSnapshot (honest source member) (hothers source member)) hsnapshot
      rw [settleSources_of_agreement hheight hsame]
      refine ⟨rfl, ?_⟩
      intro answer h record
      have hprojected
          : record ∈ project (normaliseAt first.items height) projection
            ↔ record ∈ project (history.snapshot height) projection := by
        simp only [project, List.mem_filter, hsnapshot record]
      cases h
      split
      · exact hprojected
      · exact hprojected

/-- Honest sources at any tips agree at every height none of them is below, and no round
asked of them ever reports a disagreement. Witness: a snapshot held to a lower height is the
snapshot at that height, and equal snapshots have equal fingerprints.
-/
theorem honest_sources_agree {history : History} {sources : List (HeightedSet CoinRecord)}
    (honest : ∀ source ∈ sources, IsHonest history source)
    : (∀ height,
        (∀ source ∈ sources, height ≤ source.asOfHeight)
        → HonestAgreement history sources height)
      ∧ ∀ (views : PoolViews)
          (readAsked readCorroborator
            : Peer → Except ChiaQueryError (HeightedSet CoinRecord))
          (projection : SetProjection) (peer : Peer) (asked : SocketAddr)
          (first : HeightedSet CoinRecord),
          pick views = .ok (peer, asked)
          → readAsked peer = .ok first
          → first ∈ sources
          → (∀ corroborator set, readCorroborator corroborator = .ok set → set ∈ sources)
          → HonestRound history projection
              (readSetCorroborated views readAsked readCorroborator projection).result := by
  constructor
  · intro height below
    exact honest_agreement honest below
  · intro views readAsked readCorroborator projection peer asked first hpick hread hfirst
      hothers
    rw [readSetCorroborated_of_answer hpick hread]
    refine honest_settleSources (honest first hfirst) ?_
    intro other member
    have hanswer := Answers.mem_answered.mp member
    obtain ⟨⟨corroborator, address⟩, -, heq⟩ := List.mem_map.mp hanswer
    exact honest _ (hothers corroborator other.2 (congrArg Prod.snd heq))

/-- Two coins, one of them spent between the tips of the two sources below. -/
def sampleHistory : History where
  coins :=
    [
      { coin := { parentCoinInfo := 1, puzzleHash := 2, amount := 7 }, created := 10,
        spent := some 102 },
      { coin := { parentCoinInfo := 3, puzzleHash := 2, amount := 9 }, created := 99,
        spent := none }
    ]
  distinct := by decide
  ordered := by decide

theorem honest_sources_agree_sample
    : HonestAgreement sampleHistory [sampleHistory.sourceAt 100, sampleHistory.sourceAt 103]
        98 := by
  refine (honest_sources_agree ?_).1 98 (by decide)
  intro source member record
  rcases List.mem_pair.mp member with rfl | rfl
  · exact Iff.rfl
  · exact Iff.rfl

end PeerBackend

end ChiaQuery
