import ChiaQuery.Peer.HonestPages
import ChiaQuery.Peer.LocalErrors
import ChiaQuery.Router.ParentIds
import ChiaQuery.Router.SetSettlement

/-! The population reads of one connection, and what an honest node on its other end makes of them.
-/

namespace ChiaQuery

open ChiaQuery.Library

/-- A list makes the claims of the chain at a height, and no others. -/
def History.DescribedBy (history : History) (height : UInt32) (items : List CoinRecord) : Prop :=
  DescribeSame items (history.snapshot height)

variable {crates : ChiaCrates}

/-- What a question asks a peer for page by page, and whether it asks for hints. -/
def SetQuestion.paged : SetQuestion → Option (List String × Bool)
  | .hint hash => some ([hash], true)
  | .hints hashes => some (hashes, true)
  | .puzzleHash hash => some ([hash], false)
  | .puzzleHashes hashes => some (hashes, false)
  | .names _ => none
  | .children _ => none

namespace PeerBackend

/-- What the peer tier asks one connection about a population. -/
def readSet (wire : PeerWire crates) (question : SetQuestion) (peer : Peer)
    : Except ChiaQueryError (HeightedSet CoinRecord) :=
  match question with
  | .hint hint => doPuzzleHashRead wire peer [hint] true
  | .hints hints => doPuzzleHashRead wire peer hints true
  | .names names => heightedAtPeak wire peer (doCoinIdsQuery wire peer names)
  | .puzzleHash puzzleHash => doPuzzleHashRead wire peer [puzzleHash] false
  | .puzzleHashes puzzleHashes => doPuzzleHashRead wire peer puzzleHashes false
  | .children parentId => heightedAtPeak wire peer (doGetChildren wire peer parentId)

end PeerBackend

/-- The states that a node reports at once describe the chain at a tip no lower than the peak it
has announced.
-/
def DatedStates (history : History) (announced : Option UInt32) (states : List CoinState) : Prop :=
  ∃ tip,
    (∀ peak ∈ announced, peak ≤ tip)
    ∧ history.DescribedBy tip (coinStatesToRecords states)

/-- An honest node, as one connection shows it: every request fails or is answered from the chain
that the node has by then.
-/
structure HonestNode (histories : SetQuestion → History) (wire : PeerWire crates) (peer : Peer)
    : Prop where
  pages
    : ∀ question hashes hinted puzzleHashes,
        question.paged = some (hashes, hinted)
        → hashes.mapM parseBytes32 = .ok puzzleHashes
        → ∃ genesisChallenge replies tips,
            HonestReplies (histories question) genesisChallenge replies tips
            ∧ Loop.Returns (Loop.after PeerBackend.queryTurn replies (.start genesisChallenge))
                (wire.walkPuzzleState peer puzzleHashes hinted)
  names
    : ∀ names ids states,
        names.mapM parseBytes32 = .ok ids
        → wire.requestCoinState peer ids = .answered states
        → DatedStates (histories (.names names)) (wire.announcedPeak peer) states
  children
    : ∀ parentId coinName states,
        parseBytes32 parentId = .ok coinName
        → wire.requestChildren peer coinName = .ok states
        → DatedStates (histories (.children parentId)) (wire.announcedPeak peer) states

------------------------------------------------------------------------------------------
-- Descriptions of a chain
------------------------------------------------------------------------------------------

section Descriptions

variable {history : History} {height tip : UInt32} {items theirs : List CoinRecord}

theorem snapshot_claimsOnce (history : History) (height : UInt32)
    : ClaimsOnce (history.snapshot height) := by
  intro left leftHeld right rightHeld same
  rw [snapshot_identity_injective leftHeld rightHeld same]

/-- A list describes as another does when its claims are among the other's, and conversely. -/
theorem describeSame_of_forall
    (forth
      : ∀ item ∈ items,
          ∃ their ∈ theirs, identity their = identity item ∧ chainClaim their = chainClaim item)
    (back
      : ∀ their ∈ theirs,
          ∃ item ∈ items, identity item = identity their ∧ chainClaim item = chainClaim their)
    : DescribeSame items theirs := by
  rintro ⟨coin, claim⟩
  rw [mem_claimsOf, mem_claimsOf]
  constructor
  · rintro ⟨item, member, rfl, rfl⟩
    exact forth item member
  · rintro ⟨their, member, rfl, rfl⟩
    exact back their member

theorem DescribeSame.symm (same : DescribeSame items theirs) : DescribeSame theirs items :=
  fun claim => (same claim).symm

theorem DescribeSame.exists_of_mem (same : DescribeSame items theirs) {item : CoinRecord}
    (member : item ∈ items)
    : ∃ their ∈ theirs, identity their = identity item ∧ chainClaim their = chainClaim item :=
  mem_claimsOf.mp ((same _).mp (mem_claimsOf.mpr ⟨item, member, rfl, rfl⟩))

/-- What two lists describe alike they describe alike at every height. -/
theorem DescribeSame.normaliseAt (same : DescribeSame items theirs) (height : UInt32)
    : DescribeSame (normaliseAt items height) (normaliseAt theirs height) := by
  have held {left right : List CoinRecord} (alike : DescribeSame left right) :
      ∀ item ∈ ChiaQuery.normaliseAt left height,
        ∃ their ∈ ChiaQuery.normaliseAt right height,
          identity their = identity item ∧ chainClaim their = chainClaim item := by
    intro item member
    obtain ⟨record, listed, created, rfl⟩ := mem_normaliseAt.mp member
    obtain ⟨their, member, named, claimed⟩ := alike.exists_of_mem listed
    refine ⟨heldAt height their, mem_normaliseAt.mpr ⟨their, member, ?_, rfl⟩, ?_, ?_⟩
    · rw [(chainClaim_eq_iff.mp claimed).2.1]
      exact created
    · rw [identity_heldAt, identity_heldAt, named]
    · exact chainClaim_heldAt claimed height
  exact describeSame_of_forall (held same) (held same.symm)

theorem DescribeSame.trans {others : List CoinRecord} (same : DescribeSame items theirs)
    (again : DescribeSame theirs others)
    : DescribeSame items others :=
  fun claim => (same claim).trans (again claim)

theorem spentHeight_recordAt (coin : ChainCoin) (height : UInt32)
    : spentHeight (coin.recordAt height) = coin.spent.filter (fun spent => spent ≤ height) := by
  have same (coin : ProtocolCoin) (created : UInt32) (spent : Option UInt32)
      : SetMember.spentHeight
          (coinStateToRecord { coin, createdHeight := some created, spentHeight := spent })
        = spent := by
    cases spent <;> rfl
  exact same _ _ _

/-- Held to a height, the records of a node are those it had there, or all it has. -/
theorem describeSame_normaliseAt_snapshot (history : History) (height tip : UInt32)
    : DescribeSame (normaliseAt (history.snapshot tip) height)
        (history.snapshot (min height tip)) := by
  rcases Std.le_total (a := height) (b := tip) with below | above
  · have lower : min height tip = height :=
      Std.le_antisymm Std.min_le_left (Std.le_min_iff.mpr ⟨Std.le_refl height, below⟩)
    rw [lower]
    have held : IsSnapshot history height (normaliseAt (history.snapshot tip) height) :=
      normaliseAt_isSnapshot (fun _ => Iff.rfl) below
    exact describeSame_of_forall
      (fun item member => ⟨item, (held item).mp member, rfl, rfl⟩)
      (fun item member => ⟨item, (held item).mpr member, rfl, rfl⟩)
  · have lower : min height tip = tip :=
      Std.le_antisymm Std.min_le_right (Std.le_min_iff.mpr ⟨above, Std.le_refl tip⟩)
    have unchanged : normaliseAt (history.snapshot tip) height = history.snapshot tip := by
      apply normaliseAt_eq_self
      · intro record member
        obtain ⟨coin, -, created, rfl⟩ := mem_snapshot.mp member
        exact Std.le_trans created above
      · intro record member spent found
        obtain ⟨coin, -, -, rfl⟩ := mem_snapshot.mp member
        rw [spentHeight_recordAt, Option.mem_def, Option.filter_eq_some_iff] at found
        exact Std.le_trans (of_decide_eq_true found.2) above
    rw [lower, unchanged]
    exact fun _ => Iff.rfl

theorem History.DescribedBy.normaliseAt (described : history.DescribedBy tip items)
    (height : UInt32)
    : history.DescribedBy (min height tip) (normaliseAt items height) :=
  (DescribeSame.normaliseAt described height).trans
    (describeSame_normaliseAt_snapshot history height tip)

/-- A description has the fingerprint of the snapshot. -/
theorem fingerprint_of_describeSame (same : DescribeSame items theirs) (once : ClaimsOnce theirs)
    : fingerprint items = fingerprint theirs :=
  fingerprint_eq_of_seconded (seconded_of_describeSame same) once

/-- A read whose answers describe the chain at a tip no lower than they are dated. -/
theorem TellsHistory.of_described {read : Except ChiaQueryError (HeightedSet CoinRecord)}
    (described
      : ∀ set,
          read = .ok set
          → ∃ tip, set.asOfHeight ≤ tip ∧ history.DescribedBy tip set.items)
    : TellsHistory history read := by
  intro set found height reached
  obtain ⟨tip, dated, alike⟩ := described set found
  have known : height ≤ tip := Std.le_trans reached dated
  have lower : min height tip = height :=
    Std.le_antisymm Std.min_le_left (Std.le_min_iff.mpr ⟨Std.le_refl height, known⟩)
  have held := alike.normaliseAt height
  rw [lower] at held
  exact fingerprint_of_describeSame held (snapshot_claimsOnce history height)

end Descriptions

------------------------------------------------------------------------------------------
-- The reads of an honest node
------------------------------------------------------------------------------------------

section Reads

variable {history : History} {wire : PeerWire crates} {peer : Peer}

/-- A read that is dated at an announced peak tells the chain when its records are of no earlier
tip.
-/
theorem heightedAtPeak_tellsHistory {read : Except ChiaQueryError (List CoinRecord)}
    (dated
      : ∀ items,
          read = .ok items
          → ∃ tip,
              (∀ peak ∈ wire.announcedPeak peer, peak ≤ tip)
              ∧ history.DescribedBy tip items)
    : TellsHistory history (PeerBackend.heightedAtPeak wire peer read) := by
  apply TellsHistory.of_described
  intro set found
  obtain ⟨items, answered, found⟩ := bind_eq_ok_iff.mp found
  obtain ⟨peak, announced, found⟩ := bind_eq_ok_iff.mp found
  cases found
  obtain ⟨tip, reached, described⟩ := dated items answered
  refine ⟨tip, reached peak ?_, described⟩
  unfold PeerBackend.peerAsOf at announced
  split at announced
  · rename_i same
    cases announced
    exact same
  · cases announced

/-- A page by page read of an honest node. -/
theorem doPuzzleHashRead_tellsHistory {hashes : List String} {hinted : Bool}
    (pages
      : ∀ puzzleHashes,
          hashes.mapM parseBytes32 = .ok puzzleHashes
          → ∃ genesisChallenge replies tips,
              HonestReplies history genesisChallenge replies tips
              ∧ Loop.Returns (Loop.after PeerBackend.queryTurn replies (.start genesisChallenge))
                  (wire.walkPuzzleState peer puzzleHashes hinted))
    : TellsHistory history (PeerBackend.doPuzzleHashRead wire peer hashes hinted) := by
  intro set found
  obtain ⟨puzzleHashes, parsed, supported⟩ := bind_eq_ok_iff.mp found
  obtain ⟨genesisChallenge, replies, tips, honest, requests, walked⟩ := pages puzzleHashes parsed
  refine tellsHistory_of_supportedSet ?_ set supported
  intro states asOfHeight ended height below
  rw [ended] at walked
  exact honest.heldClaims_eq walked below

/-- Whatever population a question asks an honest node for, it fails or tells the chain. -/
theorem HonestNode.tellsHistory {histories : SetQuestion → History}
    (honest : HonestNode histories wire peer) (question : SetQuestion)
    : TellsHistory (histories question) (PeerBackend.readSet wire question peer) := by
  cases question with
  | names names =>
      apply heightedAtPeak_tellsHistory
      intro items answered
      obtain ⟨ids, parsed, answered⟩ := bind_eq_ok_iff.mp answered
      obtain ⟨states, replied, answered⟩ := bind_eq_ok_iff.mp answered
      cases answered
      exact honest.names names ids states parsed (Reply.orError_eq_ok_iff.mp replied)
  | children parentId =>
      apply heightedAtPeak_tellsHistory
      intro items answered
      obtain ⟨coinName, parsed, answered⟩ := bind_eq_ok_iff.mp answered
      obtain ⟨states, replied, answered⟩ := bind_eq_ok_iff.mp answered
      cases answered
      exact honest.children parentId coinName states parsed (mapError_eq_ok_iff.mp replied)
  | _ => exact doPuzzleHashRead_tellsHistory (fun puzzleHashes => honest.pages _ _ _ _ rfl)

end Reads

end ChiaQuery
