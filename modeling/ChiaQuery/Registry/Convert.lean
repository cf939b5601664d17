import ChiaQuery.Registry.Views
import ChiaQuery.Types.Hex

/-! The conversion of a record as the crate renders it into the interface's record, and what
the claim of a record says of it. A record whose claim is that of a peer's coin state names
the same coin and heights, and converts to the same record up to what the claim leaves out.
-/

namespace ChiaQuery.Registry

open ChiaQuery.Library

/-- `convert::parse_bytes32`. -/
def parseBytes32 (hexStr : String) : Except ChainSourceError Bytes32 :=
  match hexDecode (stripHexPrefix hexStr) with
  | .error failure => .error (.malformed s!"invalid hex `{hexStr}`: {failure.display}")
  | .ok bytes =>
      match bytes32Of bytes with
      | some hash => .ok hash
      | none => .error (.malformed s!"expected 32 bytes, got {bytes.length}")

/-- `coin_from_chq`. -/
def coinFromChq (coin : Coin) : Except ChainSourceError ProtocolCoin := do
  let parentCoinInfo ← parseBytes32 coin.parentCoinInfo
  let puzzleHash ← parseBytes32 coin.puzzleHash
  return { parentCoinInfo, puzzleHash, amount := coin.amount }

/-- `none_if_zero_u32`. -/
def noneIfZeroU32 (value : UInt32) : Option UInt32 :=
  if value ≠ 0 then some value else none

/-- `none_if_zero_u64`. -/
def noneIfZeroU64 (value : UInt64) : Option UInt64 :=
  if value ≠ 0 then some value else none

/-- `coin_record_from_chq`. -/
def coinRecordFromChq (record : CoinRecord) : Except ChainSourceError IfaceCoinRecord := do
  let coin ← coinFromChq record.coin
  return {
    coin,
    confirmedHeight := noneIfZeroU32 record.confirmedBlockIndex,
    spentHeight := if record.spent then some record.spentBlockIndex else none,
    timestamp := noneIfZeroU64 record.timestamp,
    coinbase := record.coinbase
  }

/-- A peer's record as the interface sees it. -/
def peerRecord (state : CoinState) : IfaceCoinRecord where
  coin := state.coin
  confirmedHeight := noneIfZeroU32 (state.createdHeight.getD 0)
  spentHeight := state.spentHeight
  timestamp := none
  coinbase := false

theorem parseBytes32_hex32 (bytes : Bytes32) : parseBytes32 (hex32 bytes) = .ok bytes := by
  simp only [parseBytes32, hexDecode_hex32, bytes32Of_lastBytes]

theorem coinFromChq_fromProtocol (coin : ProtocolCoin)
    : coinFromChq (Coin.fromProtocol coin) = .ok coin := by
  simp only [coinFromChq, Coin.fromProtocol, parseBytes32_hex32]
  rfl

theorem coinRecordFromChq_of_state (state : CoinState)
    : coinRecordFromChq (coinStateToRecord state) = .ok (peerRecord state) := by
  obtain ⟨coin, created, spent⟩ := state
  simp only [coinRecordFromChq, coinStateToRecord, coinFromChq_fromProtocol]
  cases spent <;> rfl

------------------------------------------------------------------------------------------
-- A claim is split at its separators
------------------------------------------------------------------------------------------

/-- A list is split at the last separator in one way, by induction on the part before it. -/
theorem append_cons_inj_of_last {α : Type*} {separator : α} {front otherFront : List α}
    {back otherBack : List α} (clean : separator ∉ back) (otherClean : separator ∉ otherBack)
    (same : front ++ separator :: back = otherFront ++ separator :: otherBack)
    : front = otherFront ∧ back = otherBack := by
  induction front generalizing otherFront with
  | nil =>
      cases otherFront with
      | nil => exact ⟨rfl, (List.cons.inj same).2⟩
      | cons first rest =>
          have tail := (List.cons.inj same).2
          simp [tail] at clean
  | cons first rest ih =>
      cases otherFront with
      | nil =>
          have tail := (List.cons.inj same).2
          simp [← tail] at otherClean
      | cons other others =>
          obtain ⟨sameFirst, tail⟩ := List.cons.inj same
          obtain ⟨sameRest, sameBack⟩ := ih tail
          exact ⟨by rw [sameFirst, sameRest], sameBack⟩

theorem isDigit_of_mem_repr {number : Nat} {char : Char} (member : char ∈ number.repr.toList)
    : char.isDigit = true := by
  rw [Nat.toList_repr] at member
  exact Nat.isDigit_of_mem_toDigits (by decide) (by decide) member

theorem notMem_hexDigits (char : Char) (plain : ∀ digit < 16, hexDigit digit ≠ char)
    (count value : Nat)
    : char ∉ hexDigits count value := by
  induction count generalizing value with
  | zero => exact List.not_mem_nil
  | succ count ih =>
      rw [hexDigits, List.mem_append, List.mem_singleton, not_or]
      exact ⟨ih _, (plain _ (Nat.mod_lt _ (by omega))).symm⟩

theorem comma_notMem_hex32 (bytes : Bytes32) : ',' ∉ (hex32 bytes).toList := by
  have digits := notMem_hexDigits ',' (by decide) 64 bytes.toNat
  simpa [hex32] using digits

theorem notMem_repr {char : Char} (plain : char.isDigit = false) (number : Nat)
    : char ∉ number.repr.toList := by
  intro member
  rw [isDigit_of_mem_repr member] at plain
  cases plain

theorem notMem_toString_u32 {char : Char} (plain : char.isDigit = false) (number : UInt32)
    : char ∉ (toString number).toList :=
  notMem_repr plain number.toNat

theorem notMem_toString_u64 {char : Char} (plain : char.isDigit = false) (number : UInt64)
    : char ∉ (toString number).toList :=
  notMem_repr plain number.toNat

/-- The parts of a claim's text, each as the list of its characters. -/
structure ClaimParts where
  parent : List Char
  puzzle : List Char
  amount : List Char
  created : List Char
  spent : List Char

/-- A text of five parts, as a claim writes them between its words. -/
def ClaimParts.joined (opening middle closing : List Char) (parts : ClaimParts) : List Char :=
  ((opening ++ (parts.parent ++ ',' :: parts.puzzle) ++ ',' :: parts.amount) ++ middle
    ++ '=' :: parts.created) ++ closing ++ '=' :: parts.spent

/-- Where the last three parts hold no separator, and the hashes of one side no comma, the
text determines the parts.
-/
theorem ClaimParts.joined_inj {opening middle closing : List Char} {left right : ClaimParts}
    (leftSpent : '=' ∉ left.spent) (rightSpent : '=' ∉ right.spent)
    (leftCreated : '=' ∉ left.created) (rightCreated : '=' ∉ right.created)
    (leftAmount : ',' ∉ left.amount) (rightAmount : ',' ∉ right.amount)
    (parent : ',' ∉ right.parent) (puzzle : ',' ∉ right.puzzle)
    (same : left.joined opening middle closing = right.joined opening middle closing)
    : left = right := by
  obtain ⟨front, spent⟩ := append_cons_inj_of_last leftSpent rightSpent same
  obtain ⟨front, created⟩ := append_cons_inj_of_last leftCreated rightCreated
    (List.append_cancel_right front)
  obtain ⟨front, amount⟩ := append_cons_inj_of_last leftAmount rightAmount
    (List.append_cancel_right front)
  obtain ⟨sameParent, -, samePuzzle⟩ := (List.append_cons_inj_of_notMem parent puzzle).mp
    (List.append_cancel_left front).symm
  cases left
  cases right
  simp_all

/-- What a claim says of the spend. -/
def spentText (record : CoinRecord) : String :=
  if record.spent then toString record.spentBlockIndex else "no"

/-- The parts of a record's claim. -/
def claimParts (record : CoinRecord) : ClaimParts where
  parent := record.coin.parentCoinInfo.toList
  puzzle := record.coin.puzzleHash.toList
  amount := (toString record.coin.amount).toList
  created := (toString record.confirmedBlockIndex).toList
  spent := (spentText record).toList

/-- A claim as it is rendered, piece by piece, is its parts joined by its words. -/
theorem ClaimParts.toList_of_rendered {middle closing : List Char}
    (opening second third : String) (parts : ClaimParts)
    (parent puzzle amount created spent : String)
    (texts
      : parts = {
          parent := parent.toList,
          puzzle := puzzle.toList,
          amount := amount.toList,
          created := created.toList,
          spent := spent.toList
        })
    (secondText : second.toList = middle ++ ['=']) (thirdText : third.toList = closing ++ ['='])
    : (opening ++ parent ++ "," ++ puzzle ++ "," ++ amount ++ ")"
        ++ (second ++ created ++ third ++ spent)).toList
      = parts.joined opening.toList (')' :: middle) closing := by
  have comma : ",".toList = [','] := by decide
  have closed : ")".toList = [')'] := by decide
  rw [texts]
  simp only [ClaimParts.joined, String.toList_append, comma, closed, secondText, thirdText,
    List.append_assoc, List.cons_append, List.nil_append]

theorem chainClaim_toList (record : CoinRecord)
    : (chainClaim record).toList
      = (claimParts record).joined "coin(".toList ") created".toList " spent".toList :=
  ClaimParts.toList_of_rendered "coin(" " created=" " spent=" (claimParts record)
    record.coin.parentCoinInfo record.coin.puzzleHash (toString record.coin.amount)
    (toString record.confirmedBlockIndex) (spentText record) rfl (by decide) (by decide)

theorem toString_toList_injective {left right : UInt32}
    (same : (toString left).toList = (toString right).toList)
    : left = right :=
  UInt32.toNat_inj.mp (decimal_injective same)

theorem equals_notMem_spent (record : CoinRecord) : '=' ∉ (claimParts record).spent := by
  have text : (claimParts record).spent = (spentText record).toList := rfl
  rw [text, spentText]
  split
  · exact notMem_toString_u32 rfl _
  · decide

theorem equals_notMem_created (record : CoinRecord) : '=' ∉ (claimParts record).created :=
  notMem_toString_u32 rfl record.confirmedBlockIndex

theorem comma_notMem_amount (record : CoinRecord) : ',' ∉ (claimParts record).amount :=
  notMem_toString_u64 rfl record.coin.amount

/-- Claims whose hashes on one side hold no comma are equal in each part when their texts are. -/
theorem claimParts_inj {left right : CoinRecord}
    (parent : ',' ∉ right.coin.parentCoinInfo.toList)
    (puzzle : ',' ∉ right.coin.puzzleHash.toList) (same : chainClaim left = chainClaim right)
    : claimParts left = claimParts right := by
  have text := congrArg String.toList same
  rw [chainClaim_toList, chainClaim_toList] at text
  exact ClaimParts.joined_inj (equals_notMem_spent left) (equals_notMem_spent right)
    (equals_notMem_created left) (equals_notMem_created right) (comma_notMem_amount left)
    (comma_notMem_amount right) parent puzzle text

/-- A rendered spend is determined by its text: no height is rendered as `no`. -/
theorem spentText_inj {left right : CoinRecord}
    (same : (spentText left).toList = (spentText right).toList)
    : (if left.spent then some left.spentBlockIndex else none)
      = if right.spent then some right.spentBlockIndex else none := by
  have word (height : UInt32) : (toString height).toList ≠ "no".toList := by
    intro rendered
    have letter : 'n' ∉ "no".toList := rendered ▸ notMem_toString_u32 rfl height
    exact letter (by decide)
  unfold spentText at same
  split at same <;> split at same <;> rename_i leftSpent rightSpent
  · rw [if_pos leftSpent, if_pos rightSpent, toString_toList_injective same]
  · exact absurd same (word _)
  · exact absurd same.symm (word _)
  · rw [if_neg leftSpent, if_neg rightSpent]

theorem coin_eq {left right : Coin} (parent : left.parentCoinInfo = right.parentCoinInfo)
    (puzzle : left.puzzleHash = right.puzzleHash) (amount : left.amount = right.amount)
    : left = right := by
  cases left
  cases right
  simp only [Coin.mk.injEq]
  exact ⟨parent, puzzle, amount⟩

/-- Records whose claims have the same parts name the same coin, creation and spend. -/
theorem eq_of_claimParts_eq {left right : CoinRecord}
    (parts : claimParts left = claimParts right)
    : left.coin = right.coin
      ∧ left.confirmedBlockIndex = right.confirmedBlockIndex
      ∧ (if left.spent then some left.spentBlockIndex else none)
        = if right.spent then some right.spentBlockIndex else none := by
  simp only [claimParts, ClaimParts.mk.injEq, String.toList_inj] at parts
  obtain ⟨parent, puzzle, amount, created, spent⟩ := parts
  exact ⟨coin_eq parent puzzle (amount_toString_injective amount),
    toString_toList_injective (congrArg String.toList created),
    spentText_inj (congrArg String.toList spent)⟩

/-- A record with the claim of a peer's coin state names the same coin, creation and spend. -/
theorem sameClaim_inv {state : CoinState} {record : CoinRecord}
    (same : chainClaim record = chainClaim (coinStateToRecord state))
    : record.coin = Coin.fromProtocol state.coin
      ∧ record.confirmedBlockIndex = state.createdHeight.getD 0
      ∧ (if record.spent then some record.spentBlockIndex else none) = state.spentHeight := by
  have parts : claimParts record = claimParts (coinStateToRecord state) :=
    claimParts_inj (comma_notMem_hex32 state.coin.parentCoinInfo)
      (comma_notMem_hex32 state.coin.puzzleHash) same
  obtain ⟨coin, created, spend⟩ := eq_of_claimParts_eq parts
  refine ⟨coin, created, spend.trans ?_⟩
  obtain ⟨-, -, spentHeight⟩ := state
  cases spentHeight <;> rfl

end ChiaQuery.Registry
