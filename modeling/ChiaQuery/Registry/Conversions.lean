import ChiaQuery.Peer.Requests
import ChiaQuery.Registry.CanonicalClaims

/-! The peer tier renders what the protocol says as hexadecimal text, and the interface parses
the text again. Nothing is lost on the way, and text that spells no bytes is refused as
malformed.
-/

namespace ChiaQuery.Registry

open ChiaQuery.Library

/-- `make_coin_spend`. -/
def makeCoinSpend (coin : ProtocolCoin) (puzzle solution : List UInt8) : CoinSpend where
  coin := Coin.fromProtocol coin
  puzzleReveal := hexBytes puzzle
  solution := hexBytes solution

/-- The text is hexadecimal, with the prefix or without it. -/
def SpellsBytes (text : String) : Prop :=
  IsHexText (stripHexPrefix text)

/-- The text spells 32 bytes. -/
def SpellsHash (text : String) : Prop :=
  SpellsBytes text ∧ (stripHexPrefix text).length = 64

def SpellsCoin (coin : Coin) : Prop :=
  SpellsHash coin.parentCoinInfo ∧ SpellsHash coin.puzzleHash

def SpellsSpend (spend : CoinSpend) : Prop :=
  SpellsCoin spend.coin ∧ SpellsBytes spend.puzzleReveal ∧ SpellsBytes spend.solution

/-- A conversion succeeds when its texts spell what they should, and is malformed otherwise. -/
structure FailsClosed {α : Type} (spelled : Prop) (conversion : Except ChainSourceError α)
    : Prop where
  converts : spelled → ∃ value, conversion = .ok value
  refuses : ¬ spelled → ∃ message, conversion = .error (.malformed message)

/-- Rendering for the crate's types and converting to the interface's gives back what the
protocol said, and every conversion of other texts fails closed.
-/
structure ConvertsFaithfully : Prop where
  stateBack
    : ∀ state : CoinState,
        state.createdHeight ≠ some 0
        → ∃ record, coinRecordFromChq (coinStateToRecord state) = .ok record
          ∧ record.coin = state.coin
          ∧ record.confirmedHeight = state.createdHeight
          ∧ record.spentHeight = state.spentHeight
  spendBack
    : ∀ coin puzzle solution,
        coinSpendFromChq (makeCoinSpend coin puzzle solution)
        = .ok { coin, puzzleReveal := puzzle, solution }
  recordClosed : ∀ record, FailsClosed (SpellsCoin record.coin) (coinRecordFromChq record)
  spendClosed : ∀ spend, FailsClosed (SpellsSpend spend) (coinSpendFromChq spend)

------------------------------------------------------------------------------------------
-- Conversions fail closed
------------------------------------------------------------------------------------------

/-- A conversion in two steps needs what both of them need. -/
theorem FailsClosed.bind {α β : Type} {first second : Prop}
    {conversion : Except ChainSourceError α} {next : α → Except ChainSourceError β}
    (before : FailsClosed first conversion) (after : ∀ value, FailsClosed second (next value))
    : FailsClosed (first ∧ second) (conversion >>= next) where
  converts := by
    rintro ⟨firstSpelled, secondSpelled⟩
    obtain ⟨value, converted⟩ := before.converts firstSpelled
    rw [converted]
    exact (after value).converts secondSpelled
  refuses := by
    intro misspelled
    by_cases firstSpelled : first
    · obtain ⟨value, converted⟩ := before.converts firstSpelled
      rw [converted]
      exact (after value).refuses (fun secondSpelled => misspelled ⟨firstSpelled, secondSpelled⟩)
    · obtain ⟨message, refused⟩ := before.refuses firstSpelled
      exact ⟨message, by rw [refused]; rfl⟩

theorem FailsClosed.pure {α : Type} (value : α)
    : FailsClosed True (pure value : Except ChainSourceError α) where
  converts := fun _ => ⟨value, rfl⟩
  refuses := fun never => absurd trivial never

theorem parseProgram_failsClosed (text : String)
    : FailsClosed (SpellsBytes text) (parseProgram text) where
  converts := by
    intro spelled
    obtain ⟨bytes, decoded⟩ := exists_hexDecode_iff.mpr spelled
    exact ⟨bytes, by rw [parseProgram, decoded]⟩
  refuses := by
    intro misspelled
    unfold parseProgram
    split
    · exact ⟨_, rfl⟩
    · rename_i bytes decoded
      exact absurd (exists_hexDecode_iff.mp ⟨bytes, decoded⟩) misspelled

/-- Bytes that were decoded are a hash exactly when the text has 64 digits. -/
theorem bytes32Of_isSome_iff {text : List Char} {bytes : List UInt8}
    (decoded : hexDecode text = .ok bytes)
    : (∃ hash, bytes32Of bytes = some hash) ↔ text.length = 64 := by
  have digits := length_of_hexDecode decoded
  unfold bytes32Of
  split
  · rename_i length
    exact iff_of_true ⟨_, rfl⟩ (by omega)
  · rename_i other
    exact iff_of_false (by simp) (by omega)

theorem parseBytes32_failsClosed (text : String)
    : FailsClosed (SpellsHash text) (parseBytes32 text) where
  converts := by
    rintro ⟨spelled, length⟩
    obtain ⟨bytes, decoded⟩ := exists_hexDecode_iff.mpr spelled
    obtain ⟨hash, read⟩ := (bytes32Of_isSome_iff decoded).mpr length
    exact ⟨hash, by simp only [parseBytes32, decoded, read]⟩
  refuses := by
    intro misspelled
    unfold parseBytes32
    split
    · exact ⟨_, rfl⟩
    · rename_i bytes decoded
      split
      · rename_i hash read
        exact absurd ⟨exists_hexDecode_iff.mp ⟨bytes, decoded⟩,
          (bytes32Of_isSome_iff decoded).mp ⟨hash, read⟩⟩ misspelled
      · exact ⟨_, rfl⟩

theorem FailsClosed.of_iff {α : Type} {left right : Prop}
    {conversion : Except ChainSourceError α} (closed : FailsClosed left conversion)
    (same : left ↔ right)
    : FailsClosed right conversion :=
  propext same ▸ closed

theorem coinFromChq_failsClosed (coin : Coin)
    : FailsClosed (SpellsCoin coin) (coinFromChq coin) := by
  have steps := (parseBytes32_failsClosed coin.parentCoinInfo).bind (fun parentCoinInfo =>
    (parseBytes32_failsClosed coin.puzzleHash).bind (fun puzzleHash =>
      FailsClosed.pure (ProtocolCoin.mk parentCoinInfo puzzleHash coin.amount)))
  exact steps.of_iff (by rw [and_true]; rfl)

theorem coinRecordFromChq_failsClosed (record : CoinRecord)
    : FailsClosed (SpellsCoin record.coin) (coinRecordFromChq record) := by
  have steps := (coinFromChq_failsClosed record.coin).bind (fun coin =>
    FailsClosed.pure (IfaceCoinRecord.mk coin (noneIfZeroU32 record.confirmedBlockIndex)
      (if record.spent then some record.spentBlockIndex else none)
      (noneIfZeroU64 record.timestamp) record.coinbase))
  exact steps.of_iff (iff_of_eq (and_true _))

theorem coinSpendFromChq_failsClosed (spend : CoinSpend)
    : FailsClosed (SpellsSpend spend) (coinSpendFromChq spend) := by
  have steps := (coinFromChq_failsClosed spend.coin).bind (fun coin =>
    (parseProgram_failsClosed spend.puzzleReveal).bind (fun puzzleReveal =>
      (parseProgram_failsClosed spend.solution).bind (fun solution =>
        FailsClosed.pure (ProtocolCoinSpend.mk coin puzzleReveal solution))))
  exact steps.of_iff (by rw [and_true]; rfl)

------------------------------------------------------------------------------------------
-- What was rendered is given back
------------------------------------------------------------------------------------------

theorem parseProgram_hexBytes (program : List UInt8)
    : parseProgram (hexBytes program) = .ok program := by
  rw [parseProgram, stripHexPrefix_hexBytes, hexDecode_bytes]

theorem coinSpendFromChq_makeCoinSpend (coin : ProtocolCoin) (puzzle solution : List UInt8)
    : coinSpendFromChq (makeCoinSpend coin puzzle solution)
      = .ok { coin, puzzleReveal := puzzle, solution } := by
  simp only [coinSpendFromChq, makeCoinSpend, coinFromChq_fromProtocol, parseProgram_hexBytes]
  rfl

/-- A created height other than 0 is told from an unset one. -/
theorem noneIfZeroU32_getD {height : Option UInt32} (set : height ≠ some 0)
    : noneIfZeroU32 (height.getD 0) = height := by
  cases height with
  | none => rfl
  | some value =>
      have nonzero : value ≠ 0 := fun zero => set (congrArg some zero)
      exact if_pos nonzero

theorem convertsFaithfully : ConvertsFaithfully where
  stateBack := by
    intro state set
    exact ⟨peerRecord state, coinRecordFromChq_of_state state, rfl, noneIfZeroU32_getD set, rfl⟩
  spendBack := coinSpendFromChq_makeCoinSpend
  recordClosed := coinRecordFromChq_failsClosed
  spendClosed := coinSpendFromChq_failsClosed

end ChiaQuery.Registry
