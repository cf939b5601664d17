import ChiaQuery.Types.Error
import Mathlib.Data.Nat.Basic

/-! The protocol's coin types, the crate's response records, and what part of a record is a
claim about the chain.
-/

namespace ChiaQuery

/-- `chia_protocol::Bytes32`, read as the big-endian number its 32 bytes spell. -/
abbrev Bytes32 := BitVec 256

-- Declared once, so that every map keyed by a hash refers to one proof.
instance : Std.TransOrd Bytes32 := inferInstanceAs (Std.TransOrd (BitVec 256))

/-- `chia_protocol::Coin`. -/
structure ProtocolCoin where
  parentCoinInfo : Bytes32
  puzzleHash : Bytes32
  amount : UInt64
  deriving DecidableEq, Repr

/-- `chia_protocol::CoinState`: a coin and where one node says it sits on the chain. -/
structure CoinState where
  coin : ProtocolCoin
  createdHeight : Option UInt32
  spentHeight : Option UInt32
  deriving DecidableEq, Repr

/-- One lower-case hexadecimal digit. -/
def hexDigit (value : Nat) : Char :=
  if value < 10 then Char.ofNat (48 + value) else Char.ofNat (87 + value)

/-- The last `count` hexadecimal digits of a number, most significant first. -/
def hexDigits : Nat → Nat → List Char
  | 0, _ => []
  | count + 1, value => hexDigits count (value / 16) ++ [hexDigit (value % 16)]

/-- `hex32`: the 0x-prefixed rendering of 32 bytes. -/
def hex32 (bytes : Bytes32) : String :=
  "0x" ++ String.ofList (hexDigits 64 bytes.toNat)

/-- Digits below sixteen have different renderings. -/
theorem hexDigit_injective
    : ∀ left < 16, ∀ right < 16, hexDigit left = hexDigit right → left = right := by
  decide

/-- Numbers that fit in `count` digits are determined by them, by induction on `count`. -/
theorem hexDigits_injective {count left right : Nat} (leftFits : left < 16 ^ count)
    (rightFits : right < 16 ^ count) (same : hexDigits count left = hexDigits count right)
    : left = right := by
  induction count generalizing left right with
  | zero => omega
  | succ count ih =>
      obtain ⟨front, last⟩ := List.append_inj' same rfl
      have high := ih (Nat.div_lt_of_lt_mul (by rwa [Nat.pow_succ, Nat.mul_comm] at leftFits))
        (Nat.div_lt_of_lt_mul (by rwa [Nat.pow_succ, Nat.mul_comm] at rightFits)) front
      have low := hexDigit_injective (left % 16) (by omega) (right % 16) (by omega)
        (List.cons.inj last).1
      omega

theorem hexDigits_length (count value : Nat) : (hexDigits count value).length = count := by
  induction count generalizing value with
  | zero => rfl
  | succ count ih => simp [hexDigits, ih]

/-- Thirty-two bytes are determined by their rendering. -/
theorem hex32_injective {left right : Bytes32} (same : hex32 left = hex32 right)
    : left = right := by
  have chars := congrArg String.toList same
  simp only [hex32, String.toList_append, String.toList_ofList] at chars
  have digits := List.append_cancel_left chars
  exact BitVec.eq_of_toNat_eq
    (hexDigits_injective (by simpa using left.isLt) (by simpa using right.isLt) digits)

theorem hex32_length (bytes : Bytes32) : (hex32 bytes).toList.length = 66 := by
  simp [hex32, hexDigits_length]

/-- Numbers are determined by their decimal rendering. -/
theorem decimal_injective {left right : Nat} (same : left.repr.toList = right.repr.toList)
    : left = right := by
  have digits : Nat.toDigits 10 left = Nat.toDigits 10 right := by
    simpa only [Nat.toList_repr] using same
  have values := congrArg (fun run => Nat.ofDigitChars 10 run 0) digits
  simpa only [Nat.ofDigitChars_ten_toDigits] using values

theorem amount_toString_injective {left right : UInt64}
    (same : toString left = toString right)
    : left = right :=
  UInt64.toNat_inj.mp (decimal_injective (congrArg String.toList same))

/-- The crate's `Coin`, whose hashes are hexadecimal text. -/
structure Coin where
  parentCoinInfo : String
  puzzleHash : String
  amount : UInt64
  deriving DecidableEq, Repr

/-- `Coin::from_protocol`. -/
def Coin.fromProtocol (coin : ProtocolCoin) : Coin where
  parentCoinInfo := hex32 coin.parentCoinInfo
  puzzleHash := hex32 coin.puzzleHash
  amount := coin.amount

/-- Coins are determined by their rendering. -/
theorem Coin.fromProtocol_injective {left right : ProtocolCoin}
    (same : Coin.fromProtocol left = Coin.fromProtocol right)
    : left = right := by
  obtain ⟨parent, puzzle, amount⟩ := Coin.mk.inj same
  exact ProtocolCoin.mk.injEq .. ▸ ⟨hex32_injective parent, hex32_injective puzzle, amount⟩

/-- The crate's `CoinRecord`. -/
structure CoinRecord where
  coin : Coin
  confirmedBlockIndex : UInt32
  spentBlockIndex : UInt32
  spent : Bool
  coinbase : Bool
  timestamp : UInt64
  deriving DecidableEq, Repr

/-- The crate's `CoinSpend`. -/
structure CoinSpend where
  coin : Coin
  puzzleReveal : String
  solution : String
  deriving DecidableEq, Repr

/-- The crate's `BlockRecord`, with the fields its claim reads. -/
structure BlockRecord where
  headerHash : String
  height : UInt32
  timestamp : Option UInt64
  deriving DecidableEq, Repr

/-- `coin_state_to_record`: absent heights become zero, and the tier-local fields are
defaults.
-/
def coinStateToRecord (state : CoinState) : CoinRecord where
  coin := Coin.fromProtocol state.coin
  confirmedBlockIndex := state.createdHeight.getD 0
  spentBlockIndex := state.spentHeight.getD 0
  spent := state.spentHeight.isSome
  coinbase := false
  timestamp := 0

/-- `coin_states_to_records`. -/
def coinStatesToRecords (states : List CoinState) : List CoinRecord :=
  states.map coinStateToRecord

/-- The chain-state claim inside an answer, canonically rendered. -/
class ChainClaim (α : Type*) where
  chainClaim : α → String

export ChainClaim (chainClaim)

instance : ChainClaim CoinRecord where
  chainClaim record :=
    let coin := record.coin
    let spent := if record.spent then toString record.spentBlockIndex else "no"
    s!"coin({coin.parentCoinInfo},{coin.puzzleHash},{coin.amount})"
      ++ s!" created={record.confirmedBlockIndex} spent={spent}"

instance : ChainClaim CoinSpend where
  chainClaim spend :=
    let coin := spend.coin
    s!"spend({coin.parentCoinInfo},{coin.puzzleHash},{coin.amount})"
      ++ s!" puzzle={spend.puzzleReveal} solution={spend.solution}"

instance : ChainClaim BlockRecord where
  chainClaim record :=
    let timestamp := match record.timestamp with
      | none => "none"
      | some seconds => toString seconds
    s!"block({record.height},{record.headerHash}) timestamp={timestamp}"

end ChiaQuery
