import ChiaQuery.Peer.SetAgreement
import ChiaQuery.Registry.Convert

/-! What two texts say about the records they were rendered from. Hexadecimal text holds none of
the separators, so a claim determines the texts of its record; it determines no more than them,
and one coin can be spelled in several ways that all parse.
-/

namespace ChiaQuery.Registry

open ChiaQuery.Library

/-- `parse_program`. -/
def parseProgram (hexStr : String) : Except ChainSourceError (List UInt8) :=
  match hexDecode (stripHexPrefix hexStr) with
  | .error failure => .error (.malformed s!"invalid program hex: {failure.display}")
  | .ok bytes => .ok bytes

/-- `coin_spend_from_chq`. -/
def coinSpendFromChq (spend : CoinSpend) : Except ChainSourceError ProtocolCoinSpend := do
  let coin ← coinFromChq spend.coin
  let puzzleReveal ← parseProgram spend.puzzleReveal
  let solution ← parseProgram spend.solution
  return { coin, puzzleReveal, solution }

/-- Records that parse have one claim when they state one coin and its heights, and one identity
when they state one coin.
-/
structure RecordsCanonical (left right : CoinRecord) : Prop where
  claims
    : ∀ leftCoin rightCoin,
        coinFromChq left.coin = .ok leftCoin
        → coinFromChq right.coin = .ok rightCoin
        → (chainClaim left = chainClaim right
            ↔ leftCoin = rightCoin
              ∧ left.confirmedBlockIndex = right.confirmedBlockIndex
              ∧ spentHeight left = spentHeight right)
  identities
    : ∀ leftCoin rightCoin,
        coinFromChq left.coin = .ok leftCoin
        → coinFromChq right.coin = .ok rightCoin
        → (identity left = identity right ↔ leftCoin = rightCoin)

/-- Spends that parse have one claim when they state one coin and the same program bytes. -/
def SpendsCanonical (left right : CoinSpend) : Prop :=
  ∀ leftSpend rightSpend,
    coinSpendFromChq left = .ok leftSpend
    → coinSpendFromChq right = .ok rightSpend
    → (chainClaim left = chainClaim right ↔ leftSpend = rightSpend)

/-- The digits of a text in lower case, its prefix left out. -/
def plainDigits (text : String) : List Char :=
  (stripHexPrefix text).map Char.toLower

/-- Two coins differ at most in the prefixes and in the case of their hashes' digits. -/
def SameDigits (left right : Coin) : Prop :=
  plainDigits left.parentCoinInfo = plainDigits right.parentCoinInfo
  ∧ plainDigits left.puzzleHash = plainDigits right.puzzleHash
  ∧ left.amount = right.amount

/-- Two spends differ at most in prefixes and in the case of digits. -/
def SpendsSameDigits (left right : CoinSpend) : Prop :=
  SameDigits left.coin right.coin
  ∧ plainDigits left.puzzleReveal = plainDigits right.puzzleReveal
  ∧ plainDigits left.solution = plainDigits right.solution

------------------------------------------------------------------------------------------
-- Text that parses holds no separator
------------------------------------------------------------------------------------------

/-- A character that no hexadecimal text holds, prefix included. -/
def IsSeparator (char : Char) : Prop :=
  char ≠ '0' ∧ char ≠ 'x' ∧ ∃ byte ∈ String.utf8EncodeChar char, hexNibble byte = none

instance (char : Char) : Decidable (IsSeparator char) :=
  inferInstanceAs (Decidable (_ ∧ _ ∧ ∃ byte ∈ String.utf8EncodeChar char, _))

theorem separator_notMem_of_hexDecode {char : Char} {text : List Char} {bytes : List UInt8}
    (separates : IsSeparator char) (decoded : hexDecode text = .ok bytes)
    : char ∉ text := by
  intro member
  obtain ⟨-, -, byte, encoded, none⟩ := separates
  unfold hexDecode at decoded
  dsimp only at decoded
  split at decoded
  · cases decoded
  · rename_i odd
    exact hexNibble_of_decodePairs (by omega) decoded byte
      (List.mem_flatMap.mpr ⟨char, member, encoded⟩) none

/-- Text that decodes, with the prefix or without it, holds no separator. -/
theorem separator_notMem {char : Char} {text : String} {bytes : List UInt8}
    (separates : IsSeparator char) (decoded : hexDecode (stripHexPrefix text) = .ok bytes)
    : char ∉ text.toList := by
  have digits := separator_notMem_of_hexDecode separates decoded
  unfold stripHexPrefix at digits
  split at digits
  · rename_i rest prefixed
    rw [prefixed]
    simp [separates.1, separates.2.1, digits]
  · exact digits

theorem parseBytes32_inv {text : String} {hash : Bytes32}
    (parsed : parseBytes32 text = .ok hash)
    : ∃ bytes, hexDecode (stripHexPrefix text) = .ok bytes ∧ bytes32Of bytes = some hash := by
  unfold parseBytes32 at parsed
  split at parsed
  · cases parsed
  · rename_i bytes decoded
    split at parsed <;> cases parsed
    rename_i read
    exact ⟨bytes, decoded, read⟩

theorem parseProgram_inv {text : String} {program : List UInt8}
    (parsed : parseProgram text = .ok program)
    : hexDecode (stripHexPrefix text) = .ok program := by
  unfold parseProgram at parsed
  split at parsed <;> cases parsed
  assumption

theorem coinFromChq_inv {coin : Coin} {parsedCoin : ProtocolCoin}
    (parsed : coinFromChq coin = .ok parsedCoin)
    : parseBytes32 coin.parentCoinInfo = .ok parsedCoin.parentCoinInfo
      ∧ parseBytes32 coin.puzzleHash = .ok parsedCoin.puzzleHash
      ∧ coin.amount = parsedCoin.amount := by
  obtain ⟨parent, parentParsed, parsed⟩ := bind_eq_ok_iff.mp parsed
  obtain ⟨puzzle, puzzleParsed, parsed⟩ := bind_eq_ok_iff.mp parsed
  cases parsed
  exact ⟨parentParsed, puzzleParsed, rfl⟩

theorem coinSpendFromChq_inv {spend : CoinSpend} {parsedSpend : ProtocolCoinSpend}
    (parsed : coinSpendFromChq spend = .ok parsedSpend)
    : coinFromChq spend.coin = .ok parsedSpend.coin
      ∧ parseProgram spend.puzzleReveal = .ok parsedSpend.puzzleReveal
      ∧ parseProgram spend.solution = .ok parsedSpend.solution := by
  obtain ⟨coin, coinParsed, parsed⟩ := bind_eq_ok_iff.mp parsed
  obtain ⟨puzzle, puzzleParsed, parsed⟩ := bind_eq_ok_iff.mp parsed
  obtain ⟨solution, solutionParsed, parsed⟩ := bind_eq_ok_iff.mp parsed
  cases parsed
  exact ⟨coinParsed, puzzleParsed, solutionParsed⟩

/-- The hashes of a coin that parses hold no separator. -/
theorem separator_notMem_coin {char : Char} {coin : Coin} {parsedCoin : ProtocolCoin}
    (separates : IsSeparator char) (parsed : coinFromChq coin = .ok parsedCoin)
    : char ∉ coin.parentCoinInfo.toList ∧ char ∉ coin.puzzleHash.toList := by
  obtain ⟨parent, puzzle, -⟩ := coinFromChq_inv parsed
  obtain ⟨parentBytes, parentDecoded, -⟩ := parseBytes32_inv parent
  obtain ⟨puzzleBytes, puzzleDecoded, -⟩ := parseBytes32_inv puzzle
  exact ⟨separator_notMem separates parentDecoded, separator_notMem separates puzzleDecoded⟩

------------------------------------------------------------------------------------------
-- Text that parses alike has the same digits
------------------------------------------------------------------------------------------

theorem parseBytes32_eq_iff {left right : String} {leftHash rightHash : Bytes32}
    (leftParsed : parseBytes32 left = .ok leftHash)
    (rightParsed : parseBytes32 right = .ok rightHash)
    : leftHash = rightHash ↔ plainDigits left = plainDigits right := by
  obtain ⟨leftBytes, leftDecoded, leftRead⟩ := parseBytes32_inv leftParsed
  obtain ⟨rightBytes, rightDecoded, rightRead⟩ := parseBytes32_inv rightParsed
  rw [plainDigits, plainDigits, ← hexDecode_eq_iff leftDecoded rightDecoded]
  constructor
  · rintro rfl
    rw [eq_lastBytes_of_bytes32Of leftRead, eq_lastBytes_of_bytes32Of rightRead]
  · rintro rfl
    exact Option.some.inj (leftRead.symm.trans rightRead)

theorem parseProgram_eq_iff {left right : String} {leftProgram rightProgram : List UInt8}
    (leftParsed : parseProgram left = .ok leftProgram)
    (rightParsed : parseProgram right = .ok rightProgram)
    : leftProgram = rightProgram ↔ plainDigits left = plainDigits right :=
  hexDecode_eq_iff (parseProgram_inv leftParsed) (parseProgram_inv rightParsed)

theorem coinFromChq_eq_iff {left right : Coin} {leftCoin rightCoin : ProtocolCoin}
    (leftParsed : coinFromChq left = .ok leftCoin)
    (rightParsed : coinFromChq right = .ok rightCoin)
    : leftCoin = rightCoin ↔ SameDigits left right := by
  obtain ⟨leftParent, leftPuzzle, leftAmount⟩ := coinFromChq_inv leftParsed
  obtain ⟨rightParent, rightPuzzle, rightAmount⟩ := coinFromChq_inv rightParsed
  rw [SameDigits, ← parseBytes32_eq_iff leftParent rightParent,
    ← parseBytes32_eq_iff leftPuzzle rightPuzzle, leftAmount, rightAmount]
  cases leftCoin
  cases rightCoin
  rw [ProtocolCoin.mk.injEq]

theorem coinSpendFromChq_eq_iff {left right : CoinSpend}
    {leftSpend rightSpend : ProtocolCoinSpend}
    (leftParsed : coinSpendFromChq left = .ok leftSpend)
    (rightParsed : coinSpendFromChq right = .ok rightSpend)
    : leftSpend = rightSpend ↔ SpendsSameDigits left right := by
  obtain ⟨leftCoin, leftPuzzle, leftSolution⟩ := coinSpendFromChq_inv leftParsed
  obtain ⟨rightCoin, rightPuzzle, rightSolution⟩ := coinSpendFromChq_inv rightParsed
  rw [SpendsSameDigits, ← coinFromChq_eq_iff leftCoin rightCoin,
    ← parseProgram_eq_iff leftPuzzle rightPuzzle,
    ← parseProgram_eq_iff leftSolution rightSolution]
  cases leftSpend
  cases rightSpend
  rw [ProtocolCoinSpend.mk.injEq]

------------------------------------------------------------------------------------------
-- What a claim or an identity determines
------------------------------------------------------------------------------------------

/-- A record whose coin parses is told by its claim up to what a claim leaves out. -/
theorem chainClaim_record_iff {left right : CoinRecord} {rightCoin : ProtocolCoin}
    (parsed : coinFromChq right.coin = .ok rightCoin)
    : chainClaim left = chainClaim right
      ↔ left.coin = right.coin
        ∧ left.confirmedBlockIndex = right.confirmedBlockIndex
        ∧ spentHeight left = spentHeight right := by
  constructor
  · intro same
    have comma : IsSeparator ',' := by decide
    obtain ⟨parent, puzzle⟩ := separator_notMem_coin comma parsed
    exact eq_of_claimParts_eq (claimParts_inj parent puzzle same)
  · rintro ⟨coin, created, spent⟩
    have spends : spentText left = spentText right := by
      simp only [spentHeight] at spent
      unfold spentText
      split at spent <;> split at spent <;> simp_all
    unfold spentText at spends
    simp only [chainClaim, coin, created, spends]

theorem identity_toList (record : CoinRecord)
    : (identity record).toList
      = (record.coin.parentCoinInfo.toList ++ ':' :: record.coin.puzzleHash.toList)
        ++ ':' :: (toString record.coin.amount).toList := by
  have colon : (toString ":").toList = [':'] := by decide
  simp only [identity, String.toList_append, colon, List.append_assoc, List.cons_append,
    List.nil_append]
  rfl

/-- Coins that parse are told apart by the text that identifies them. -/
theorem identity_record_iff {left right : CoinRecord} {leftCoin rightCoin : ProtocolCoin}
    (leftParsed : coinFromChq left.coin = .ok leftCoin)
    (rightParsed : coinFromChq right.coin = .ok rightCoin)
    : identity left = identity right ↔ left.coin = right.coin := by
  constructor
  · intro same
    have colon : IsSeparator ':' := by decide
    have text := congrArg String.toList same
    rw [identity_toList, identity_toList] at text
    obtain ⟨front, amount⟩ := append_cons_inj_of_last
      (notMem_toString_u64 rfl left.coin.amount) (notMem_toString_u64 rfl right.coin.amount) text
    obtain ⟨parent, puzzle⟩ := append_cons_inj_of_last
      (separator_notMem_coin colon leftParsed).2 (separator_notMem_coin colon rightParsed).2 front
    exact coin_eq (String.toList_inj.mp parent) (String.toList_inj.mp puzzle)
      (amount_toString_injective (String.toList_inj.mp amount))
  · intro coin
    simp only [identity, coin]

/-- The parts of a spend's claim: its programs stand where a record's claim has its heights. -/
def spendParts (spend : CoinSpend) : ClaimParts where
  parent := spend.coin.parentCoinInfo.toList
  puzzle := spend.coin.puzzleHash.toList
  amount := (toString spend.coin.amount).toList
  created := spend.puzzleReveal.toList
  spent := spend.solution.toList

theorem chainClaim_spend_toList (spend : CoinSpend)
    : (chainClaim spend).toList
      = (spendParts spend).joined "spend(".toList ") puzzle".toList " solution".toList :=
  ClaimParts.toList_of_rendered "spend(" " puzzle=" " solution=" (spendParts spend)
    spend.coin.parentCoinInfo spend.coin.puzzleHash (toString spend.coin.amount)
    spend.puzzleReveal spend.solution rfl (by decide) (by decide)

theorem separator_notMem_spend {char : Char} {spend : CoinSpend} {parsedSpend : ProtocolCoinSpend}
    (separates : IsSeparator char) (parsed : coinSpendFromChq spend = .ok parsedSpend)
    : (char ∉ (spendParts spend).parent ∧ char ∉ (spendParts spend).puzzle)
      ∧ char ∉ (spendParts spend).created
      ∧ char ∉ (spendParts spend).spent := by
  obtain ⟨coin, puzzle, solution⟩ := coinSpendFromChq_inv parsed
  exact ⟨separator_notMem_coin separates coin,
    separator_notMem separates (parseProgram_inv puzzle),
    separator_notMem separates (parseProgram_inv solution)⟩

/-- A spend that parses is told by its claim. -/
theorem chainClaim_spend_iff {left right : CoinSpend} {leftSpend rightSpend : ProtocolCoinSpend}
    (leftParsed : coinSpendFromChq left = .ok leftSpend)
    (rightParsed : coinSpendFromChq right = .ok rightSpend)
    : chainClaim left = chainClaim right ↔ left = right := by
  constructor
  · intro same
    have comma : IsSeparator ',' := by decide
    have equals : IsSeparator '=' := by decide
    have text := congrArg String.toList same
    rw [chainClaim_spend_toList, chainClaim_spend_toList] at text
    obtain ⟨-, leftPuzzle, leftSolution⟩ := separator_notMem_spend equals leftParsed
    obtain ⟨-, rightPuzzle, rightSolution⟩ := separator_notMem_spend equals rightParsed
    obtain ⟨⟨parent, puzzleHash⟩, -⟩ := separator_notMem_spend comma rightParsed
    have parts : spendParts left = spendParts right :=
      ClaimParts.joined_inj leftSolution rightSolution leftPuzzle rightPuzzle
        (notMem_toString_u64 rfl left.coin.amount) (notMem_toString_u64 rfl right.coin.amount)
        parent puzzleHash text
    simp only [spendParts, ClaimParts.mk.injEq, String.toList_inj] at parts
    obtain ⟨sameParent, samePuzzle, amount, reveal, solution⟩ := parts
    cases left
    cases right
    simp only [CoinSpend.mk.injEq]
    exact ⟨coin_eq sameParent samePuzzle (amount_toString_injective amount), reveal, solution⟩
  · rintro rfl
    rfl

------------------------------------------------------------------------------------------
-- Claims are canonical where texts are
------------------------------------------------------------------------------------------

theorem recordsCanonical_iff (left right : CoinRecord)
    : RecordsCanonical left right
      ↔ ((coinFromChq left.coin).isOk = true
          → (coinFromChq right.coin).isOk = true
          → SameDigits left.coin right.coin
          → left.coin = right.coin) := by
  constructor
  · intro canonical leftParses rightParses digits
    obtain ⟨leftCoin, leftParsed⟩ := isOk_iff.mp leftParses
    obtain ⟨rightCoin, rightParsed⟩ := isOk_iff.mp rightParses
    exact (identity_record_iff leftParsed rightParsed).mp
      ((canonical.identities leftCoin rightCoin leftParsed rightParsed).mpr
        ((coinFromChq_eq_iff leftParsed rightParsed).mpr digits))
  · intro spelledAlike
    have sameCoin {leftCoin rightCoin : ProtocolCoin}
        (leftParsed : coinFromChq left.coin = .ok leftCoin)
        (rightParsed : coinFromChq right.coin = .ok rightCoin)
        : left.coin = right.coin ↔ leftCoin = rightCoin := by
      constructor
      · intro same
        rw [same, rightParsed] at leftParsed
        exact (Except.ok.inj leftParsed).symm
      · intro same
        exact spelledAlike (isOk_iff.mpr ⟨_, leftParsed⟩) (isOk_iff.mpr ⟨_, rightParsed⟩)
          ((coinFromChq_eq_iff leftParsed rightParsed).mp same)
    constructor
    · intro leftCoin rightCoin leftParsed rightParsed
      rw [chainClaim_record_iff rightParsed, sameCoin leftParsed rightParsed]
    · intro leftCoin rightCoin leftParsed rightParsed
      rw [identity_record_iff leftParsed rightParsed, sameCoin leftParsed rightParsed]

theorem spendsCanonical_iff (left right : CoinSpend)
    : SpendsCanonical left right
      ↔ ((coinSpendFromChq left).isOk = true
          → (coinSpendFromChq right).isOk = true
          → SpendsSameDigits left right
          → left = right) := by
  constructor
  · intro canonical leftParses rightParses digits
    obtain ⟨leftSpend, leftParsed⟩ := isOk_iff.mp leftParses
    obtain ⟨rightSpend, rightParsed⟩ := isOk_iff.mp rightParses
    exact (chainClaim_spend_iff leftParsed rightParsed).mp
      ((canonical leftSpend rightSpend leftParsed rightParsed).mpr
        ((coinSpendFromChq_eq_iff leftParsed rightParsed).mpr digits))
  · intro spelledAlike leftSpend rightSpend leftParsed rightParsed
    rw [chainClaim_spend_iff leftParsed rightParsed]
    constructor
    · rintro rfl
      exact Except.ok.inj (leftParsed.symm.trans rightParsed)
    · intro same
      exact spelledAlike (isOk_iff.mpr ⟨_, leftParsed⟩) (isOk_iff.mpr ⟨_, rightParsed⟩)
        ((coinSpendFromChq_eq_iff leftParsed rightParsed).mp same)

/-- Claims and identities of records and spends that parse tell apart exactly the coins, heights
and programs they are about, unless what differs is a prefix or the case of a digit.
-/
theorem claims_are_canonical_iff (left right : CoinRecord) (leftSpend rightSpend : CoinSpend)
    : (RecordsCanonical left right
        ↔ ((coinFromChq left.coin).isOk = true
            → (coinFromChq right.coin).isOk = true
            → SameDigits left.coin right.coin
            → left.coin = right.coin))
      ∧ (SpendsCanonical leftSpend rightSpend
        ↔ ((coinSpendFromChq leftSpend).isOk = true
            → (coinSpendFromChq rightSpend).isOk = true
            → SpendsSameDigits leftSpend rightSpend
            → leftSpend = rightSpend)) :=
  ⟨recordsCanonical_iff left right, spendsCanonical_iff leftSpend rightSpend⟩

/-- A record of a coin whose parent is spelled as given. -/
def spelledRecord (parentCoinInfo : String) : CoinRecord where
  coin := { parentCoinInfo, puzzleHash := hex32 0, amount := 1 }
  confirmedBlockIndex := 50
  spentBlockIndex := 0
  spent := false
  coinbase := false
  timestamp := 0

/-- A hash without the prefix parses as the one with it, and is another claim. -/
theorem bare_hash_is_another_claim
    : ¬ ∀ left right : CoinRecord, RecordsCanonical left right := by
  intro claim
  let bare := String.ofList (hexDigits 64 0)
  have digits : stripHexPrefix bare = stripHexPrefix (hex32 0) := by
    rw [stripHexPrefix_hex32, stripHexPrefix, String.toList_ofList]
    rfl
  have bareParsed : parseBytes32 bare = .ok 0 := by
    rw [parseBytes32, digits, ← parseBytes32_hex32 0, parseBytes32, hexDecode_hex32]
  have parsed (text : String) (same : parseBytes32 text = .ok 0)
      : (coinFromChq (spelledRecord text).coin).isOk = true := by
    simp only [coinFromChq, spelledRecord, same, parseBytes32_hex32]
    rfl
  have canonical := claim (spelledRecord bare) (spelledRecord (hex32 0))
  have same := (recordsCanonical_iff _ _).mp canonical (parsed bare bareParsed)
    (parsed (hex32 0) (parseBytes32_hex32 0))
    ⟨congrArg (List.map Char.toLower) digits, rfl, rfl⟩
  have text := congrArg (fun coin : Coin => coin.parentCoinInfo.toList) same
  simp only [spelledRecord, bare, hex32, String.toList_ofList, String.toList_append] at text
  exact absurd (congrArg List.length text) (by simp [hexDigits_length])

end ChiaQuery.Registry
