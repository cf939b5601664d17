import ChiaQuery.Types.Records
import Mathlib.Data.List.Induction

/-! Hexadecimal text and the bytes it spells. A hash that was rendered is parsed back to
itself; other text of the right length may be refused.
-/

namespace ChiaQuery

/-- `hex::FromHexError`. -/
inductive FromHexError where
  | invalidHexCharacter (character : Char) (index : Nat)
  | oddLength
  deriving DecidableEq, Repr

/-- The `Debug` rendering of a character that is one byte, which is as far as `char::from` of a
byte goes. The control characters, the no-break space and the soft hyphen are not printable.
-/
def debugByteChar (character : Char) : String :=
  let code := character.toNat
  let shown :=
    if code = 0 then "\\0"
    else if code = 9 then "\\t"
    else if code = 10 then "\\n"
    else if code = 13 then "\\r"
    else if code = 39 then "\\'"
    else if code = 92 then "\\\\"
    else if code < 32 ∨ 127 ≤ code ∧ code ≤ 160 ∨ code = 173 then
      "\\u\x7b" ++ String.ofList (Nat.toDigits 16 code) ++ "\x7d"
    else character.toString
  "'" ++ shown ++ "'"

/-- The `Display` rendering. -/
def FromHexError.display : FromHexError → String
  | invalidHexCharacter character index =>
      s!"Invalid character {debugByteChar character} at position {index}"
  | oddLength => "Odd number of digits"

/-- The value of one hexadecimal digit, in either case. -/
def hexNibble (byte : UInt8) : Option UInt8 :=
  if 65 ≤ byte ∧ byte ≤ 70 then some (byte - 65 + 10)
  else if 97 ≤ byte ∧ byte ≤ 102 then some (byte - 97 + 10)
  else if 48 ≤ byte ∧ byte ≤ 57 then some (byte - 48)
  else none

/-- The value of the digit at a position, or where the text goes wrong. -/
def hexValue (byte : UInt8) (index : Nat) : Except FromHexError UInt8 :=
  match hexNibble byte with
  | some value => .ok value
  | none => .error (.invalidHexCharacter (Char.ofNat byte.toNat) index)

/-- Decode digits two by two, from a position on. -/
def decodePairs : Nat → List UInt8 → Except FromHexError (List UInt8)
  | index, first :: second :: rest => do
      let high ← hexValue first index
      let low ← hexValue second (index + 1)
      let bytes ← decodePairs (index + 2) rest
      return (high * 16 + low) :: bytes
  | _, _ => .ok []

/-- The UTF-8 bytes of a text. -/
def utf8Bytes (text : List Char) : List UInt8 :=
  text.flatMap String.utf8EncodeChar

/-- `hex::decode`. -/
def hexDecode (text : List Char) : Except FromHexError (List UInt8) :=
  let bytes := utf8Bytes text
  if bytes.length % 2 ≠ 0 then .error .oddLength else decodePairs 0 bytes

/-- `strip_prefix("0x")`, or the text as it is. -/
def stripHexPrefix (text : String) : List Char :=
  match text.toList with
  | '0' :: 'x' :: rest => rest
  | chars => chars

/-- The number that bytes spell, the first byte the most significant. -/
def bigEndian (bytes : List UInt8) : Nat :=
  bytes.foldl (fun number byte => number * 256 + byte.toNat) 0

/-- The 32 bytes, when there are as many. -/
def bytes32Of (bytes : List UInt8) : Option Bytes32 :=
  if bytes.length = 32 then some (BitVec.ofNat 256 (bigEndian bytes)) else none

/-- `parse_hex`. -/
def parseHex (text : String) : Except ChiaQueryError (List UInt8) :=
  match hexDecode (stripHexPrefix text) with
  | .ok bytes => .ok bytes
  | .error failure => .error (.invalidRequest s!"bad hex: {failure.display}")

/-- `parse_bytes32`. -/
def parseBytes32 (text : String) : Except ChiaQueryError Bytes32 := do
  let bytes ← parseHex text
  match bytes32Of bytes with
  | some hash => return hash
  | none => throw (.invalidRequest "expected 32 bytes")

------------------------------------------------------------------------------------------
-- Rendered hashes are parsed back
------------------------------------------------------------------------------------------

/-- The last `count` bytes of a number, most significant first. -/
def lastBytes : Nat → Nat → List UInt8
  | 0, _ => []
  | count + 1, value => lastBytes count (value / 256) ++ [UInt8.ofNat (value % 256)]

theorem lastBytes_length (count value : Nat) : (lastBytes count value).length = count := by
  induction count generalizing value with
  | zero => rfl
  | succ count ih => simp [lastBytes, ih]

/-- The bytes of a number that fits in them spell it, by induction on their count. -/
theorem bigEndian_lastBytes {count value : Nat} (fits : value < 256 ^ count)
    : bigEndian (lastBytes count value) = value := by
  induction count generalizing value with
  | zero =>
      simp only [Nat.pow_zero, Nat.lt_one_iff] at fits
      simp [lastBytes, bigEndian, fits]
  | succ count ih =>
      have high : bigEndian (lastBytes count (value / 256)) = value / 256 :=
        ih (Nat.div_lt_of_lt_mul (by rwa [Nat.pow_succ, Nat.mul_comm] at fits))
      rw [lastBytes, bigEndian, List.foldl_append, ← bigEndian, high]
      simp only [List.foldl_cons, List.foldl_nil, UInt8.toNat_ofNat']
      omega

/-- The byte that renders a digit. -/
def digitByte (digit : Nat) : UInt8 :=
  UInt8.ofNat (if digit < 10 then 48 + digit else 87 + digit)

theorem utf8EncodeChar_hexDigit
    : ∀ digit < 16, String.utf8EncodeChar (hexDigit digit) = [digitByte digit] := by
  decide

theorem hexNibble_digitByte
    : ∀ digit < 16, hexNibble (digitByte digit) = some (UInt8.ofNat digit) := by
  decide

theorem hexValue_digitByte {digit : Nat} (small : digit < 16) (index : Nat)
    : hexValue (digitByte digit) index = .ok (UInt8.ofNat digit) := by
  rw [hexValue, hexNibble_digitByte digit small]

theorem joinedDigits : ∀ value < 256,
    UInt8.ofNat (value / 16) * 16 + UInt8.ofNat (value % 16) = UInt8.ofNat value := by
  decide +kernel

theorem utf8Bytes_hexDigits_succ (count value : Nat)
    : utf8Bytes (hexDigits (count + 1) value)
      = utf8Bytes (hexDigits count (value / 16)) ++ [digitByte (value % 16)] := by
  have small : value % 16 < 16 := Nat.mod_lt value (by omega)
  rw [hexDigits, utf8Bytes, List.flatMap_append, ← utf8Bytes, List.flatMap_singleton,
    utf8EncodeChar_hexDigit _ small]

/-- Decoding rendered digits yields the bytes of the number, and then what the rest decodes
to. Induction on the bytes, the last one split off the front part's rest.
-/
theorem decodePairs_hexDigits (count value index : Nat) (rest : List UInt8)
    : decodePairs index (utf8Bytes (hexDigits (2 * count) value) ++ rest)
      = (decodePairs (index + 2 * count) rest).map (fun bytes =>
          lastBytes count value ++ bytes) := by
  induction count generalizing value rest with
  | zero =>
      cases h : decodePairs index rest <;>
        simp [hexDigits, utf8Bytes, lastBytes, h, Except.map]
  | succ count ih =>
      have two : 2 * (count + 1) = 2 * count + 1 + 1 := by omega
      have last : decodePairs (index + 2 * count)
            (digitByte (value / 16 % 16) :: digitByte (value % 16) :: rest)
          = (decodePairs (index + 2 * count + 2) rest).map (fun bytes =>
              UInt8.ofNat (value % 256) :: bytes) := by
        have joined := joinedDigits (value % 256) (Nat.mod_lt value (by omega))
        have high : value % 256 / 16 = value / 16 % 16 := by omega
        have low : value % 256 % 16 = value % 16 := by omega
        rw [high, low] at joined
        rw [decodePairs, hexValue_digitByte (Nat.mod_lt _ (by omega)),
          hexValue_digitByte (Nat.mod_lt _ (by omega))]
        cases decodePairs (index + 2 * count + 2) rest with
        | error failure => rfl
        | ok bytes => simp only [Except.map, bind, Except.bind, pure, Except.pure, joined]
      rw [two, utf8Bytes_hexDigits_succ, utf8Bytes_hexDigits_succ, List.append_assoc,
        List.append_assoc, List.singleton_append, List.singleton_append, ih, last]
      have sixteen : value / 16 / 16 = value / 256 := Nat.div_div_eq_div_mul value 16 16
      have sum : index + (2 * count + 1 + 1) = index + 2 * count + 2 := by omega
      rw [sum, sixteen]
      cases decodePairs (index + 2 * count + 2) rest with
      | error failure => rfl
      | ok bytes => simp [Except.map, lastBytes]

/-- Decoding the rendered bytes yields them, by induction on the bytes. -/
theorem decodePairs_bytes (bytes : List UInt8) (index : Nat)
    : decodePairs index (utf8Bytes (bytes.flatMap (fun byte => hexDigits 2 byte.toNat)))
      = .ok bytes := by
  induction bytes generalizing index with
  | nil => rfl
  | cons byte rest ih =>
      rw [List.flatMap_cons, utf8Bytes, List.flatMap_append, ← utf8Bytes, ← utf8Bytes]
      have decoded := decodePairs_hexDigits 1 byte.toNat index
        (utf8Bytes (rest.flatMap (fun byte => hexDigits 2 byte.toNat)))
      rw [ih] at decoded
      have last : lastBytes 1 byte.toNat = [byte] := by
        simp [lastBytes]
      rw [last] at decoded
      exact decoded

theorem utf8Bytes_hexDigits_length (count value : Nat)
    : (utf8Bytes (hexDigits count value)).length = count := by
  induction count generalizing value with
  | zero => rfl
  | succ count ih => simp [utf8Bytes_hexDigits_succ, ih]

theorem stripHexPrefix_hex32 (bytes : Bytes32)
    : stripHexPrefix (hex32 bytes) = hexDigits 64 bytes.toNat := by
  simp [stripHexPrefix, hex32]

theorem utf8Bytes_bytes_length (bytes : List UInt8)
    : (utf8Bytes (bytes.flatMap (fun byte => hexDigits 2 byte.toNat))).length
      = 2 * bytes.length := by
  induction bytes with
  | nil => rfl
  | cons byte rest ih =>
      rw [List.flatMap_cons, utf8Bytes, List.flatMap_append, ← utf8Bytes, ← utf8Bytes,
        List.length_append, utf8Bytes_hexDigits_length, ih, List.length_cons]
      omega

theorem hexDecode_bytes (bytes : List UInt8)
    : hexDecode (bytes.flatMap (fun byte => hexDigits 2 byte.toNat)) = .ok bytes := by
  simp only [hexDecode, utf8Bytes_bytes_length]
  rw [if_neg (by omega), decodePairs_bytes]

theorem hexDecode_hex32 (bytes : Bytes32)
    : hexDecode (stripHexPrefix (hex32 bytes)) = .ok (lastBytes 32 bytes.toNat) := by
  have decoded := decodePairs_hexDigits 32 bytes.toNat 0 []
  simp only [List.append_nil] at decoded
  rw [hexDecode, stripHexPrefix_hex32]
  simp only [utf8Bytes_hexDigits_length]
  rw [if_neg (by omega), decoded]
  simp [decodePairs, Except.map]

theorem bytes32Of_lastBytes (bytes : Bytes32)
    : bytes32Of (lastBytes 32 bytes.toNat) = some bytes := by
  have fits : bytes.toNat < 256 ^ 32 := by simpa using bytes.isLt
  rw [bytes32Of, if_pos (lastBytes_length 32 _), bigEndian_lastBytes fits]
  simp

/-- Thirty-two bytes are determined by their list. -/
theorem lastBytes_injective {left right : Bytes32}
    (same : lastBytes 32 left.toNat = lastBytes 32 right.toNat)
    : left = right := by
  have read := congrArg bytes32Of same
  rw [bytes32Of_lastBytes, bytes32Of_lastBytes] at read
  exact Option.some.inj read

theorem parseHex_hex32 (bytes : Bytes32)
    : parseHex (hex32 bytes) = .ok (lastBytes 32 bytes.toNat) := by
  rw [parseHex, hexDecode_hex32]

/-- A rendered hash is parsed back to itself. -/
theorem parseBytes32_hex32 (bytes : Bytes32) : parseBytes32 (hex32 bytes) = .ok bytes := by
  simp only [parseBytes32, parseHex_hex32, bind, Except.bind, bytes32Of_lastBytes]
  rfl

------------------------------------------------------------------------------------------
-- Text that decodes is determined by its bytes, up to the case of its digits
------------------------------------------------------------------------------------------

/-- Every byte that is decoded is a digit, by induction on the pairs. -/
theorem hexNibble_of_decodePairs {index : Nat} {text bytes : List UInt8}
    (even : text.length % 2 = 0) (decoded : decodePairs index text = .ok bytes)
    : ∀ byte ∈ text, hexNibble byte ≠ none := by
  induction index, text using decodePairs.induct generalizing bytes with
  | case1 index first second rest ih =>
      rw [decodePairs] at decoded
      have digit {byte value : UInt8} {position : Nat}
          (read : hexValue byte position = .ok value) : hexNibble byte ≠ none := by
        intro none
        rw [hexValue, none] at read
        cases read
      cases high : hexValue first index with
      | error failure => simp [high, bind, Except.bind] at decoded
      | ok highValue =>
          cases low : hexValue second (index + 1) with
          | error failure => simp [high, low, bind, Except.bind] at decoded
          | ok lowValue =>
              cases tail : decodePairs (index + 2) rest with
              | error failure => simp [high, low, tail, bind, Except.bind] at decoded
              | ok others =>
                  have restEven : rest.length % 2 = 0 := by
                    simp only [List.length_cons] at even
                    omega
                  rintro byte (_ | ⟨_, _ | ⟨_, later⟩⟩)
                  · exact digit high
                  · exact digit low
                  · exact ih restEven tail byte later
  | case2 text index notPair =>
      rcases text with _ | ⟨first, _ | ⟨second, rest⟩⟩
      · simp
      · simp at even
      · exact absurd rfl (notPair first second rest)

/-- The digits by the codes of their characters. -/
theorem asciiDigit
    : ∀ code < 128,
        hexNibble (UInt8.ofNat code) ≠ none
        → ∃ digit < 16,
            hexNibble (UInt8.ofNat code) = some (UInt8.ofNat digit)
            ∧ (Char.ofNat code).toLower = hexDigit digit := by
  decide +kernel

theorem hexNibble_of_high {byte : UInt8} (high : 128 ≤ byte.toNat) : hexNibble byte = none := by
  simp only [hexNibble, UInt8.le_iff_toNat_le]
  rw [if_neg, if_neg, if_neg] <;> simp <;> omega

/-- A character is a single byte when its first byte is a digit. -/
theorem ascii_of_decoded {char : Char}
    (digits : ∀ byte ∈ String.utf8EncodeChar char, hexNibble byte ≠ none)
    : char.val.toNat < 128 := by
  by_contra wide
  have first (code : Nat) (low : 128 ≤ code) (high : code < 256)
      : hexNibble (UInt8.ofNat code) = none := by
    apply hexNibble_of_high
    rw [UInt8.toNat_ofNat', Nat.mod_eq_of_lt (by omega)]
    exact low
  unfold String.utf8EncodeChar at digits
  dsimp only at digits
  rw [if_neg (by omega)] at digits
  split at digits
  · exact absurd (first _ (by omega) (by omega)) (digits _ List.mem_cons_self)
  split at digits
  · exact absurd (first _ (by omega) (by omega)) (digits _ List.mem_cons_self)
  · exact absurd (first _ (by omega) (by omega)) (digits _ List.mem_cons_self)

theorem utf8EncodeChar_of_ascii {char : Char} (ascii : char.val.toNat < 128)
    : String.utf8EncodeChar char = [UInt8.ofNat char.val.toNat] := by
  unfold String.utf8EncodeChar
  dsimp only
  rw [if_pos (by omega)]

/-- A character whose bytes are digits is one digit, in one case or the other. -/
theorem digit_of_utf8EncodeChar {char : Char}
    (digits : ∀ byte ∈ String.utf8EncodeChar char, hexNibble byte ≠ none)
    : ∃ digit < 16, ∃ byte,
        String.utf8EncodeChar char = [byte]
        ∧ hexNibble byte = some (UInt8.ofNat digit)
        ∧ char.toLower = hexDigit digit := by
  have ascii := ascii_of_decoded digits
  have encoded := utf8EncodeChar_of_ascii ascii
  obtain ⟨digit, small, value, lower⟩ :=
    asciiDigit char.val.toNat ascii (digits _ (encoded ▸ List.mem_singleton_self _))
  refine ⟨digit, small, _, encoded, value, ?_⟩
  rw [← lower]
  exact congrArg Char.toLower (Char.ofNat_toNat char).symm

theorem hexDigits_joined {high low : Nat} (highSmall : high < 16) (lowSmall : low < 16)
    : hexDigits 2 (UInt8.ofNat high * 16 + UInt8.ofNat low).toNat
      = [hexDigit high, hexDigit low] := by
  have joined : (UInt8.ofNat high * 16 + UInt8.ofNat low).toNat = high * 16 + low := by
    rw [UInt8.toNat_add, UInt8.toNat_mul, UInt8.toNat_ofNat', UInt8.toNat_ofNat']
    simp only [UInt8.toNat_ofNat]
    omega
  rw [joined]
  simp [hexDigits]
  constructor <;> congr 1 <;> omega

/-- Text that decodes is what its bytes are rendered as, up to the case of its digits. -/
theorem toLower_of_decodePairs {index : Nat} {text : List Char} {bytes : List UInt8}
    (even : (utf8Bytes text).length % 2 = 0)
    (decoded : decodePairs index (utf8Bytes text) = .ok bytes)
    : text.map Char.toLower = bytes.flatMap (fun byte => hexDigits 2 byte.toNat) := by
  have digit {char : Char} (member : char ∈ text) := digit_of_utf8EncodeChar
    (fun byte encoded => hexNibble_of_decodePairs even decoded byte
      (List.mem_flatMap.mpr ⟨char, member, encoded⟩))
  induction text using List.twoStepInduction generalizing index bytes with
  | nil =>
      cases decoded
      rfl
  | singleton char =>
      obtain ⟨-, -, byte, encoded, -⟩ := digit (List.mem_singleton_self char)
      simp [utf8Bytes, encoded] at even
  | cons_cons first second rest ih _ =>
      obtain ⟨high, highSmall, highByte, highEncoded, highValue, highLower⟩ :=
        digit List.mem_cons_self
      obtain ⟨low, lowSmall, lowByte, lowEncoded, lowValue, lowLower⟩ :=
        digit (List.mem_cons_of_mem _ List.mem_cons_self)
      have split : utf8Bytes (first :: second :: rest) = highByte :: lowByte :: utf8Bytes rest := by
        simp [utf8Bytes, highEncoded, lowEncoded]
      rw [split] at even decoded
      rw [decodePairs] at decoded
      simp only [hexValue, highValue, lowValue, bind, Except.bind] at decoded
      cases tail : decodePairs (index + 2) (utf8Bytes rest) with
      | error failure => simp [tail] at decoded
      | ok others =>
          simp only [tail, pure, Except.pure, Except.ok.injEq] at decoded
          have restEven : (utf8Bytes rest).length % 2 = 0 := by
            simp only [List.length_cons] at even
            omega
          rw [List.map_cons, List.map_cons, highLower, lowLower,
            ih restEven tail (fun member => digit (by simp [member])), ← decoded,
            List.flatMap_cons, hexDigits_joined highSmall lowSmall]
          rfl

theorem toLower_of_hexDecode {text : List Char} {bytes : List UInt8}
    (decoded : hexDecode text = .ok bytes)
    : text.map Char.toLower = bytes.flatMap (fun byte => hexDigits 2 byte.toNat) := by
  unfold hexDecode at decoded
  dsimp only at decoded
  split at decoded
  · cases decoded
  · rename_i even
    exact toLower_of_decodePairs (by omega) decoded

/-- Texts that decode have the same bytes when their digits are the same in lower case. -/
theorem hexDecode_eq_iff {left right : List Char} {leftBytes rightBytes : List UInt8}
    (leftDecoded : hexDecode left = .ok leftBytes)
    (rightDecoded : hexDecode right = .ok rightBytes)
    : leftBytes = rightBytes ↔ left.map Char.toLower = right.map Char.toLower := by
  rw [toLower_of_hexDecode leftDecoded, toLower_of_hexDecode rightDecoded]
  constructor
  · rintro rfl
    rfl
  · intro same
    have decoded := congrArg hexDecode same
    rw [hexDecode_bytes, hexDecode_bytes] at decoded
    exact Except.ok.inj decoded

------------------------------------------------------------------------------------------
-- Which text decodes
------------------------------------------------------------------------------------------

/-- The ASCII characters that are hexadecimal digits are those whose code is decoded. -/
theorem isHexDigit_iff_ascii
    : ∀ code < 128,
        (Char.ofNat code).isHexDigit = true ↔ hexNibble (UInt8.ofNat code) ≠ none := by
  decide +kernel

theorem lt_of_isHexDigit {char : Char} (digit : char.isHexDigit = true)
    : char.val.toNat < 128 := by
  simp only [Char.isHexDigit, Char.isDigit, Bool.or_eq_true, Bool.and_eq_true,
    decide_eq_true_eq, ge_iff_le, UInt32.le_iff_toNat_le] at digit
  have upper : '9'.val.toNat = 57 ∧ 'f'.val.toNat = 102 ∧ 'F'.val.toNat = 70 := by decide
  omega

/-- The hexadecimal digits are the characters whose bytes are all decoded. -/
theorem isHexDigit_iff {char : Char}
    : char.isHexDigit = true ↔ ∀ byte ∈ String.utf8EncodeChar char, hexNibble byte ≠ none := by
  have named : Char.ofNat char.val.toNat = char := Char.ofNat_toNat char
  constructor
  · intro digit
    have ascii := lt_of_isHexDigit digit
    rw [← named, isHexDigit_iff_ascii _ ascii] at digit
    rw [utf8EncodeChar_of_ascii ascii]
    intro byte member
    exact List.mem_singleton.mp member ▸ digit
  · intro digits
    have ascii := ascii_of_decoded digits
    rw [← named, isHexDigit_iff_ascii _ ascii]
    exact digits _ (utf8EncodeChar_of_ascii ascii ▸ List.mem_singleton_self _)

theorem exists_hexValue {byte : UInt8} (index : Nat) (digit : hexNibble byte ≠ none)
    : ∃ value, hexValue byte index = .ok value := by
  obtain ⟨value, found⟩ := Option.ne_none_iff_exists'.mp digit
  exact ⟨value, by rw [hexValue, found]⟩

/-- Digits in pairs are decoded, by induction on the pairs. -/
theorem exists_decodePairs {index : Nat} {text : List UInt8}
    (digits : ∀ byte ∈ text, hexNibble byte ≠ none)
    : ∃ bytes, decodePairs index text = .ok bytes := by
  induction index, text using decodePairs.induct with
  | case1 index first second rest ih =>
      rw [List.forall_mem_cons, List.forall_mem_cons] at digits
      obtain ⟨high, highRead⟩ := exists_hexValue index digits.1
      obtain ⟨low, lowRead⟩ := exists_hexValue (index + 1) digits.2.1
      obtain ⟨bytes, decoded⟩ := ih digits.2.2
      refine ⟨(high * 16 + low) :: bytes, ?_⟩
      rw [decodePairs, highRead, lowRead, decoded]
      rfl
  | case2 text index notPair =>
      rcases text with _ | ⟨first, _ | ⟨second, rest⟩⟩
      · exact ⟨[], rfl⟩
      · exact ⟨[], rfl⟩
      · exact absurd rfl (notPair first second rest)

/-- Digits are as many bytes as characters. -/
theorem utf8Bytes_length_of_digits {text : List Char}
    (digits : ∀ char ∈ text, char.isHexDigit = true)
    : (utf8Bytes text).length = text.length := by
  induction text with
  | nil => rfl
  | cons char rest ih =>
      rw [List.forall_mem_cons] at digits
      have single := utf8EncodeChar_of_ascii (lt_of_isHexDigit digits.1)
      rw [utf8Bytes, List.flatMap_cons, single, List.singleton_append, List.length_cons,
        List.length_cons]
      exact congrArg (· + 1) (ih digits.2)

theorem mem_utf8Bytes_digits_iff {text : List Char}
    : (∀ byte ∈ utf8Bytes text, hexNibble byte ≠ none)
      ↔ ∀ char ∈ text, char.isHexDigit = true := by
  simp only [utf8Bytes, List.mem_flatMap, isHexDigit_iff]
  constructor
  · intro bytes char member byte encoded
    exact bytes byte ⟨char, member, encoded⟩
  · rintro chars byte ⟨char, member, encoded⟩
    exact chars char member byte encoded

/-- Text is hexadecimal when it is digits, and an even number of them. -/
def IsHexText (text : List Char) : Prop :=
  text.length % 2 = 0 ∧ ∀ char ∈ text, char.isHexDigit = true

/-- Exactly the hexadecimal text decodes. -/
theorem exists_hexDecode_iff {text : List Char}
    : (∃ bytes, hexDecode text = .ok bytes) ↔ IsHexText text := by
  constructor
  · rintro ⟨bytes, decoded⟩
    unfold hexDecode at decoded
    dsimp only at decoded
    split at decoded
    · cases decoded
    · rename_i even
      have digits := mem_utf8Bytes_digits_iff.mp (hexNibble_of_decodePairs (by omega) decoded)
      rw [utf8Bytes_length_of_digits digits] at even
      exact ⟨by omega, digits⟩
  · rintro ⟨even, digits⟩
    have evenBytes : ¬ (utf8Bytes text).length % 2 ≠ 0 := by
      rw [utf8Bytes_length_of_digits digits]
      omega
    unfold hexDecode
    dsimp only
    rw [if_neg evenBytes]
    exact exists_decodePairs (mem_utf8Bytes_digits_iff.mpr digits)

/-- Text that decodes has two digits for each byte. -/
theorem length_of_hexDecode {text : List Char} {bytes : List UInt8}
    (decoded : hexDecode text = .ok bytes)
    : text.length = 2 * bytes.length := by
  have digits := congrArg List.length (toLower_of_hexDecode decoded)
  rw [List.length_map, List.length_flatMap] at digits
  simp only [hexDigits_length, List.map_const', List.sum_replicate_nat] at digits
  omega

theorem bigEndian_append (front : List UInt8) (last : UInt8)
    : bigEndian (front ++ [last]) = bigEndian front * 256 + last.toNat := by
  simp [bigEndian]

/-- Bytes are those of the number they spell, by induction from the last one. -/
theorem lastBytes_bigEndian (bytes : List UInt8)
    : lastBytes bytes.length (bigEndian bytes) = bytes := by
  induction bytes using List.reverseRecOn with
  | nil => rfl
  | append_singleton front last ih =>
      have small := last.toNat_lt
      have high : bigEndian (front ++ [last]) / 256 = bigEndian front := by
        rw [bigEndian_append]
        omega
      have low : bigEndian (front ++ [last]) % 256 = last.toNat := by
        rw [bigEndian_append]
        omega
      rw [List.length_append, List.length_singleton, lastBytes, high, low, ih, UInt8.ofNat_toNat]

theorem bigEndian_lt (bytes : List UInt8) : bigEndian bytes < 256 ^ bytes.length := by
  induction bytes using List.reverseRecOn with
  | nil => decide
  | append_singleton front last ih =>
      have small := last.toNat_lt
      rw [bigEndian_append, List.length_append, List.length_singleton, Nat.pow_succ]
      omega

/-- The bytes of a hash are those of its number. -/
theorem eq_lastBytes_of_bytes32Of {bytes : List UInt8} {hash : Bytes32}
    (read : bytes32Of bytes = some hash)
    : bytes = lastBytes 32 hash.toNat := by
  unfold bytes32Of at read
  split at read
  · rename_i length
    cases read
    have fits := bigEndian_lt bytes
    rw [length] at fits
    rw [BitVec.toNat_ofNat, Nat.mod_eq_of_lt (by simpa using fits), ← length,
      lastBytes_bigEndian]
  · cases read

------------------------------------------------------------------------------------------
-- What the crate documents of its decoder
------------------------------------------------------------------------------------------

/-- What the crate documents of `decode`: two digits in either case make a byte; other text is
refused for its odd length, or else for its first byte that is no digit.
-/
structure DecodesHex (decode : List Char → Except FromHexError (List UInt8)) : Prop where
  decodes
    : ∀ text bytes,
        text.map Char.toLower = bytes.flatMap (fun byte => hexDigits 2 byte.toNat)
        → decode text = .ok bytes
  oddLength : ∀ text, (utf8Bytes text).length % 2 ≠ 0 → decode text = .error .oddLength
  invalid
    : ∀ text front byte rest,
        (utf8Bytes text).length % 2 = 0
        → utf8Bytes text = front ++ byte :: rest
        → (∀ digit ∈ front, hexNibble digit ≠ none)
        → hexNibble byte = none
        → decode text = .error (.invalidHexCharacter (Char.ofNat byte.toNat) front.length)

theorem isHexDigit_of_asciiLower
    : ∀ code < 128, ∀ digit < 16,
        (Char.ofNat code).toLower = hexDigit digit → (Char.ofNat code).isHexDigit = true := by
  decide +kernel

theorem hexDigit_ascii : ∀ digit < 16, (hexDigit digit).val.toNat < 128 := by
  decide

/-- A character is a digit when it is one in lower case. -/
theorem isHexDigit_of_toLower {char : Char} {digit : Nat} (small : digit < 16)
    (lower : char.toLower = hexDigit digit)
    : char.isHexDigit = true := by
  have ascii : char.val.toNat < 128 := by
    by_contra wide
    have unchanged : char.toLower = char := by
      unfold Char.toLower
      rw [dif_neg]
      simp only [ge_iff_le, UInt32.le_iff_toNat_le]
      have upper : 'Z'.val.toNat = 90 := by decide
      omega
    rw [unchanged] at lower
    exact wide (lower ▸ hexDigit_ascii digit small)
  have named : Char.ofNat char.val.toNat = char := Char.ofNat_toNat char
  rw [← named] at lower ⊢
  exact isHexDigit_of_asciiLower _ ascii digit small lower

theorem exists_digit_of_mem_hexDigits {count value : Nat} {char : Char}
    (member : char ∈ hexDigits count value)
    : ∃ digit < 16, char = hexDigit digit := by
  induction count generalizing value with
  | zero => cases member
  | succ count ih =>
      rcases List.mem_append.mp member with front | last
      · exact ih front
      · exact ⟨value % 16, Nat.mod_lt value (by omega), List.mem_singleton.mp last⟩

theorem isHexText_of_rendered {text : List Char} {bytes : List UInt8}
    (rendered : text.map Char.toLower = bytes.flatMap (fun byte => hexDigits 2 byte.toNat))
    : IsHexText text := by
  constructor
  · have lengths := congrArg List.length rendered
    rw [List.length_map, List.length_flatMap] at lengths
    simp only [hexDigits_length, List.map_const', List.sum_replicate_nat] at lengths
    omega
  · intro char member
    have listed : char.toLower ∈ text.map Char.toLower := List.mem_map_of_mem member
    rw [rendered] at listed
    obtain ⟨byte, -, inDigits⟩ := List.mem_flatMap.mp listed
    obtain ⟨digit, small, lower⟩ := exists_digit_of_mem_hexDigits inDigits
    exact isHexDigit_of_toLower small lower

/-- Decoding stops at the first byte that is no digit, by induction on the pairs before it. -/
theorem decodePairs_of_invalid {front rest : List UInt8} {byte : UInt8} (index : Nat)
    (even : (front ++ byte :: rest).length % 2 = 0)
    (digits : ∀ digit ∈ front, hexNibble digit ≠ none) (invalid : hexNibble byte = none)
    : decodePairs index (front ++ byte :: rest)
      = .error (.invalidHexCharacter (Char.ofNat byte.toNat) (index + front.length)) := by
  have refused (position : Nat)
      : hexValue byte position
        = .error (.invalidHexCharacter (Char.ofNat byte.toNat) position) := by
    rw [hexValue, invalid]
  induction front using List.twoStepInduction generalizing index with
  | nil =>
      cases rest with
      | nil => simp at even
      | cons second rest =>
          rw [List.nil_append, decodePairs, refused]
          rfl
  | singleton first =>
      obtain ⟨high, highRead⟩ :=
        exists_hexValue index (digits first (List.mem_singleton_self first))
      rw [List.singleton_append, decodePairs, highRead, refused]
      rfl
  | cons_cons first second front ih _ =>
      rw [List.forall_mem_cons, List.forall_mem_cons] at digits
      obtain ⟨high, highRead⟩ := exists_hexValue index digits.1
      obtain ⟨low, lowRead⟩ := exists_hexValue (index + 1) digits.2.1
      have evenRest : (front ++ byte :: rest).length % 2 = 0 := by
        simp only [List.cons_append, List.length_cons] at even
        omega
      have stopped := ih (index + 2) evenRest digits.2.2
      rw [List.cons_append, List.cons_append, decodePairs, highRead, lowRead, stopped]
      simp only [bind, Except.bind, List.length_cons]
      congr 2
      omega

/-- The decoder that is modelled is as documented. -/
theorem hexDecode_decodesHex : DecodesHex hexDecode where
  decodes text bytes rendered := by
    obtain ⟨decoded, found⟩ := exists_hexDecode_iff.mpr (isHexText_of_rendered rendered)
    have same : decoded.flatMap (fun byte => hexDigits 2 byte.toNat)
        = bytes.flatMap (fun byte => hexDigits 2 byte.toNat) :=
      (toLower_of_hexDecode found).symm.trans rendered
    have twice := congrArg hexDecode same
    rw [hexDecode_bytes, hexDecode_bytes] at twice
    rw [found, twice]
  oddLength text odd := if_pos odd
  invalid text front byte rest even split digits invalid := by
    unfold hexDecode
    dsimp only
    rw [if_neg (not_not.mpr even), split,
      decodePairs_of_invalid 0 (split ▸ even) digits invalid, Nat.zero_add]

theorem exists_first_invalid {text : List UInt8}
    (some_invalid : ¬ ∀ byte ∈ text, hexNibble byte ≠ none)
    : ∃ front byte rest,
        text = front ++ byte :: rest
        ∧ (∀ digit ∈ front, hexNibble digit ≠ none)
        ∧ hexNibble byte = none := by
  induction text with
  | nil => exact absurd (fun _ => nofun) some_invalid
  | cons first text ih =>
      by_cases invalid : hexNibble first = none
      · exact ⟨[], first, text, rfl, nofun, invalid⟩
      · have later : ¬ ∀ byte ∈ text, hexNibble byte ≠ none :=
          fun digits => some_invalid (List.forall_mem_cons.mpr ⟨invalid, digits⟩)
        obtain ⟨front, byte, rest, rfl, digits, refused⟩ := ih later
        exact ⟨first :: front, byte, rest, rfl, List.forall_mem_cons.mpr ⟨invalid, digits⟩,
          refused⟩

/-- There is no other decoder that is as documented. -/
theorem DecodesHex.eq_hexDecode {decode : List Char → Except FromHexError (List UInt8)}
    (documented : DecodesHex decode)
    : decode = hexDecode := by
  funext text
  by_cases even : (utf8Bytes text).length % 2 = 0
  · by_cases digits : ∀ byte ∈ utf8Bytes text, hexNibble byte ≠ none
    · obtain ⟨bytes, decoded⟩ : ∃ bytes, decodePairs 0 (utf8Bytes text) = .ok bytes :=
        exists_decodePairs digits
      have found : hexDecode text = .ok bytes := by
        unfold hexDecode
        dsimp only
        rw [if_neg (not_not.mpr even), decoded]
      rw [found, documented.decodes text bytes (toLower_of_hexDecode found)]
    · obtain ⟨front, byte, rest, split, digits, invalid⟩ := exists_first_invalid digits
      rw [documented.invalid text front byte rest even split digits invalid,
        hexDecode_decodesHex.invalid text front byte rest even split digits invalid]
  · rw [documented.oddLength text even, hexDecode_decodesHex.oddLength text even]

/-- What the crate documents of `encode`: lower-case digits, which decode to the bytes. -/
structure EncodesHex (encode : List UInt8 → List Char) : Prop where
  lowerCase : ∀ bytes, (encode bytes).map Char.toLower = encode bytes
  decodes : ∀ bytes, hexDecode (encode bytes) = .ok bytes

/-- There is no other encoder that is as documented. -/
theorem EncodesHex.eq_hexDigits {encode : List UInt8 → List Char} (documented : EncodesHex encode)
    : encode = fun bytes => bytes.flatMap (fun byte => hexDigits 2 byte.toNat) := by
  funext bytes
  rw [← documented.lowerCase bytes]
  exact toLower_of_hexDecode (documented.decodes bytes)

end ChiaQuery
