import TxDelivery.Numeral

/-!
# Byte strings

Byte strings as lists, their big-endian reading as numbers, and their hexadecimal text.

* `TxDelivery.Bytes.ofNat` writes a number in a fixed number of bytes, `TxDelivery.Bytes.minimal` in
  as few as it needs, and `TxDelivery.Bytes.toNat` reads either back.
* `TxDelivery.Hex.encode` writes `0x` and two lower-case digits per byte.
* `TxDelivery.Hex.decode` reads hexadecimal text with or without one `0x`, and says what is wrong
  with text it refuses: `TxDelivery.Hex.Error`.
-/

namespace TxDelivery

/-- A string of bytes. -/
abbrev Bytes := List UInt8

namespace Bytes

/-- The number whose big-endian bytes these are. -/
def toNat (bs : Bytes) : Nat := bs.foldl (fun n b => n * 256 + b.toNat) 0

/-- The `width` low bytes of `n`, most significant first. -/
def ofNat : (width : Nat) → (n : Nat) → Bytes
  | 0, _ => []
  | width + 1, n => ofNat width (n / 256) ++ [UInt8.ofNat n]

/-- The bytes of `n` without leading zeros; zero has none. -/
def minimal (n : Nat) : Bytes :=
  if _h : n = 0 then [] else minimal (n / 256) ++ [UInt8.ofNat n]
termination_by n
decreasing_by exact Nat.div_lt_self (by omega) (by omega)

/-- The bytes of a word of `8 * k` bits, most significant first. -/
def ofWord {w : Nat} (x : BitVec w) : Bytes := ofNat (w / 8) x.toNat

/-- The bytes of a text in UTF-8. -/
def ofText (s : String) : Bytes := s.toUTF8.toList

end Bytes

namespace Hex

/-- Why a text is no hexadecimal string of the wanted length. -/
inductive Error where
  /-- An odd number of digits. -/
  | oddLength
  /-- An even number of digits, but not the wanted one. -/
  | wrongLength
  /-- A byte of the text, at this place after the marker, that is no digit. -/
  | badDigit (byte : UInt8) (position : Nat)
  deriving DecidableEq, Repr

/-- The wording of a refusal. The byte at fault is shown as the character of that code point. -/
def Error.message : Error → String
  | .oddLength => "odd number of digits"
  | .wrongLength => "invalid string length"
  | .badDigit byte position =>
    "invalid character '" ++ String.singleton (Char.ofNat byte.toNat) ++ "' at position "
      ++ Numeral.decimal position

/-- The text without the marker `0x` or `0X` it may start with. -/
def dropMarker : List Char → List Char
  | '0' :: 'x' :: rest => rest
  | '0' :: 'X' :: rest => rest
  | text => text

/-- The value of a byte that is a hexadecimal digit. -/
def nibble? (b : UInt8) : Option Nat :=
  Numeral.digitOf? 16 (Char.ofNat b.toNat)

/-- The bytes that pairs of digits stand for, the first digit being at place `position`. -/
def pairs : Bytes → (position : Nat) → Except Error Bytes
  | hi :: lo :: rest, position =>
    match nibble? hi, nibble? lo with
    | some h, some l => return UInt8.ofNat (h * 16 + l) :: (← pairs rest (position + 2))
    | none, _ => throw (.badDigit hi position)
    | some _, none => throw (.badDigit lo (position + 1))
  | [_], _ => throw .oddLength
  | [], _ => return []

/-- **Reading hexadecimal text** of any even length, with or without one marker. -/
def decode (text : List Char) : Except Error Bytes :=
  let digits := Bytes.ofText (String.ofList (dropMarker text))
  if digits.length % 2 = 1 then throw .oddLength else pairs digits 0

/-- Reading hexadecimal text of exactly `width` bytes. The length is looked at before the digits. -/
def decodeExact (width : Nat) (text : List Char) : Except Error Bytes :=
  let digits := Bytes.ofText (String.ofList (dropMarker text))
  if digits.length % 2 = 1 then throw .oddLength
  else if digits.length ≠ 2 * width then throw .wrongLength
  else pairs digits 0

/-- A word of `8 * k` bits from hexadecimal text of exactly its width. -/
def word? (w : Nat) (text : List Char) : Option (BitVec w) :=
  (decodeExact (w / 8) text).toOption.map fun bs => BitVec.ofNat w bs.toNat

/-- The two digits of a byte, high half first. -/
def byteDigits (b : UInt8) : List Char :=
  [Numeral.digitChar (b.toNat / 16), Numeral.digitChar (b.toNat % 16)]

/-- The digits of a byte string. -/
def digits (bs : Bytes) : List Char := bs.flatMap byteDigits

/-- **Writing a byte string**: `0x` and two lower-case digits per byte. -/
def encode (bs : Bytes) : String := "0x" ++ String.ofList (digits bs)

/-- Writing a word of `8 * k` bits with all its bytes. -/
def encodeWord {w : Nat} (x : BitVec w) : String := encode (Bytes.ofWord x)

end Hex

end TxDelivery
