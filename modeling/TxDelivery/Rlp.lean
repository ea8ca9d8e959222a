import TxDelivery.Bytes

/-!
# Recursive length prefixes

The wire format of transactions: nested lists of byte strings, each behind a header that tells its
length. `TxDelivery.Rlp.encode` writes an item; `TxDelivery.Rlp.decode?` reads one back and refuses
everything `encode` does not write.

Every item has one encoding only. A byte that stands for itself must not have a header, a length
that fits into the first byte must not be written behind it, and lengths have no leading zeros. The
reader checks all three, so that two different byte strings never denote the same item. This is what
makes the digest of an encoding a name for what was encoded.

A number is written as the bytes it needs, most significant first, and zero as no bytes at all
(`TxDelivery.Rlp.number`). For the reader it is a byte string like others; that the first byte is
not zero is for whoever expects a number.
-/

namespace TxDelivery

/-- A byte string or a list of items. -/
inductive Rlp where
  /-- A byte string. -/
  | string (bytes : Bytes)
  /-- A list of items. -/
  | list (items : List Rlp)
  deriving Repr, Inhabited

namespace Rlp

/-- A number as an item: its bytes without leading zeros. -/
def number (k : Nat) : Rlp := string (Bytes.minimal k)

/-- The header of a payload of `length` bytes. Payloads of up to 55 bytes have the length in the
first byte, longer ones the length of their length. -/
def header (short : Nat) (length : Nat) : Bytes :=
  if length ≤ 55 then [UInt8.ofNat (short + length)]
  else
    let size := Bytes.minimal length
    UInt8.ofNat (short + 55 + size.length) :: size

/-- The encoding of a byte string: a single byte below `0x80` stands for itself. -/
def encodeString : Bytes → Bytes
  | [b] => if b < 0x80 then [b] else [0x81, b]
  | bytes => header 0x80 bytes.length ++ bytes

mutual

/-- **The encoding of an item.** -/
def encode : Rlp → Bytes
  | .string bytes => encodeString bytes
  | .list items =>
    let payload := encodeItems items
    header 0xc0 payload.length ++ payload

/-- The encodings of items, one after another. -/
def encodeItems : List Rlp → Bytes
  | [] => []
  | item :: rest => encode item ++ encodeItems rest

end

/-- The first `length` bytes and the rest, if there are as many. -/
def split? (length : Nat) (bytes : Bytes) : Option (Bytes × Bytes) :=
  if length ≤ bytes.length then some (bytes.take length, bytes.drop length) else none

/-- The length behind a long header of `size` bytes, and the rest; lengths that a short header could
tell and lengths with leading zeros are refused. -/
def longLength? (size : Nat) (bytes : Bytes) : Option (Nat × Bytes) :=
  match split? size bytes with
  | none => none
  | some (ds, rest) =>
    if ds.head? = some 0 ∨ ds.toNat ≤ 55 then none else some (ds.toNat, rest)

mutual

/-- **An item at the start of a byte string**, and what follows it. Every nested item uses up one of
`fuel`, for which the number of bytes is always enough. -/
def read? : (fuel : Nat) → Bytes → Option (Rlp × Bytes)
  | 0, _ => none
  | _ + 1, [] => none
  | fuel + 1, b :: rest =>
    let k := b.toNat
    if k < 0x80 then some (.string [b], rest)
    else if k ≤ 0xb7 then
      match split? (k - 0x80) rest with
      | none => none
      | some ([c], rest) => if c < 0x80 then none else some (.string [c], rest)
      | some (bytes, rest) => some (.string bytes, rest)
    else if k ≤ 0xbf then
      match longLength? (k - 0xb7) rest with
      | none => none
      | some (length, rest) => (split? length rest).map fun (bytes, rest) => (.string bytes, rest)
    else if k ≤ 0xf7 then readList? fuel (k - 0xc0) rest
    else
      match longLength? (k - 0xf7) rest with
      | none => none
      | some (length, rest) => readList? fuel length rest

/-- A list whose items fill the next `length` bytes. -/
def readList? : (fuel : Nat) → (length : Nat) → Bytes → Option (Rlp × Bytes)
  | 0, _, _ => none
  | fuel + 1, length, bytes =>
    match split? length bytes with
    | none => none
    | some (payload, rest) => (readItems? fuel payload).map fun items => (.list items, rest)

/-- Items up to the end of a byte string. -/
def readItems? : (fuel : Nat) → Bytes → Option (List Rlp)
  | _, [] => some []
  | 0, _ :: _ => none
  | fuel + 1, bytes =>
    match read? fuel bytes with
    | none => none
    | some (item, rest) => (readItems? fuel rest).map (item :: ·)

end

/-- **Reading a byte string that holds exactly one item.** -/
def decode? (bytes : Bytes) : Option Rlp :=
  match read? (4 * bytes.length + 4) bytes with
  | some (item, []) => some item
  | _ => none

end Rlp

end TxDelivery
