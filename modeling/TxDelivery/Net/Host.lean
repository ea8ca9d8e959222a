import TxDelivery.Bytes
import TxDelivery.Net.Punycode
import TxDelivery.Net.SocketAddress

/-!
# Hosts in URLs

A host is a domain name, an address of four or of sixteen bytes, or, in URLs of unknown schemes,
any text without separators (`TxDelivery.Host`). A domain may be percent-encoded and may hold any
letters; **one that ends in a number has to be a short address** (`TxDelivery.Host.ofDomain`),
written with up to four numbers in decimal, octal or hexadecimal.

Characters beyond ASCII are judged without the tables of the Unicode standard: their full-width
forms and dots are folded, invisible ones are dropped, and all others are accepted as letters.
-/

namespace TxDelivery

/-- Why a text is no URL. -/
inductive UrlError where
  /-- There is no scheme. -/
  | noScheme
  /-- There is no host where one is needed. -/
  | emptyHost
  /-- The host is no domain. -/
  | noDomain
  /-- The host of an unknown scheme holds a separator. -/
  | hostCharacter
  /-- The host ends in a number and is no short address. -/
  | shortAddress
  /-- The host is bracketed and no long address. -/
  | longAddress
  /-- The port is no number below 65536. -/
  | port
  deriving DecidableEq, Repr

/-- The wording of an error. -/
def UrlError.message : UrlError → String
  | noScheme => "relative URL without a base"
  | emptyHost => "empty host"
  | noDomain => "invalid international domain name"
  | hostCharacter => "invalid domain character"
  | shortAddress => "invalid IPv4 address"
  | longAddress => "invalid IPv6 address"
  | port => "invalid port number"

/-- Where a URL points to. -/
inductive Host where
  /-- A domain name, or any other text for unknown schemes. -/
  | name (text : String)
  /-- An address of four bytes, as a number. -/
  | short (address : Nat)
  /-- An address of eight groups. -/
  | long (groups : List Nat)
  deriving DecidableEq, Repr

namespace Host

/-- A bracketed long address. -/
def ofBrackets (cs : List Char) : Except UrlError Host :=
  if cs.getLast? = some ']' then
    match SocketAddress.longAddress? (cs.dropLast.drop 1) with
    | some (groups, []) => return .long groups
    | _ => throw .longAddress
  else throw .longAddress

/-! ### Domains -/

/-- The byte that three bytes encode, if they are a percent sign and two digits. -/
def encodedByte? (b h l : UInt8) : Option UInt8 := do
  if b = 0x25 then return UInt8.ofNat ((← Hex.nibble? h) * 16 + (← Hex.nibble? l)) else none

/-- Bytes with percent-encoded ones decoded. A percent sign without two digits stands for itself. -/
def percentDecode : Bytes → Bytes
  | b :: h :: l :: rest =>
    match encodedByte? b h l with
    | some byte => byte :: percentDecode rest
    | none => b :: percentDecode (h :: l :: rest)
  | bytes => bytes

/-- The ASCII character behind a full-width one. -/
def foldWidth (c : Char) : Char :=
  if 0xFF01 ≤ c.toNat ∧ c.toNat ≤ 0xFF5E then Char.ofNat (c.toNat - 0xFF01 + 0x21)
  else if c.toNat = 0x3002 ∨ c.toNat = 0xFF61 then '.'
  else if c.toNat = 0xA0 ∨ c.toNat = 0x3000 then ' '
  else c

/-- The characters that are dropped from domains: hyphens and spaces without width, joiners of
words, and selectors of variants. -/
def isDropped (c : Char) : Bool :=
  [0xAD, 0x200B, 0x2060, 0x2064, 0xFEFF].contains c.toNat || (0xFE00 ≤ c.toNat && c.toNat ≤ 0xFE0F)

/-- The characters that no domain holds. -/
def isForbidden (c : Char) : Bool :=
  c.toNat ≤ 0x20 || (0x7F ≤ c.toNat && c.toNat ≤ 0x9F) || "%#/:<>?@[\\]^|".toList.contains c
  || c.toNat = 0xFFFD

/-- A domain in its usual form, or `none` if it holds a forbidden character or a label that encodes
nothing. -/
def domain? (cs : List Char) : Option (List Char) :=
  let cs := ((cs.map foldWidth).filter (!isDropped ·)).map Char.toLower
  if cs.any isForbidden || !(cs.splitOn '.').all Punycode.isLabel then none else some cs

/-- A number of a short address: hexadecimal behind `0x`, octal behind `0`, decimal otherwise. A
marker alone is zero. -/
def part? (cs : List Char) : Option Nat :=
  match cs with
  | [] => none
  | '0' :: 'x' :: rest | '0' :: 'X' :: rest => Numeral.ofDigits? 16 rest
  | ['0'] => some 0
  | '0' :: rest => Numeral.ofDigits? 8 rest
  | cs => Numeral.ofDigits? 10 cs

/-- The parts of a domain between its dots; a dot at the end has nothing behind it. -/
def parts (cs : List Char) : List (List Char) :=
  let all := cs.splitOn '.'
  if all.getLast? = some [] then all.dropLast else all

/-- Whether the last part of a domain is a number. -/
def endsInNumber (cs : List Char) : Bool :=
  match (parts cs).getLast? with
  | none => false
  | some last => !last.isEmpty && (last.all Char.isDigit || (part? last).isSome)

/-- **The short address a domain stands for.** All numbers but the last are bytes; the last one
fills the bytes that are left. -/
def shortAddress? (cs : List Char) : Option Nat := do
  let numbers ← (parts cs).mapM part?
  let last ← numbers.getLast?
  let bytes := numbers.dropLast
  let room := Nat.pow 256 (4 - bytes.length)
  if numbers.length ≤ 4 ∧ last < room ∧ bytes.all (· < 256) then
    return bytes.foldl (fun n b => n * 256 + b) 0 * room + last
  else none

/-- **The host a domain stands for.** -/
def ofDomain (cs : List Char) : Except UrlError Host :=
  let bytes := percentDecode (Bytes.ofText (String.ofList cs))
  match (String.fromUTF8? ⟨bytes.toArray⟩).bind fun s => domain? s.toList with
  | none => throw .noDomain
  | some [] => throw .emptyHost
  | some cs =>
    if endsInNumber cs then
      match shortAddress? cs with
      | some n => return .short n
      | none => throw .shortAddress
    else return .name (String.ofList cs)

/-! ### Hosts -/

/-- The host of a scheme whose hosts are domains. -/
def parse (cs : List Char) : Except UrlError Host :=
  if cs.head? = some '[' then ofBrackets cs else ofDomain cs

/-- The characters that end or structure a URL, which no host of an unknown scheme holds. -/
def isSeparator (c : Char) : Bool := "\x00\t\n\x0d #/:<>?@[\\]^|".toList.contains c

/-- The host of a scheme about which nothing is known. -/
def parseOpaque (cs : List Char) : Except UrlError Host :=
  if cs.head? = some '[' then ofBrackets cs
  else if cs.any isSeparator then throw .hostCharacter
  else return .name (String.ofList cs)

end Host

end TxDelivery
