import TxDelivery.Numeral

/-!
# Socket addresses

The texts that name an address and a port: four decimal numbers and a port, or a bracketed address
of eight hexadecimal groups, an optional zone number and a port. `TxDelivery.SocketAddress.parse?`
reads them. Its parts read a text from its start and return the rest.

No name is looked up, and an address needs its port. Numbers have as many digits as their kind
allows and no leading zeros in addresses of four bytes, where they might be taken for another base.
In the long form one run of zeros may be left out, and the last two groups may be written as a short
address (`TxDelivery.SocketAddress.groups`). Whether a text is an address is all that a
configuration asks; what it denotes is kept for those who show it.
-/

namespace TxDelivery

/-- An address with a port. -/
inductive SocketAddress where
  /-- An address of four bytes. -/
  | v4 (octets : List Nat) (port : Nat)
  /-- An address of eight groups, with its zone. -/
  | v6 (groups : List Nat) (zone port : Nat)
  deriving DecidableEq, Repr

namespace SocketAddress

/-- Whether a character is a digit of a base. -/
def isDigitOf (base : Nat) (c : Char) : Bool := (Numeral.digitOf? base c).isSome

/-- **A number at the start of a text**: all the digits there are, at most `width` of them and of a
value up to `top`. Without `zeros` only zero itself may start with a zero. -/
def number? (base : Nat) (width : Option Nat) (zeros : Bool) (top : Nat) (cs : List Char) :
    Option (Nat × List Char) :=
  let ds := cs.takeWhile (isDigitOf base)
  let tooLong := match width with
    | some w => w < ds.length
    | none => false
  if ds.isEmpty || tooLong || (!zeros && ds.head? = some '0' && 1 < ds.length) then none
  else
    match Numeral.ofDigits? base ds with
    | some n => if n ≤ top then some (n, cs.dropWhile (isDigitOf base)) else none
    | none => none

/-- One of the four numbers of a short address. -/
def octet? (cs : List Char) : Option (Nat × List Char) := number? 10 (some 3) false 255 cs

/-- A short address. -/
def octets? (cs : List Char) : Option (List Nat × List Char) := do
  let (a, cs) ← octet? cs
  let (b, cs) ← octet? (← ['.'].isPrefixOf? cs)
  let (c, cs) ← octet? (← ['.'].isPrefixOf? cs)
  let (d, cs) ← octet? (← ['.'].isPrefixOf? cs)
  return ([a, b, c, d], cs)

/-- The text behind a separator, of which the first group has none. -/
def separated? (first : Bool) (cs : List Char) : Option (List Char) :=
  if first then some cs else [':'].isPrefixOf? cs

/-- **Up to `limit` groups of a long address**, and whether the last two were written as a short
address, which needs room for both. -/
def groups (first : Bool) : (limit : Nat) → List Char → List Nat × Bool × List Char
  | 0, cs => ([], false, cs)
  | limit + 1, cs =>
    let short := if limit = 0 then none else (separated? first cs).bind octets?
    match short with
    | some (os, rest) =>
      ([os.getD 0 0 * 256 + os.getD 1 0, os.getD 2 0 * 256 + os.getD 3 0], true, rest)
    | none =>
      match (separated? first cs).bind (number? 16 (some 4) true 0xffff) with
      | none => ([], false, cs)
      | some (g, rest) =>
        let (gs, short, rest) := groups false limit rest
        (g :: gs, short, rest)

/-- A long address: eight groups, or fewer around one `::` that stands for the missing zeros. -/
def longAddress? (cs : List Char) : Option (List Nat × List Char) :=
  let (head, short, rest) := groups true 8 cs
  if head.length = 8 then some (head, rest)
  else if short then none
  else do
    let rest ← [':'].isPrefixOf? (← [':'].isPrefixOf? rest)
    let (tail, _, rest) := groups true (7 - head.length) rest
    return (head ++ List.replicate (8 - head.length - tail.length) 0 ++ tail, rest)

/-- A colon and a port. -/
def port? (cs : List Char) : Option (Nat × List Char) := do
  number? 10 none true 65535 (← [':'].isPrefixOf? cs)

/-- A zone behind its mark; the zone of an address without one is zero. -/
def zone (cs : List Char) : Nat × List Char :=
  match (['%'].isPrefixOf? cs).bind (number? 10 none true (Nat.pow 2 32 - 1)) with
  | some r => r
  | none => (0, cs)

/-- A short address and its port, up to the end of the text. -/
def parseShort? (cs : List Char) : Option SocketAddress := do
  let (os, cs) ← octets? cs
  let (p, cs) ← port? cs
  if cs.isEmpty then return .v4 os p else none

/-- A bracketed long address and its port, up to the end of the text. -/
def parseLong? (cs : List Char) : Option SocketAddress := do
  let (gs, cs) ← longAddress? (← ['['].isPrefixOf? cs)
  let (z, cs) := zone cs
  let (p, cs) ← port? (← [']'].isPrefixOf? cs)
  if cs.isEmpty then return .v6 gs z p else none

/-- **Reading a socket address.** -/
def parse? (text : String) : Option SocketAddress :=
  (parseShort? text.toList).or (parseLong? text.toList)

end SocketAddress

end TxDelivery
