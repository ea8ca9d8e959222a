/-!
# Positional numerals

Natural numbers written in a base between two and thirty-six, most significant digit first, and read
back. The two directions are `TxDelivery.Numeral.digits` and `TxDelivery.Numeral.ofDigits?`;
`TxDelivery.Numeral.digitValue?` is the value of one digit, letters counting from ten in either
case.

Everything that is a number in a text is read and written with these two: decimal and hexadecimal
numbers, code points, groups of addresses, quantities of a node. A number is written without leading
zeros and with small letters; it is read with as many zeros as there are. Those who want fewer say
so themselves.
-/

namespace TxDelivery

namespace Numeral

/-- The lower-case digit of value `d`, for `d` below thirty-six. -/
def digitChar (d : Nat) : Char :=
  if d < 10 then Char.ofNat ('0'.toNat + d) else Char.ofNat ('a'.toNat + (d - 10))

/-- The value of a digit: `0` to `9`, then the letters in either case from ten on. -/
def digitValue? (c : Char) : Option Nat :=
  if '0' ≤ c ∧ c ≤ '9' then some (c.toNat - '0'.toNat)
  else if 'a' ≤ c ∧ c ≤ 'z' then some (c.toNat - 'a'.toNat + 10)
  else if 'A' ≤ c ∧ c ≤ 'Z' then some (c.toNat - 'A'.toNat + 10)
  else none

/-- The value of a digit of base `base`. -/
def digitOf? (base : Nat) (c : Char) : Option Nat :=
  (digitValue? c).filter (· < base)

/-- **The numeral of `n`** in base `base`: at least one digit, and no leading zero but in zero
itself. A base below two has one digit per number, so that the recursion ends. -/
def digits (base n : Nat) : List Char :=
  if _h : n < base ∨ base < 2 then [digitChar n]
  else digits base (n / base) ++ [digitChar (n % base)]
termination_by n
decreasing_by exact Nat.div_lt_self (by omega) (by omega)

/-- The value of the digits read so far followed by one more. -/
def push (base : Nat) (acc : Option Nat) (c : Char) : Option Nat := do
  let n ← acc
  let d ← digitOf? base c
  return n * base + d

/-- **The number a text of digits stands for**; `none` when a character is no digit of the base.
The empty text reads as zero. -/
def ofDigits? (base : Nat) (cs : List Char) : Option Nat :=
  cs.foldl (push base) (some 0)

/-- The decimal numeral of `n`. -/
def decimal (n : Nat) : String := String.ofList (digits 10 n)

/-- The hexadecimal numeral of `n`, without a marker. -/
def hexadecimal (n : Nat) : String := String.ofList (digits 16 n)

/-- A **quantity** as nodes write it: `0x` and the hexadecimal numeral without leading zeros. -/
def quantity (n : Nat) : String := "0x" ++ hexadecimal n

/-- A nonempty text of decimal digits, read as a number. -/
def ofDecimal? (cs : List Char) : Option Nat :=
  if cs.isEmpty then none else ofDigits? 10 cs

/-- The numeral of `n` in base `base`, filled up with zeros on the left to `width` digits. -/
def padded (base width n : Nat) : List Char :=
  let ds := digits base n
  List.replicate (width - ds.length) '0' ++ ds

end Numeral

end TxDelivery
