import TxDelivery.Chain.Transaction

/-!
# Reading amounts

An amount of wei is written in decimal, or in hexadecimal, octal or binary behind its marker, with
underscores wherever they help. No digits at all are zero.
-/

namespace TxDelivery

namespace Amount

/-- The base a text is written in, and its digits. -/
def base : List Char → Nat × List Char
  | '0' :: c :: rest =>
    if c = 'x' ∨ c = 'X' then (16, rest)
    else if c = 'o' ∨ c = 'O' then (8, rest)
    else if c = 'b' ∨ c = 'B' then (2, rest)
    else (10, '0' :: c :: rest)
  | cs => (10, cs)

/-- **The amount a text stands for**; `none` for other characters and for too large a number. -/
def ofText? (text : List Char) : Option Amount :=
  let (b, digits) := base text
  match Numeral.ofDigits? b (digits.filter (· != '_')) with
  | some n => if n < Nat.pow 2 256 then some (BitVec.ofNat 256 n) else none
  | none => none

end Amount

end TxDelivery
