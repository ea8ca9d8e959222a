/-!
# Natural numbers as binary64

The nearest double-precision number to a natural number, ties going to the even significand, as the
sixty-four bits of its encoding. `TxDelivery.Binary64.ofNat` works in exact arithmetic: it keeps the
fifty-three leading bits and rounds by what is cut off.
-/

namespace TxDelivery

namespace Binary64

/-- `n / 2 ^ k` rounded to the nearest integer, a half going to the even neighbour. -/
def shiftRounded (n k : Nat) : Nat :=
  let q := n >>> k
  let r := n % Nat.pow 2 k
  if 2 * r > Nat.pow 2 k ∨ (2 * r = Nat.pow 2 k ∧ q % 2 = 1) then q + 1 else q

/-- **The encoding of the double nearest to `n`.** With `e` the place of the leading bit, the
significand has fifty-three bits; adding it to the exponent field one lower lets a carry out of the
rounding raise the exponent. Numbers from `2 ^ 1024` on are infinite. -/
def ofNat (n : Nat) : UInt64 :=
  if n = 0 then 0
  else
    let e := Nat.log2 n
    let significand := if e ≤ 52 then n <<< (52 - e) else shiftRounded n (e - 52)
    let bits := ((e + 1022) <<< 52) + significand
    if bits < 0x7ff <<< 52 then UInt64.ofNat bits else UInt64.ofNat (0x7ff <<< 52)

end Binary64

end TxDelivery
