import TxDelivery.Numeral

/-!
# Lengths of time

A length of time in nanoseconds and its text: the largest of seconds, milliseconds, microseconds and
nanoseconds that is not below one, with as many decimal places as it needs
(`TxDelivery.Duration.text`).
-/

namespace TxDelivery

/-- A length of time. -/
structure Duration where
  /-- The whole length in nanoseconds. -/
  nanos : Nat
  deriving DecidableEq, Repr, Inhabited

namespace Duration

/-- A whole number of seconds. -/
def ofSeconds (s : Nat) : Duration := ⟨s * 1000000000⟩

/-- The digits after the decimal point: `places` digits of `part`, without zeros at the end. -/
def fraction (places part : Nat) : List Char :=
  ((Numeral.padded 10 places part).reverse.dropWhile (· = '0')).reverse

/-- A number of units of `10 ^ places` nanoseconds, then the unit's name. -/
def inUnit (places : Nat) (unit : String) (nanos : Nat) : String :=
  let whole := Numeral.decimal (nanos / Nat.pow 10 places)
  let part := nanos % Nat.pow 10 places
  if part = 0 then whole ++ unit
  else whole ++ "." ++ String.ofList (fraction places part) ++ unit

/-- **The text of a length of time.** -/
def text (d : Duration) : String :=
  if Nat.pow 10 9 ≤ d.nanos then inUnit 9 "s" d.nanos
  else if Nat.pow 10 6 ≤ d.nanos then inUnit 6 "ms" d.nanos
  else if Nat.pow 10 3 ≤ d.nanos then inUnit 3 "µs" d.nanos
  else inUnit 0 "ns" d.nanos

end Duration

end TxDelivery
