import TxDelivery.Delivery.Error

/-!
# Gas price escalation

`TxDelivery.bumpPrice` raises a price by a percentage, rounding up and stopping at the largest
128-bit word; `TxDelivery.nextGasPrice` decides the price of a replacement from the current price,
the market and the caller's ceiling.

A node takes a replacement only if it pays enough more. This is what the percentage is for, and why
it is rounded up. It is no more than a minimum: a market that is above the raised price is paid. A
market that is not above the current price is a reason to wait, whatever the percentage, and so a
price that is high enough is never raised.

The ceiling is no price to fall back on. If the price that would have to be paid is above it the
attempt fails, and with it the delivery; a replacement at the ceiling itself is not tried instead.
-/

namespace TxDelivery

/-- The largest gas price. -/
def GasPrice.maxNat : Nat := Nat.pow 2 128 - 1

/-- **The price raised by `percent` percent**, rounded up. Both the product and the sum that rounds
up stop at the largest gas price. -/
def bumpPrice (current : GasPrice) (percent : UInt64) : GasPrice :=
  let raised := min (current.toNat * (100 + percent.toNat)) GasPrice.maxNat
  BitVec.ofNat 128 (min (raised + 99) GasPrice.maxNat / 100)

/-- **The price of a replacement.** A market at or below the current price gives no reason for one:
a broadcast that pays no more cannot help. Above it the larger of the market and the raised price is
paid, unless that exceeds the ceiling. -/
def nextGasPrice (current market : GasPrice) (percent : UInt64) (limit : Option GasPrice) :
    Except DeliveryError (Option GasPrice) :=
  if market ≤ current then return none
  else
    let bumped := bumpPrice current percent
    let price := if market < bumped then bumped else market
    match limit with
    | some limit => if limit < price then throw (.overPriceLimit limit price) else return some price
    | none => return some price

end TxDelivery
