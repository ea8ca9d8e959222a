import TxDelivery.Chain.Transaction

/-!
# Confirmation of broadcast variants

A transaction is confirmed when it succeeded and enough blocks were built on top of it
(`TxDelivery.Receipt.isConfirmed`). A delivery watches its two most recent variants, the newest
replacement and the one it superseded, which a block producer may have picked up already
(`TxDelivery.RecentTxs`).

The height of the chain counts from the height of the receipt, and the sum of that height and the
depth stops at the largest one there can be. With a depth that is absurdly large a transaction is
confirmed when the chain has come to its end, and not right away, as it would be if the sum started
again from zero.

The two places are filled in turn, and looked at in their own order. So the newer variant is looked
at first at one time and last at another; which of two final variants is found does not depend on
their age.
-/

namespace TxDelivery

/-- **Whether a receipt is final**: the execution succeeded, and the head is at least `depth` above
the receipt's block, the sum stopping at the largest height. -/
def Receipt.isConfirmed (receipt : Receipt) (depth head : UInt64) : Bool :=
  receipt.succeeded && min (receipt.block.toNat + depth.toNat) (UInt64.size - 1) ≤ head.toNat

/-- The last two variants broadcast. Variants fill the two places in turn, so that a new one takes
the place of the older. -/
structure RecentTxs where
  /-- The variants pushed at even turns. -/
  even : Option SignedTx
  /-- The variants pushed at odd turns. -/
  odd : Option SignedTx
  /-- How many variants were pushed. -/
  pushed : Nat
  deriving DecidableEq, Repr

namespace RecentTxs

/-- No variants yet. -/
def empty : RecentTxs := ⟨none, none, 0⟩

instance : Inhabited RecentTxs := ⟨empty⟩

/-- Remembers a variant in place of the one before the last. -/
def push (r : RecentTxs) (tx : SignedTx) : RecentTxs :=
  if r.pushed % 2 = 0 then { r with even := some tx, pushed := r.pushed + 1 }
  else { r with odd := some tx, pushed := r.pushed + 1 }

/-- The variants watched, place by place. -/
def toList (r : RecentTxs) : List SignedTx := r.even.toList ++ r.odd.toList

end RecentTxs

end TxDelivery
