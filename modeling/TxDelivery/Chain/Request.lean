import TxDelivery.Chain.TransactionText

/-!
# Transactions as nodes want them

The call object of a node's interface: names in camel case, numbers as quantities, and a recipient
that is `null` when a contract is created. `TxDelivery.Transaction.request` tells everything,
`TxDelivery.Transaction.callRequest` leaves out what would hinder an estimate: the gas limit would
cap it, and nonce and chain are not settled yet.
-/

namespace TxDelivery

namespace Transaction

/-- The written form of a quantity. -/
def quantityJson (n : Nat) : Json := .string (Numeral.quantity n)

/-- The complete request for a transaction. -/
def request (tx : Transaction) : Json := .object
  [("from", addressJson tx.sender), ("to", .ofOption addressJson tx.recipient),
   ("gasPrice", quantityJson tx.gasPrice.toNat), ("gas", quantityJson tx.gasLimit.toNat),
   ("value", quantityJson tx.value.toNat), ("input", .string (Hex.encode tx.input)),
   ("nonce", quantityJson tx.nonce.toNat), ("chainId", quantityJson tx.chainId.toNat)]

/-- The request whose gas a node is asked to estimate. -/
def callRequest (tx : Transaction) : Json := .object
  [("from", addressJson tx.sender), ("to", .ofOption addressJson tx.recipient),
   ("gasPrice", quantityJson tx.gasPrice.toNat), ("value", quantityJson tx.value.toNat),
   ("input", .string (Hex.encode tx.input))]

end Transaction

end TxDelivery
