import TxDelivery.Chain.TransactionText

/-!
# Outcomes of deliveries

What a delivery publishes and returns when it ends, and the summary of it shown to operators
(`TxDelivery.Outcome.report`).

An outcome is one of two events, each with a feed of its own. A confirmation names the variant that
was mined, which need not be the last, and carries the label of the caller; a failure names the last
variant that the node accepted and says why it was given up. With the transaction in it, an event is
all that a bookkeeper needs to find the key.
-/

namespace TxDelivery

/-- What a caller asks of a delivery besides the transaction. -/
structure DeliveryOptions where
  /-- Whether gas is estimated anew at every escalation. -/
  recalcGas : Bool := false
  /-- A label shown when the transaction is confirmed. -/
  info : String := ""
  /-- The highest price escalation may reach; zero or nothing is no limit. -/
  priceLimit : Option GasPrice := none
  deriving DecidableEq, Repr, Inhabited

/-- The ceiling of the price, zero meaning that there is none. -/
def DeliveryOptions.ceiling (o : DeliveryOptions) : Option GasPrice := o.priceLimit.filter (· != 0)

/-- Published when a transaction is confirmed. -/
structure ConfirmEvent where
  /-- The variant that was mined. -/
  tx : SignedTx
  /-- The caller's label. -/
  info : String
  deriving DecidableEq, Repr, Inhabited

/-- Published when a transaction is given up. -/
structure ErrorEvent where
  /-- The last variant the node accepted. -/
  tx : SignedTx
  /-- Why it is given up. -/
  error : DeliveryError
  deriving DecidableEq, Repr, Inhabited

/-- How a delivery ended. -/
inductive Outcome where
  /-- A variant was mined deep enough. -/
  | confirmed (event : ConfirmEvent)
  /-- The delivery was given up. -/
  | failed (event : ErrorEvent)
  deriving DecidableEq, Repr, Inhabited

namespace Outcome

/-- Whether the transaction was confirmed. -/
def isConfirmed : Outcome → Bool
  | confirmed _ => true
  | failed _ => false

/-- **The summary of an outcome.** The price is a text, so that no reader of numbers rounds it; the
label is left out when empty. -/
def report : Outcome → Json
  | confirmed e => .object <|
    [("status", .string "confirmed"), ("tx_hash", .string (Hex.encodeWord e.tx.hash)),
     ("nonce", .nat e.tx.tx.nonce.toNat),
     ("gas_price", .string (Numeral.decimal e.tx.tx.gasPrice.toNat))]
    ++ if e.info.isEmpty then [] else [("info", .string e.info)]
  | failed e => .object
    [("status", .string "failed"), ("tx_hash", .string (Hex.encodeWord e.tx.hash)),
     ("nonce", .nat e.tx.tx.nonce.toNat),
     ("gas_price", .string (Numeral.decimal e.tx.tx.gasPrice.toNat)),
     ("error", .string e.error.message)]

end Outcome

/-- What the queue knows of a key. -/
inductive TxStatus where
  /-- Nothing; never stored. -/
  | notFound
  /-- A delivery for it is under way. -/
  | pending
  /-- Its transaction is confirmed. -/
  | finished
  /-- Its transaction was given up; sending it again tries again. -/
  | error
  deriving DecidableEq, Repr

/-- A key reads as not found until something is known of it. -/
instance : Inhabited TxStatus := ⟨.notFound⟩

/-- The name of a status. -/
def TxStatus.name : TxStatus → String
  | notFound => "NotFound"
  | pending => "Pending"
  | finished => "Finished"
  | error => "Error"

end TxDelivery
