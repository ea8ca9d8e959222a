import TxDelivery.Delivery.Outcome
import TxDelivery.LogEvent

/-!
# What a service asks and tells

The parties of a service run side by side and meet the world at a few points: they ask the chain and
the signer (`TxDelivery.Call`), get replies (`TxDelivery.Reply`), publish outcomes and write the
log. The list of what they ask and tell, in order, is what can be observed of a run
(`TxDelivery.Observation`).

A call is what is asked and not by whom; two parties may ask the same. A reply is what is answered
and not to what. Which reply goes with which call is not in their types, as a service has one
function for each kind of party that takes replies, and ignores those it does not wait for.

Broadcasts are calls. That a transaction left for the chain is observed when it is asked for, and
whether the node accepted it when it is answered; in between nobody can tell.
-/

namespace TxDelivery

/-- Identifies an operation a caller began. -/
abbrev OperationId := Nat

/-- Identifies a delivery under supervision. -/
abbrev DeliveryId := Nat

/-- Identifies a bookkeeper of the queue. -/
abbrev BookkeeperId := Nat

/-- Those who run side by side. -/
inductive Party where
  /-- An operation a caller waits for. -/
  | operation (i : OperationId)
  /-- The supervisor of a delivery. -/
  | supervisor (d : DeliveryId)
  /-- The listener of a delivery. -/
  | listener (d : DeliveryId)
  /-- A bookkeeper of the queue. -/
  | bookkeeper (b : BookkeeperId)
  deriving DecidableEq, Repr

/-- Questions to the chain and to the signer. -/
inductive Call where
  /-- The market price of gas. -/
  | gasPrice
  /-- The gas a transaction needs. -/
  | estimateGas (tx : Transaction)
  /-- The next nonce of an account. -/
  | nonce (account : Address)
  /-- A signature. -/
  | sign (tx : Transaction)
  /-- The broadcast of a signed transaction. -/
  | broadcast (tx : SignedTx)
  /-- The receipt of a transaction. -/
  | receipt (hash : Hash)
  /-- The height of the chain. -/
  | head
  deriving DecidableEq, Repr

/-- Replies to calls. -/
inductive Reply where
  /-- A market price. -/
  | price (p : GasPrice)
  /-- An amount of gas. -/
  | gas (g : UInt64)
  /-- A nonce. -/
  | nonce (n : Nonce)
  /-- A signed transaction. -/
  | signed (tx : SignedTx)
  /-- The node accepted a transaction and calls it so. -/
  | accepted (hash : Hash)
  /-- A receipt, if the transaction was mined. -/
  | receipt (r : Option Receipt)
  /-- A height. -/
  | head (height : UInt64)
  /-- The call failed. -/
  | failed (error : ChainError)
  deriving DecidableEq, Repr

/-- What can be seen of a service from outside. -/
inductive Observation where
  /-- A party asks. -/
  | called (who : Party) (call : Call)
  /-- The outcome of a delivery is published. -/
  | published (delivery : DeliveryId) (outcome : Outcome)
  /-- An event is logged. -/
  | logged (event : LogEvent)
  deriving DecidableEq, Repr

end TxDelivery
