import TxDelivery.Delivery.Pricing
import TxDelivery.Service.Call

/-!
# Escalations

An escalation is one attempt to replace a broadcast variant by one that pays more. It reads the
market price, decides the new price (`TxDelivery.nextGasPrice`), has the gas estimated anew if the
caller wanted that, and has the replacement signed. **The variant it starts from stays as it is**:
every attempt either ends with a signed replacement, or finds that none is needed, or fails
(`TxDelivery.Escalation.advance?`).

An attempt can be made by the supervisor of a delivery, at a tick, and by a caller who asks for one
and does not want it broadcast. What they do with the result differs, and an attempt does not know.
It is told the variant, what the caller of the delivery asked for, and the percentage, and says what
it asks next.

The new price replaces the old one in the transaction, and nothing else in it changes, the gas limit
apart when it was estimated anew. The estimate is for the transaction as it was broadcast, with its
price from before. The nonce stays, which is what makes the result a replacement.
-/

namespace TxDelivery

/-- How far an escalation has come. -/
inductive Escalation.Stage where
  /-- The market price is asked for. -/
  | pricing
  /-- Gas is estimated, the new price being known. -/
  | estimating (price : GasPrice)
  /-- The replacement is signed. -/
  | signing (tx : Transaction)
  deriving DecidableEq, Repr

/-- One attempt to replace a variant. -/
structure Escalation where
  /-- The variant to replace. -/
  base : SignedTx
  /-- What the caller asked for. -/
  options : DeliveryOptions
  /-- How far the attempt has come. -/
  stage : Escalation.Stage
  deriving DecidableEq, Repr

namespace Escalation

/-- A new attempt. -/
def start (base : SignedTx) (options : DeliveryOptions) : Escalation := ⟨base, options, .pricing⟩

/-- What an attempt is waiting for. -/
def call (e : Escalation) : Call :=
  match e.stage with
  | .pricing => .gasPrice
  | .estimating _ => .estimateGas e.base.tx
  | .signing tx => .sign tx

/-- Where an attempt is after a reply. -/
inductive Progress where
  /-- It asks for something else. -/
  | asking (e : Escalation)
  /-- It ended, with a replacement unless none is needed. -/
  | ended (result : Except DeliveryError (Option SignedTx))

/-- The attempt once the new price is decided. -/
def priced (e : Escalation) (price : GasPrice) : Escalation :=
  if e.options.recalcGas then { e with stage := .estimating price }
  else { e with stage := .signing { e.base.tx with gasPrice := price } }

/-- **An attempt goes on with the reply it waited for.** It ignores replies to other calls. -/
def advance? (percent : UInt64) (e : Escalation) (reply : Reply) : Option Progress :=
  match e.stage, reply with
  | .pricing, .price market =>
    match nextGasPrice e.base.tx.gasPrice market percent e.options.ceiling with
    | .error err => some (.ended (.error err))
    | .ok none => some (.ended (.ok none))
    | .ok (some price) => some (.asking (e.priced price))
  | .pricing, .failed err => some (.ended (.error (.gasPrice err)))
  | .estimating price, .gas gas =>
    some (.asking { e with
      stage := .signing { e.base.tx with gasPrice := price, gasLimit := gas } })
  | .estimating _, .failed err => some (.ended (.error (.estimateGas err)))
  | .signing _, .signed tx => some (.ended (.ok (some tx)))
  | .signing _, .failed err => some (.ended (.error (.sign err)))
  | _, _ => none

end Escalation

end TxDelivery
