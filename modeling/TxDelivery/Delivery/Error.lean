import TxDelivery.Chain.Error
import TxDelivery.Duration

/-!
# Why a transaction was not delivered

`TxDelivery.DeliveryError` names the step that failed and what the chain or the signer answered, or
one of the two reasons to give up: the price limit and the deadline. Only those two are terminal
(`TxDelivery.DeliveryError.isTerminal`); any other failure of an escalation is tried again.

Before the first broadcast is accepted every failure goes to the caller, and nothing is tried again.
So the same error may end an operation and leave a delivery as it is; what becomes of it is a matter
of who gets it.
-/

namespace TxDelivery

/-- The price of gas in wei, a 128-bit word. -/
abbrev GasPrice := BitVec 128

/-- Failures of one logical transaction. -/
inductive DeliveryError where
  /-- The nonce of the sender could not be read. -/
  | nonce (cause : ChainError)
  /-- The transaction could not be signed. -/
  | sign (cause : ChainError)
  /-- The node refused the transaction. -/
  | broadcast (cause : ChainError)
  /-- The market price could not be read. -/
  | gasPrice (cause : ChainError)
  /-- The gas could not be estimated. -/
  | estimateGas (cause : ChainError)
  /-- The next price would pass the ceiling. -/
  | overPriceLimit (limit price : GasPrice)
  /-- The deadline passed without a confirmation. -/
  | timeout (period : Duration)
  deriving DecidableEq, Repr, Inhabited

namespace DeliveryError

/-- Whether a delivery ends with this failure instead of trying again. -/
def isTerminal : DeliveryError → Bool
  | overPriceLimit .. | timeout _ => true
  | _ => false

/-- The short name of a failure, as counted. -/
def kind : DeliveryError → String
  | nonce _ => "nonce"
  | sign _ => "sign"
  | broadcast _ => "broadcast"
  | gasPrice _ => "gas_price"
  | estimateGas _ => "estimate_gas"
  | overPriceLimit .. => "price_limit"
  | timeout _ => "timeout"

/-- What the chain or the signer answered, for the failures that stem from a call. -/
def cause? : DeliveryError → Option ChainError
  | nonce c | sign c | broadcast c | gasPrice c | estimateGas c => some c
  | overPriceLimit .. | timeout _ => none

/-- The wording of a failure. -/
def message : DeliveryError → String
  | nonce c => "get nonce: " ++ c.message
  | sign c => "sign transaction: " ++ c.message
  | broadcast c => "sendRawTransaction: " ++ c.message
  | gasPrice c => "get gas price: " ++ c.message
  | estimateGas c => "estimate gas: " ++ c.message
  | overPriceLimit limit price =>
    "over price limit: limit " ++ Numeral.decimal limit.toNat ++ ", got "
      ++ Numeral.decimal price.toNat
  | timeout period => "timeout: not confirmed within " ++ period.text

/-- A failure with its parts, as shown on the command line. -/
def describe : DeliveryError → String
  | nonce c => wrapText "Nonce" c.describe
  | sign c => wrapText "Sign" c.describe
  | broadcast c => wrapText "Broadcast" c.describe
  | gasPrice c => wrapText "GasPrice" c.describe
  | estimateGas c => wrapText "EstimateGas" c.describe
  | overPriceLimit limit price =>
    recordText "OverPriceLimit"
      [("limit", Numeral.decimal limit.toNat), ("price", Numeral.decimal price.toNat)]
  | timeout period => wrapText "Timeout" period.text

end DeliveryError

end TxDelivery
