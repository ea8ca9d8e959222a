import TxDelivery.Bytes
import TxDelivery.Delivery.Error
import TxDelivery.Delivery.Nonce

/-!
# Transactions

The values that pass between the caller, the signer and the chain: transactions as callers hand them
over, their signed form, and what a receipt tells of their fate.
-/

namespace TxDelivery

/-- An account or contract. -/
abbrev Address := BitVec 160

/-- The identity of a signed transaction. -/
abbrev Hash := BitVec 256

/-- An amount of wei. -/
abbrev Amount := BitVec 256

/-- The number of a chain as shown to operators. -/
def describeChainId (id : UInt64) : String := wrapText "ChainId" (Numeral.decimal id.toNat)

/-- An unsigned transaction as handed over by callers. -/
structure Transaction where
  /-- The account that pays. -/
  sender : Address := 0
  /-- The recipient; `none` creates a contract. -/
  recipient : Option Address := none
  /-- Call data, or the code of a contract. -/
  input : Bytes := []
  /-- The price of gas in wei; zero asks for the market price. -/
  gasPrice : GasPrice := 0
  /-- The gas paid for at most; zero asks for an estimate. -/
  gasLimit : UInt64 := 0
  /-- The amount transferred. -/
  value : Amount := 0
  /-- The place of the transaction among the sender's. -/
  nonce : Nonce := 0
  /-- The chain it is meant for. -/
  chainId : UInt64 := 0
  deriving DecidableEq, Repr, Inhabited

/-- A transaction together with its signed encoding. -/
structure SignedTx where
  /-- The transaction as signed. -/
  tx : Transaction
  /-- Its identity on the chain. -/
  hash : Hash
  /-- The bytes that are broadcast. -/
  raw : Bytes
  deriving DecidableEq, Repr, Inhabited

/-- What the chain says of a mined transaction. -/
structure Receipt where
  /-- The transaction meant. -/
  hash : Hash
  /-- The height at which it was mined. -/
  block : UInt64
  /-- Whether its execution succeeded. -/
  succeeded : Bool
  deriving DecidableEq, Repr, Inhabited

end TxDelivery
