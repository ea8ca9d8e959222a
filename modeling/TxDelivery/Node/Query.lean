import TxDelivery.Chain.Request

/-!
# Questions to a node

What a client asks of a node, as calls of the node's interface: the name of the method
(`TxDelivery.NodeQuery.method`), the parameters, and the whole call as text.
-/

namespace TxDelivery

/-- Questions to a node. -/
inductive NodeQuery where
  /-- The next nonce of an account. -/
  | nonce (account : Address)
  /-- The market price of gas. -/
  | gasPrice
  /-- The gas a transaction needs. -/
  | estimateGas (tx : Transaction)
  /-- The broadcast of a signed transaction. -/
  | broadcast (raw : Bytes)
  /-- The receipt of a transaction. -/
  | receipt (hash : Hash)
  /-- The height of the chain. -/
  | head
  /-- The chain that is served. -/
  | chainId
  deriving DecidableEq, Repr

namespace NodeQuery

/-- The name of the method. -/
def method : NodeQuery → String
  | nonce _ => "eth_getTransactionCount"
  | gasPrice => "eth_gasPrice"
  | estimateGas _ => "eth_estimateGas"
  | broadcast _ => "eth_sendRawTransaction"
  | receipt _ => "eth_getTransactionReceipt"
  | head => "eth_blockNumber"
  | chainId => "eth_chainId"

/-- The parameters, if there are any. -/
def params? : NodeQuery → Option (List Json)
  | nonce account => some [Transaction.addressJson account, .string "latest"]
  | estimateGas tx => some [tx.callRequest, .string "pending"]
  | broadcast raw => some [.string (Hex.encode raw)]
  | receipt hash => some [.string (Hex.encodeWord hash)]
  | gasPrice | head | chainId => none

/-- What a question is for, as told when no node answers it. -/
def purpose : NodeQuery → String
  | nonce _ => "get transaction count"
  | gasPrice => "get gas price"
  | estimateGas _ => "estimate gas"
  | broadcast _ => "send raw transaction"
  | receipt _ => "get receipt"
  | head => "get block number"
  | chainId => "get chain id"

/-- **The call as text**, with a number by which the reply is known. -/
def text (q : NodeQuery) (number : Nat) : String :=
  let params := q.params?.toList.map fun ps => ("params", Json.array ps)
  (Json.object ([("method", .string q.method)] ++ params
    ++ [("id", .nat number), ("jsonrpc", .string "2.0")])).compact

end NodeQuery

end TxDelivery
