import TxDelivery.Chain.Wallet
import TxDelivery.Config.Basic
import TxDelivery.Net.Url
import TxDelivery.Node.Query
import TxDelivery.Node.Reply
import TxDelivery.Service.Call
import TxDelivery.Text.Quoted

/-!
# Clients with failover

A client knows the nodes of a configuration in order and asks them one after another
(`TxDelivery.failover`). **The first node that answers or says no decides**: what it says is the
result, and no later node is asked. A node that fails or stays silent passes the question on; if all
of them did, the result tells whether they all stayed silent or at least one failed otherwise.

Only the address of the first node has to be usable (`TxDelivery.Client.connect`), and a client is
ready whatever its nodes say about their chain.

What a node would reply is given as a function of its place, its address and the question
(`TxDelivery.Network`), and asking is a walk over the replies. A reply that is never asked for is
not looked at, and how many nodes were asked is part of what comes back (`TxDelivery.Consultation`),
so that it can be said which of them had to do with the result.

A refusal is not a failure. A node that says that a nonce is too low has understood the question,
and another node would say the same or be behind. What it said is found in its words, and becomes
one of the causes that a delivery knows what to do with.
-/

namespace TxDelivery

/-- What became of a question to the nodes. -/
structure Consultation (α : Type) where
  /-- The result. -/
  result : Except ChainError α
  /-- How many nodes were asked: the first so many. -/
  asked : Nat
  /-- What was logged. -/
  log : List LogEvent

/-- A consultation in which one more node was asked before. -/
def Consultation.after {α : Type} (c : Consultation α) (event : LogEvent) : Consultation α :=
  ⟨c.result, c.asked + 1, event :: c.log⟩

/-- **Asking nodes one after another**, given what each would reply. `silent` tells whether all the
nodes before these stayed silent. -/
def failover {α : Type} (purpose : String) (seconds : Nat) (silent : Bool) :
    List (NodeReply α) → Consultation α
  | [] =>
    let error : ChainError :=
      if silent then .timeout seconds else .rpc ("All RPC providers failed to " ++ purpose)
    ⟨.error error, 0, []⟩
  | .answer a :: _ => ⟨.ok a, 1, []⟩
  | .refusal message :: _ => ⟨.error (.ofNodeMessage message), 1, []⟩
  | .failure :: rest => (failover purpose seconds false rest).after .nodeFailed
  | .silence :: rest => (failover purpose seconds silent rest).after .nodeTimedOut

/-- What comes back when the node at a place of the list is asked a question. -/
abbrev Network := (place : Nat) → Url → NodeQuery → Exchange

/-- The network that reaches no node. -/
def Network.unreachable : Network := fun _ _ _ => .broken

/-- A client of the nodes of a configuration. -/
structure Client where
  /-- The configuration. -/
  config : ChainConfig
  /-- The nodes in the order in which they are asked. -/
  nodes : List Url
  deriving DecidableEq, Repr

namespace Client

/-- What each of the nodes would reply to a question. -/
def replies {α : Type} (c : Client) (network : Network) (query : NodeQuery)
    (decode : Json → Option α) : List (NodeReply α) :=
  c.nodes.mapIdx fun place node => .ofExchange decode (network place node query)

/-- Asks the nodes a question. -/
def ask {α : Type} (c : Client) (network : Network) (query : NodeQuery) (decode : Json → Option α) :
    Consultation α :=
  failover query.purpose c.config.rpcTimeoutSecs.toNat true (c.replies network query decode)

/-- The next nonce of an account. -/
def nonce (c : Client) (network : Network) (account : Address) : Consultation Nonce :=
  c.ask network (.nonce account) NodeValue.word?

/-- The market price of gas. -/
def gasPrice (c : Client) (network : Network) : Consultation GasPrice :=
  c.ask network .gasPrice NodeValue.price?

/-- The gas a transaction needs. -/
def estimateGas (c : Client) (network : Network) (tx : Transaction) : Consultation UInt64 :=
  c.ask network (.estimateGas tx) NodeValue.word?

/-- Broadcasts a signed transaction; the answer is what the node calls it. -/
def broadcast (c : Client) (network : Network) (raw : Bytes) : Consultation Hash :=
  c.ask network (.broadcast raw) NodeValue.hash?

/-- The receipt of a transaction. -/
def receipt (c : Client) (network : Network) (hash : Hash) : Consultation (Option Receipt) :=
  c.ask network (.receipt hash) NodeValue.receipt?

/-- The height of the chain. -/
def head (c : Client) (network : Network) : Consultation UInt64 :=
  c.ask network .head NodeValue.word?

/-- The chain the nodes serve. -/
def chainId (c : Client) (network : Network) : Consultation UInt64 :=
  c.ask network .chainId NodeValue.word?

/-- Whether the nodes serve the configured chain. -/
def verify (c : Client) (network : Network) : Consultation Unit :=
  let consultation := c.chainId network
  let result := match consultation.result with
    | .error e => .error e
    | .ok actual =>
      if actual = c.config.chainId then .ok ()
      else .error (.chainMismatch c.config.chainId.toNat actual.toNat)
  ⟨result, consultation.asked, consultation.log⟩

/-- The usable ones of the addresses to fall back on, and a log entry for each of the others. -/
def fallbacks : List String → List Url × List LogEvent
  | [] => ([], [])
  | text :: rest =>
    let (urls, log) := fallbacks rest
    match Url.parse text with
    | .ok url => (url :: urls, log)
    | .error _ => (urls, .nodeIgnored :: log)

/-- The client of a configuration and what was logged about its nodes, none of them asked yet. -/
def ofConfig (config : ChainConfig) : Except ChainError (Client × List LogEvent) :=
  match Url.parse config.rpcUrl with
  | .error e => throw (.rpc ("Invalid RPC URL '" ++ config.rpcUrl ++ "': " ++ e.message))
  | .ok primary =>
    let (urls, log) := fallbacks config.failoverUrls
    return (⟨config, primary :: urls⟩, log)

/-- **Connects a client**: the nodes are asked for their chain once, and whatever they say is only
logged. -/
def connect (config : ChainConfig) (network : Network) :
    Except ChainError (Client × List LogEvent) := do
  let (client, log) ← ofConfig config
  let check := client.verify network
  let verdict := match check.result with
    | .ok () => LogEvent.clientVerified
    | .error _ => .clientUnverified
  return (client, log ++ check.log ++ [verdict])

/-- A client as shown to operators. -/
def describe (c : Client) : String :=
  recordText "BlockchainClient"
    [("rpc_url", quotedText c.config.rpcUrl),
     ("chain_id", Numeral.decimal c.config.chainId.toNat),
     ("timeout_secs", Numeral.decimal c.config.rpcTimeoutSecs.toNat)]

/-- A reply to a call of a service. -/
def toReply {α : Type} (reply : α → Reply) : Except ChainError α → Reply
  | .ok a => reply a
  | .error e => .failed e

/-- **The reply to a call of a service**, from the nodes or from the wallet. -/
def serve (c : Client) (network : Network) (wallet : Wallet) : Call → Reply
  | .gasPrice => toReply .price (c.gasPrice network).result
  | .estimateGas tx => toReply .gas (c.estimateGas network tx).result
  | .nonce account => toReply .nonce (c.nonce network account).result
  | .sign tx => toReply .signed (wallet.sign tx)
  | .broadcast tx => toReply .accepted (c.broadcast network tx.raw).result
  | .receipt hash => toReply .receipt (c.receipt network hash).result
  | .head => toReply .head (c.head network).result

end Client

end TxDelivery
