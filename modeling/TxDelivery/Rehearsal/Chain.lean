import TxDelivery.Chain.Wallet
import TxDelivery.Service.Call

/-!
# A scripted chain

A chain that answers as it is told to: prices, estimates, nonces and heights are settings, receipts
are put there by hand, and any call can be made to fail or to take its time. Beside the chain stands
a signer, either a real wallet or one that numbers its signatures (`TxDelivery.ScriptedSigner`).
`TxDelivery.ScriptedChain.answer` gives the reply to a call.

It is not a model of a chain. Nonces are not checked, there are no balances, and the height does not
grow by itself. A service is to cope with whatever it is told, and what it is told is up to the
script.

A call is answered as things stand when the reply is due and not when it was asked. What is to
happen to calls of a kind is a list of entries for that kind, each used up by one call
(`TxDelivery.ScriptedChain.takeFault`), so that the second of three calls can be made to fail.
-/

namespace TxDelivery

/-- The kinds of calls. -/
inductive CallKind where
  | nonce
  | gasPrice
  | estimate
  | send
  | receipt
  | head
  | sign
  deriving DecidableEq, Repr

/-- The kind of a call. -/
def Call.kind : Call → CallKind
  | .gasPrice => .gasPrice
  | .estimateGas _ => .estimate
  | .nonce _ => .nonce
  | .sign _ => .sign
  | .broadcast _ => .send
  | .receipt _ => .receipt
  | .head => .head

/-- Who signs in a rehearsal. -/
inductive ScriptedSigner where
  /-- A signer whose signatures are the numbers of its calls. -/
  | numbering
  /-- A wallet. -/
  | wallet (w : Wallet)
  deriving DecidableEq, Repr

namespace ScriptedSigner

/-- The chain of the numbering signer. -/
def chainId : UInt64 := 31337

/-- The account of the numbering signer: every byte is `aa`. -/
def account : Address := BitVec.ofNat 160 ((Nat.pow 2 160 - 1) / 255 * 0xaa)

/-- The account that signs. -/
def address : ScriptedSigner → Address
  | numbering => account
  | wallet w => w.address

/-- A signature, `calls` being the number of signatures asked for so far. -/
def sign (s : ScriptedSigner) (calls : Nat) (tx : Transaction) : Except ChainError SignedTx :=
  match s with
  | numbering =>
    let hash : Hash := BitVec.ofNat 256 calls
    return ⟨{ tx with sender := account, chainId := chainId }, hash, Bytes.ofWord hash⟩
  | wallet w => w.sign tx

end ScriptedSigner

/-- A chain that answers as it is told to. -/
structure ScriptedChain where
  /-- The market price. -/
  gasPrice : GasPrice := 100
  /-- The estimate for a transaction without input; each byte of input costs one more. -/
  gasEstimate : UInt64 := 21000
  /-- The nonce answered. -/
  nonce : Nonce := 0
  /-- The height. -/
  head : UInt64 := 0
  /-- Whether a transaction is mined as soon as it is accepted. -/
  minesOnSend : Bool := false
  /-- The receipts, the latest first. -/
  receipts : List Receipt := []
  /-- The transactions accepted, in order, each with the time. -/
  accepted : List (Nat × SignedTx) := []
  /-- What is to happen to the next calls of a kind, in order: an error, or nothing special. -/
  faults : List (CallKind × Option ChainError) := []
  /-- How long calls of a kind take in milliseconds, the latest setting first. -/
  latencies : List (CallKind × Nat) := []
  /-- The kind of every call so far. -/
  calls : List CallKind := []
  deriving DecidableEq, Repr

namespace ScriptedChain

/-- How long a call of a kind takes. -/
def latency (c : ScriptedChain) (kind : CallKind) : Nat := (c.latencies.lookup kind).getD 0

/-- How many calls of a kind there were. -/
def callCount (c : ScriptedChain) (kind : CallKind) : Nat := c.calls.count kind

/-- A call arrives. -/
def register (c : ScriptedChain) (kind : CallKind) : ScriptedChain :=
  { c with calls := kind :: c.calls }

/-- Takes the next entry from what is to happen to calls of a kind. -/
def takeFault (kind : CallKind) :
    List (CallKind × Option ChainError) → Option ChainError × List (CallKind × Option ChainError)
  | [] => (none, [])
  | (k, fault) :: rest =>
    if k = kind then (fault, rest)
    else
      let (found, rest) := takeFault kind rest
      (found, (k, fault) :: rest)

/-- The receipt of a transaction. -/
def receiptOf (c : ScriptedChain) (hash : Hash) : Option Receipt :=
  c.receipts.find? fun r => r.hash = hash

/-- Removes the receipt of a transaction. -/
def unmine (c : ScriptedChain) (hash : Hash) : ScriptedChain :=
  { c with receipts := c.receipts.filter fun r => r.hash ≠ hash }

/-- Puts a receipt in place. -/
def mine (c : ScriptedChain) (receipt : Receipt) : ScriptedChain :=
  { c.unmine receipt.hash with receipts := receipt :: (c.unmine receipt.hash).receipts }

/-- A transaction is accepted. -/
def accept (c : ScriptedChain) (now : Nat) (tx : SignedTx) : ScriptedChain :=
  let c := { c with accepted := c.accepted ++ [(now, tx)] }
  if c.minesOnSend then c.mine ⟨tx.hash, c.head, true⟩ else c

/-- The reply to a call that nothing special happens to. -/
def respond (c : ScriptedChain) (signer : ScriptedSigner) (now : Nat) :
    Call → Reply × ScriptedChain
  | .gasPrice => (.price c.gasPrice, c)
  | .estimateGas tx => (.gas (c.gasEstimate + UInt64.ofNat tx.input.length), c)
  | .nonce _ => (.nonce c.nonce, c)
  | .sign tx =>
    match signer.sign (c.callCount .sign) tx with
    | .ok signed => (.signed signed, c)
    | .error e => (.failed e, c)
  | .broadcast tx => (.accepted tx.hash, c.accept now tx)
  | .receipt hash => (.receipt (c.receiptOf hash), c)
  | .head => (.head c.head, c)

/-- **The reply to a call** as things stand now: the error that waits for it, or what the chain and
the signer have to say. -/
def answer (c : ScriptedChain) (signer : ScriptedSigner) (now : Nat) (call : Call) :
    Reply × ScriptedChain :=
  let (fault, rest) := takeFault call.kind c.faults
  let c := { c with faults := rest }
  match fault with
  | some e => (.failed e, c)
  | none => c.respond signer now call

end ScriptedChain

end TxDelivery
