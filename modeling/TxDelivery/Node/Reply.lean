import TxDelivery.Chain.TransactionText
import TxDelivery.Json.Reader

/-!
# Replies of a node

What comes back when a node is asked (`TxDelivery.Exchange`) and what it means
(`TxDelivery.NodeReply.ofExchange`). **An error the node itself reports is an answer of its own
kind**; a broken connection, an unexpected status and a reply that cannot be read are all failures
of the node.

The values a node sends are read generously: quantities may be hexadecimal or decimal texts or
numbers, hashes may lack their marker. A receipt needs all the parts receipts have.
-/

namespace TxDelivery

/-- What came back from a node. -/
inductive Exchange where
  /-- A response with its status and its text. -/
  | response (status : Nat) (body : String)
  /-- No connection, or one that broke. -/
  | broken
  /-- Nothing, for as long as the client waits. -/
  | silence
  deriving DecidableEq, Repr

/-- What a node made of a question. -/
inductive NodeReply (α : Type) where
  /-- It answered. -/
  | answer (a : α)
  /-- It said no, in these words. -/
  | refusal (message : String)
  /-- It failed in any other way. -/
  | failure
  /-- It did not reply in time. -/
  | silence
  deriving DecidableEq, Repr

namespace NodeReply

/-- The words of an error object. -/
def refusal? (error : Json) : Option String :=
  match error with
  | .object _ =>
    match error.field? "message" with
    | none => some ""
    | some (.string message) => some message
    | some _ => none
  | _ => none

/-- The meaning of the text of a reply: it holds either a result or an error. -/
def ofBody {α : Type} (decode : Json → Option α) (body : String) : NodeReply α :=
  match Json.parse? body with
  | some (.object fields) =>
    match fields.lookup "result", fields.lookup "error" with
    | some result, none =>
      match decode result with
      | some a => answer a
      | none => failure
    | none, some error =>
      match refusal? error with
      | some message => refusal message
      | none => failure
    | _, _ => failure
  | _ => failure

/-- **The meaning of what came back from a node.** -/
def ofExchange {α : Type} (decode : Json → Option α) : Exchange → NodeReply α
  | .response status body => if 200 ≤ status ∧ status < 300 then ofBody decode body else failure
  | .broken => failure
  | .silence => silence

end NodeReply

/-! ### The values nodes send -/

namespace NodeValue

/-- A quantity below `bound`. -/
def quantity? (bound : Nat) : Json → Option Nat
  | .string s => ((Amount.ofText? s.toList).map BitVec.toNat).filter (· < bound)
  | v => Transaction.numberBelow? bound v

/-- A 64-bit quantity. -/
def word? (v : Json) : Option UInt64 := (quantity? UInt64.size v).map UInt64.ofNat

/-- A price. -/
def price? (v : Json) : Option GasPrice := (quantity? (Nat.pow 2 128) v).map (BitVec.ofNat 128)

/-- A hash. -/
def hash? (v : Json) : Option Hash := do Hex.word? 256 (← v.text?).toList

/-- Data of a fixed width. -/
def data? (width : Nat) (v : Json) : Option Bytes := do
  (Hex.decodeExact width (← v.text?).toList).toOption

/-- A part that may be missing or null. -/
def optional? {α : Type} (decode : Json → Option α) (v : Option Json) : Option (Option α) :=
  match v with
  | none | some .null => some none
  | some v => (decode v).map some

/-- Whether an execution succeeded. Receipts from the time before this was recorded carry a digest
of the state in its place, and count as successes. -/
def succeeded? (v : Json) : Option Bool :=
  match v.field? "status" with
  | some status =>
    match status with
    | .bool b => some b
    | status => (quantity? 2 status).map (· = 1)
  | none => do
    let _ ← hash? (← v.field? "root")
    return true

/-- **A receipt.** One without a block belongs to an unsettled block, and counts as none. -/
def receipt? (v : Json) : Option (Option Receipt) :=
  match v with
  | .null => some none
  | v => do
    let hash ← hash? (← v.field? "transactionHash")
    let _ ← Transaction.address? (← v.field? "from")
    let _ ← word? (← v.field? "gasUsed")
    let _ ← word? (← v.field? "cumulativeGasUsed")
    let _ ← price? (← v.field? "effectiveGasPrice")
    let _ ← quantity? 256 (← v.field? "type")
    let _ ← (← v.field? "logs").items?
    let _ ← data? 256 (← v.field? "logsBloom")
    let succeeded ← succeeded? v
    let block ← optional? word? (v.field? "blockNumber")
    return block.map fun block => ⟨hash, block, succeeded⟩

end NodeValue

end TxDelivery
