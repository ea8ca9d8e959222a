import TxDelivery.Numeral
import TxDelivery.Text.Quoted
import TxDelivery.Text.Record

/-!
# What a node or a signer can answer instead of a result

`TxDelivery.ChainError` lists the causes, `TxDelivery.ChainError.message` words them, and
`TxDelivery.ChainError.ofNodeMessage` finds the cause in the free text in which nodes refuse a
request: **the first of the known phrases that the text contains, whatever its case**.

Only one of the causes makes a difference to how a service goes on, the nonce that is too low
(`TxDelivery.ChainError.isNonceTooLow`): the cache of the nonce has to be forgotten then. The others
are told apart for those who read the log. A text that contains none of the phrases is passed on as
it is.
-/

namespace TxDelivery

/-- Failures of a call to a node or to the signer. -/
inductive ChainError where
  /-- The request did not succeed. -/
  | rpc (detail : String)
  /-- No node answered within this many seconds. -/
  | timeout (seconds : Nat)
  /-- The nonce of the transaction is already used. -/
  | nonceTooLow (detail : String)
  /-- The price premium of a replacement is too small. -/
  | underpriced (detail : String)
  /-- The sender cannot pay for gas and value. -/
  | insufficientFunds (detail : String)
  /-- The private key is unusable or the signature failed. -/
  | wallet (detail : String)
  /-- The node serves another chain than the configured one. -/
  | chainMismatch (expected actual : Nat)
  deriving DecidableEq, Repr, Inhabited

namespace ChainError

/-- The wording of a failure. -/
def message : ChainError → String
  | rpc detail => "RPC error: " ++ detail
  | timeout seconds => "RPC timeout after " ++ Numeral.decimal seconds ++ " seconds"
  | nonceTooLow detail => "nonce too low: " ++ detail
  | underpriced detail => "replacement transaction underpriced: " ++ detail
  | insufficientFunds detail => "insufficient funds: " ++ detail
  | wallet detail => "Wallet error: " ++ detail
  | chainMismatch expected actual =>
    "Chain ID mismatch: expected " ++ Numeral.decimal expected ++ ", got " ++ Numeral.decimal actual

/-- A failure with its parts, as shown on the command line. -/
def describe : ChainError → String
  | rpc detail => wrapText "Rpc" (quotedText detail)
  | timeout seconds => wrapText "Timeout" (Numeral.decimal seconds)
  | nonceTooLow detail => wrapText "NonceTooLow" (quotedText detail)
  | underpriced detail => wrapText "Underpriced" (quotedText detail)
  | insufficientFunds detail => wrapText "InsufficientFunds" (quotedText detail)
  | wallet detail => wrapText "Wallet" (quotedText detail)
  | chainMismatch expected actual =>
    recordText "ChainMismatch"
      [("expected", Numeral.decimal expected), ("actual", Numeral.decimal actual)]

/-- Whether the nonce known here has fallen behind the chain. -/
def isNonceTooLow : ChainError → Bool
  | nonceTooLow _ => true
  | _ => false

/-- Whether `text` starts with `phrase`, the letters `A` to `Z` of the text counting as small. -/
def startsWith : (phrase text : List Char) → Bool
  | [], _ => true
  | _ :: _, [] => false
  | p :: phrase, c :: text => p = c.toLower && startsWith phrase text

/-- Whether `phrase` stands somewhere in `text`, the letters `A` to `Z` of the text counting as
small. -/
def mentions (phrase : List Char) : (text : List Char) → Bool
  | [] => phrase.isEmpty
  | c :: text => startsWith phrase (c :: text) || mentions phrase text

/-- **The cause behind a node's refusal.** Nodes report these conditions in words only; of several
phrases in one text the earlier one in this list decides. -/
def ofNodeMessage (text : String) : ChainError :=
  if mentions "nonce too low".toList text.toList then nonceTooLow text
  else if mentions "underpriced".toList text.toList then underpriced text
  else if mentions "insufficient funds".toList text.toList then insufficientFunds text
  else rpc text

end ChainError

end TxDelivery
