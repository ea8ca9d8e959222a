import TxDelivery.Delivery.Confirmation
import TxDelivery.Service.Call
import TxDelivery.Service.Ticker

/-!
# Listeners

The listener of a delivery watches the variants that its supervisor broadcast. Variants arrive
through a channel; at every tick the listener looks at the last two of them, one after another: it
asks for the receipt and, if there is one, for the height of the chain. **The first variant that is
final ends the watch**; failed queries, failed executions and shallow receipts only pass on to the
next variant (`TxDelivery.Listener.advance?`).

A look is a walk over a list, which is the list of what is left of it. It is begun with the variants
at hand; a variant that arrives during a look waits in the channel until the look is over, and a
look that found nothing is over when its list is empty. What a query has failed for is not
remembered. The next look starts from the beginning.

There are two ways for a watch to be over. It returned, with a variant or at the deadline with none,
or it was stopped, by its supervisor or because it broke down. A listener that has returned stays so
even if its supervisor ends first (`TxDelivery.Listener.stop`); nobody asks any more.

The functions here know nothing of a service. They are given the time, the deadline and the depth
that counts as final, and give back the listener with what it logs.
-/

namespace TxDelivery

/-- What a listener is doing. -/
inductive Listener.Stage where
  /-- It waits for a variant, for its next tick or for the deadline. -/
  | waiting
  /-- It asks for the receipt of `tx`; `rest` comes after it. -/
  | querying (tx : SignedTx) (rest : List SignedTx)
  /-- It asks for the height of the chain, holding the receipt of `tx`; `rest` comes after it. -/
  | weighing (tx : SignedTx) (receipt : Receipt) (rest : List SignedTx)
  /-- It ended with the variant that is final, or with none at the deadline. -/
  | returned (mined : Option SignedTx)
  /-- It was stopped, or broke down. -/
  | stopped
  deriving DecidableEq, Repr

/-- A watch over the variants of one delivery. -/
structure Listener where
  /-- Variants that have not been received yet, the oldest first. -/
  channel : List SignedTx
  /-- The variants watched. -/
  recent : RecentTxs
  /-- When the variants are looked at. -/
  ticker : Ticker
  /-- What the listener is doing. -/
  stage : Listener.Stage
  deriving DecidableEq, Repr

namespace Listener

/-- A listener that starts now, with one variant to watch. -/
def start (now interval : Nat) (first : SignedTx) : Listener :=
  ⟨[first], .empty, .start now interval, .waiting⟩

/-- Hands a listener one more variant. -/
def notify (l : Listener) (tx : SignedTx) : Listener := { l with channel := l.channel ++ [tx] }

/-- Ends the watch, whatever the listener is doing, unless it is over. -/
def stop (l : Listener) : Listener :=
  match l.stage with
  | .returned _ => l
  | _ => { l with stage := .stopped }

/-- What a listener is asking. -/
def call? (l : Listener) : Option Call :=
  match l.stage with
  | .querying tx _ => some (.receipt tx.hash)
  | .weighing _ _ _ => some .head
  | .waiting | .returned _ | .stopped => none

/-- Whether a watch is over. -/
def isOver (l : Listener) : Bool :=
  match l.stage with
  | .returned _ | .stopped => true
  | .waiting | .querying _ _ | .weighing _ _ _ => false

/-- What a listener returned; one that stopped returned nothing. -/
def result? (l : Listener) : Option (Except Unit (Option SignedTx)) :=
  match l.stage with
  | .returned mined => some (.ok mined)
  | .stopped => some (.error ())
  | .waiting | .querying _ _ | .weighing _ _ _ => none

/-- Whether a listener is waiting. -/
def isWaiting (l : Listener) : Bool := l.stage = .waiting

/-- The stage in which the first of `txs` is looked at. -/
def examine : List SignedTx → Stage
  | [] => .waiting
  | tx :: rest => .querying tx rest

/-- Receives the next variant. -/
def receive? (l : Listener) : Option Listener :=
  match l.stage, l.channel with
  | .waiting, tx :: rest => some { l with channel := rest, recent := l.recent.push tx }
  | _, _ => none

/-- Serves a tick: a look at the variants begins. -/
def poll? (l : Listener) (now : Nat) : Option Listener :=
  if l.isWaiting && l.ticker.isDue now then
    some { l with ticker := l.ticker.serve now, stage := examine l.recent.toList }
  else none

/-- Ends the watch at the deadline. -/
def lapse? (l : Listener) (now deadline : Nat) : Option Listener :=
  if l.isWaiting && decide (deadline ≤ now) then some { l with stage := .returned none } else none

/-- Breaks down, whatever the listener is doing. -/
def crash? (l : Listener) : Option Listener := if l.isOver then none else some l.stop

/-- **A look goes on with the reply it waited for.** -/
def advance? (depth : UInt64) (l : Listener) (reply : Reply) :
    Option (Listener × List LogEvent) :=
  match l.stage, reply with
  | .querying tx rest, .receipt (some receipt) =>
    some ({ l with stage := .weighing tx receipt rest }, [])
  | .querying _ rest, .receipt none => some ({ l with stage := examine rest }, [.receiptMissing])
  | .querying _ rest, .failed _ => some ({ l with stage := examine rest }, [.receiptCheckFailed])
  | .weighing tx receipt rest, .head head =>
    if !receipt.succeeded then some ({ l with stage := examine rest }, [.reverted])
    else if receipt.isConfirmed depth head then some ({ l with stage := .returned (some tx) }, [])
    else some ({ l with stage := examine rest }, [.receiptShallow])
  | .weighing _ _ rest, .failed _ => some ({ l with stage := examine rest }, [.receiptCheckFailed])
  | _, _ => none

end Listener

end TxDelivery
