import TxDelivery.Delivery.Outcome

/-!
# Metrics

What a service counts. A counter is named by what it counts (`TxDelivery.Counter`), and the metrics
keep the increments themselves: the value of a counter is how often it occurs among them
(`TxDelivery.Metrics.count`). Beside the counters one gauge holds the price of the last replacement.

Counters are only ever incremented, and all of them by one. So a counter is no more than a number of
increments, and there is no table of counters that could be out of step with them. A family of
counters that differ in a label is a constructor with an argument; a sum over the family is a sum
over increments. What a counter is called is derived from what it counts
(`TxDelivery.Counter.name`).

A counter appears with its first increment. Those that were never touched are not shown, and neither
is the gauge before the first replacement was accepted.
-/

namespace TxDelivery

/-- What the queue did with a transaction sent through it. -/
inductive QueueDecision where
  /-- The key was under way. -/
  | pending
  /-- The key was finished. -/
  | finished
  /-- The transaction was broadcast. -/
  | submitted
  /-- The transaction could not be broadcast. -/
  | rejected
  deriving DecidableEq, Repr

/-- The name of a decision. -/
def QueueDecision.name : QueueDecision → String
  | pending => "pending"
  | finished => "finished"
  | submitted => "submitted"
  | rejected => "rejected"

/-- What is counted. -/
inductive Counter where
  /-- First broadcasts, by whether the node accepted them. -/
  | initialBroadcast (accepted : Bool)
  /-- Replacements, by whether the node accepted them. -/
  | rebroadcast (accepted : Bool)
  /-- Deliveries that ended, by how. -/
  | outcome (kind : String)
  /-- How often the nonce cache was emptied. -/
  | nonceReset
  /-- Transactions sent through the queue, by what became of them. -/
  | queueSend (decision : QueueDecision)
  deriving DecidableEq, Repr

namespace Counter

/-- The label of a broadcast's result. -/
def resultName (accepted : Bool) : String := if accepted then "ok" else "error"

/-- The name of a counter with its labels. -/
def name : Counter → String
  | initialBroadcast accepted => broadcastName "initial" accepted
  | rebroadcast accepted => broadcastName "rebroadcast" accepted
  | outcome kind => "txmanager_outcomes_total\x7boutcome=" ++ kind ++ "\x7d"
  | nonceReset => "txmanager_nonce_resets_total\x7b\x7d"
  | queueSend decision => "txmanager_queue_sends_total\x7bresult=" ++ decision.name ++ "\x7d"
where
  /-- The name of a counter of broadcasts. -/
  broadcastName (kind : String) (accepted : Bool) : String :=
    "txmanager_broadcasts_total\x7bkind=" ++ kind ++ ",result=" ++ resultName accepted ++ "\x7d"

end Counter

/-- How an outcome is counted. -/
def Outcome.kind : Outcome → String
  | confirmed _ => "confirmed"
  | failed e => e.error.kind

/-- The metrics of a service. -/
structure Metrics where
  /-- Every increment, the latest first. -/
  increments : List Counter := []
  /-- The price of the last replacement the node accepted. -/
  gasPrice : Option GasPrice := none
  deriving DecidableEq, Repr, Inhabited

namespace Metrics

/-- The name of the gauge. -/
def gasPriceName : String := "txmanager_gas_price_wei\x7b\x7d"

/-- Counts one more. -/
def increment (m : Metrics) (c : Counter) : Metrics := { m with increments := c :: m.increments }

/-- Sets the gauge. -/
def recordPrice (m : Metrics) (p : GasPrice) : Metrics := { m with gasPrice := some p }

/-- **The value of a counter.** -/
def count (m : Metrics) (c : Counter) : Nat := m.increments.count c

/-- The counters that are not zero, each once. -/
def touched (m : Metrics) : List Counter := m.increments.eraseDups

@[simp] theorem count_increment (m : Metrics) (c c' : Counter) :
    (m.increment c).count c' = m.count c' + if c = c' then 1 else 0 := by
  simp [count, increment, List.count_cons, beq_iff_eq]

@[simp] theorem count_recordPrice (m : Metrics) (p : GasPrice) (c : Counter) :
    (m.recordPrice p).count c = m.count c := rfl

end Metrics

end TxDelivery
