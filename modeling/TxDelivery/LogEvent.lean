import TxDelivery.LogFilter

/-!
# What is logged

Every event of the log by its meaning, with its level (`TxDelivery.LogEvent.level`) and its wording
(`TxDelivery.LogEvent.message`).
-/

namespace TxDelivery

/-- The events of the log. -/
inductive LogEvent where
  /-- The first variant of a transaction was accepted. -/
  | broadcast
  /-- The first variant of a transaction was refused. -/
  | broadcastRejected
  /-- The market gives no reason to replace a variant. -/
  | priceCompetitive
  /-- A replacement was accepted. -/
  | rebroadcast
  /-- A replacement was refused. -/
  | rebroadcastRejected
  /-- A replacement could not be made. -/
  | replacementFailed
  /-- A variant has no receipt. -/
  | receiptMissing
  /-- A receipt is not deep enough. -/
  | receiptShallow
  /-- A variant was mined and failed. -/
  | reverted
  /-- A receipt or the head could not be read. -/
  | receiptCheckFailed
  /-- A delivery ended with a confirmation. -/
  | confirmed
  /-- A delivery was given up. -/
  | failed
  /-- The watch over the variants ended at the deadline. -/
  | watchLapsed
  /-- The watch over the variants broke down. -/
  | watchStopped
  /-- A subscriber lost events. -/
  | eventsDropped
  /-- A bookkeeper of the queue started. -/
  | queueStarted
  /-- A bookkeeper of the queue stopped. -/
  | queueStopped
  /-- A labelled transaction was confirmed. -/
  | queuedConfirmed
  /-- A transaction was given up. -/
  | queuedFailed
  /-- A key was sent while it is under way. -/
  | keyPending
  /-- A key was sent after it was finished. -/
  | keyFinished
  /-- A key was sent after it had failed. -/
  | keyRetried
  /-- The address of a node to fall back on is unusable. -/
  | nodeIgnored
  /-- A client is ready, and its node serves the expected chain. -/
  | clientVerified
  /-- A client is ready, and its chain could not be verified. -/
  | clientUnverified
  /-- A node failed; the next one is asked. -/
  | nodeFailed
  /-- A node did not answer in time; the next one is asked. -/
  | nodeTimedOut
  deriving DecidableEq, Repr

namespace LogEvent

/-- How important an event is. -/
def level : LogEvent → LogLevel
  | broadcast | rebroadcast | confirmed | queueStarted | queueStopped | queuedConfirmed
  | keyPending | keyFinished | clientVerified => .info
  | priceCompetitive | receiptMissing | receiptShallow => .debug
  | failed | watchLapsed | watchStopped => .error
  | broadcastRejected | rebroadcastRejected | replacementFailed | reverted | receiptCheckFailed
  | eventsDropped | queuedFailed | keyRetried | nodeIgnored | clientUnverified | nodeFailed
  | nodeTimedOut => .warn

/-- The wording of an event. -/
def message : LogEvent → String
  | broadcast => "Transaction broadcast"
  | broadcastRejected => "Initial broadcast rejected"
  | priceCompetitive => "Price still competitive"
  | rebroadcast => "Transaction rebroadcast"
  | rebroadcastRejected => "Rebroadcast failed, retrying next tick"
  | replacementFailed => "Reconstruct failed, retrying next tick"
  | receiptMissing => "Transaction pending"
  | receiptShallow => "Waiting for confirmations"
  | reverted => "Transaction reverted"
  | receiptCheckFailed => "Receipt check failed"
  | confirmed => "Transaction confirmed"
  | failed => "Transaction failed"
  | watchLapsed => "Transaction not confirmed before deadline"
  | watchStopped => "Confirmation listener stopped"
  | eventsDropped => "Subscriber fell behind, events dropped"
  | queueStarted => "Queue manager started"
  | queueStopped => "Queue manager stopped"
  | queuedConfirmed => "Queued transaction confirmed"
  | queuedFailed => "Queued transaction failed"
  | keyPending => "Transaction is pending in queue"
  | keyFinished => "Transaction is finished"
  | keyRetried => "Transaction failed before, retrying"
  | nodeIgnored => "Ignoring invalid failover RPC URL"
  | clientVerified => "Blockchain client initialized"
  | clientUnverified => "Blockchain client initialized but chain verification failed"
  | nodeFailed => "RPC error, trying next provider"
  | nodeTimedOut => "RPC timeout, trying next provider"

end LogEvent

end TxDelivery
