import TxDelivery.Service.Supervision

/-!
# The queue's bookkeepers

A bookkeeper follows both feeds and sets the statuses of the keys: a confirmation makes a key
finished, a failure makes it failed, so that it can be sent again. For this it needs the status
lock, which a send through the queue may hold; **while it waits for the lock it receives nothing**,
and the feeds keep only so many events.

A queue is meant to have one bookkeeper, started before the first send. That it is so is up to
whoever starts the queue; a service can have none, or several, each with subscriptions of its own.
An event is marked by the key of its transaction, and a bookkeeper does not look at the status the
key has: it sets the new one whatever it was.

When it is idle a bookkeeper has three things it can do, take a confirmation, take a failure or
stop, and the order is open. The two feeds are two queues, so that events of different feeds need
not be entered in the order in which they were published. A bookkeeper that stops leaves what is
still held for it.

Other subscribers take part in a service from outside only. They come and go, and take what is held
for them.
-/

namespace TxDelivery

namespace Service

variable {κ : Type} [DecidableEq κ]

/-- Which of the two feeds is meant. -/
inductive FeedKind where
  /-- The feed of confirmations. -/
  | confirms
  /-- The feed of failures. -/
  | errors
  deriving DecidableEq, Repr

/-- What is logged when a subscriber takes an event. -/
def lagLog {α : Type} (f : Feed α) (id : SubscriptionId) : List Observation :=
  if f.lagged id then [.logged .eventsDropped] else []

/-- **A bookkeeper starts**: it sees every event published from now on. -/
def startBookkeeper (s : Service κ) : Move κ :=
  let (confirms, confirmFeed) := s.confirms.subscribe
  let (errors, errorFeed) := s.errors.subscribe
  ({ s with
      confirms := confirmFeed, errors := errorFeed,
      bookkeepers := s.bookkeepers ++ [⟨confirms, errors, .idle⟩] },
   [.logged .queueStarted])

/-- The queue is closed; bookkeepers stop when they next look. -/
def close (s : Service κ) : Service κ := { s with shutdown := s.shutdown.trigger }

/-- Asks for the status lock, to set the status of a key. -/
def requestMark (s : Service κ) (b : BookkeeperId) (key : κ) (status : TxStatus) : Service κ :=
  { s with statusLock := s.statusLock.enter (.bookkeeper b) .exclusive }.setBookkeeper b
    (.marking key status)

/-- A bookkeeper takes a confirmation. -/
def takeConfirm? (setup : Setup κ) (s : Service κ) (b : BookkeeperId) : Option (Move κ) := do
  let k ← s.bookkeepers[b]?
  match k.stage, s.confirms.receive k.confirms with
  | .idle, (some event, feed) =>
    some ({ s with confirms := feed }.requestMark b (setup.keyOf event.tx.tx) .finished,
      lagLog s.confirms k.confirms ++ if event.info.isEmpty then [] else [.logged .queuedConfirmed])
  | _, _ => none

/-- A bookkeeper takes a failure. -/
def takeError? (setup : Setup κ) (s : Service κ) (b : BookkeeperId) : Option (Move κ) := do
  let k ← s.bookkeepers[b]?
  match k.stage, s.errors.receive k.errors with
  | .idle, (some event, feed) =>
    some ({ s with errors := feed }.requestMark b (setup.keyOf event.tx.tx) .error,
      lagLog s.errors k.errors ++ [.logged .queuedFailed])
  | _, _ => none

/-- **A bookkeeper has the status lock** and sets the status of the key. -/
def mark? (s : Service κ) (b : BookkeeperId) : Option (Move κ) := do
  let k ← s.bookkeepers[b]?
  match k.stage with
  | .marking key status =>
    if s.statusLock.heldBy (.bookkeeper b) then
      some ({ s with
        statuses := s.statuses.set key status,
        statusLock := s.statusLock.leave (.bookkeeper b) }.setBookkeeper b .idle, [])
    else none
  | _ => none

/-- A bookkeeper looks at the shutdown signal and stops. -/
def stop? (s : Service κ) (b : BookkeeperId) : Option (Move κ) := do
  let k ← s.bookkeepers[b]?
  if k.stage = .idle ∧ s.shutdown.ready then
    some ({ s with
      confirms := s.confirms.unsubscribe k.confirms,
      errors := s.errors.unsubscribe k.errors }.setBookkeeper b .stopped, [.logged .queueStopped])
  else none

/-- Somebody subscribes to a feed. -/
def subscribe (s : Service κ) : FeedKind → Service κ
  | .confirms => { s with confirms := s.confirms.subscribe.2 }
  | .errors => { s with errors := s.errors.subscribe.2 }

/-- A subscriber takes everything held for it. -/
def drain (s : Service κ) (kind : FeedKind) (id : SubscriptionId) : Move κ :=
  match kind with
  | .confirms => ({ s with confirms := (s.confirms.drain id).2 }, lagLog s.confirms id)
  | .errors => ({ s with errors := (s.errors.drain id).2 }, lagLog s.errors id)

/-- A subscription ends. -/
def unsubscribe (s : Service κ) (kind : FeedKind) (id : SubscriptionId) : Service κ :=
  match kind with
  | .confirms => { s with confirms := s.confirms.unsubscribe id }
  | .errors => { s with errors := s.errors.unsubscribe id }

end Service

end TxDelivery
