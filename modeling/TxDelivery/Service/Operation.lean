import TxDelivery.Service.Submission

/-!
# Operations

What callers begin: sends of three kinds, estimates, replacements, and the small operations on nonce
and statuses. An operation goes on when it gets the lock it waits for (`TxDelivery.Service.resume?`)
or a reply (`TxDelivery.Service.replyOperation?`), and **its caller can drop it at any moment, upon
which it leaves its locks and takes the delivery it was waiting for with it**
(`TxDelivery.Service.drop?`).

An operation does its first part when it is begun: up to the first thing it has to wait for, which
is a call for some and a lock for others. It is not known beforehand whether a lock has to be waited
for. Every operation that needs one enters the line and goes on in a step of its own, at once if the
line was empty.

To drop an operation undoes nothing. What it was waiting for is forgotten: a call that was made may
still be answered, and the answer is nobody's. What it had done stays, a nonce that was handed out,
a key that was made pending, a broadcast that reached the node. A delivery stays if nobody waits for
it. One that an operation waits for goes with it, with its listener, and publishes nothing.
-/

namespace TxDelivery

namespace Service

variable {κ : Type} [DecidableEq κ]

/-- An operation ends. -/
def finish (s : Service κ) (i : OperationId) (answer : Answer) : Service κ :=
  s.setOperation i (.ended answer)

/-- Asks for the status lock. -/
def enterStatuses (s : Service κ) (i : OperationId) (access : Access) : Service κ :=
  { s with statusLock := s.statusLock.enter (.operation i) access }

/-- Leaves the status lock. -/
def leaveStatuses (s : Service κ) (i : OperationId) : Service κ :=
  { s with statusLock := s.statusLock.leave (.operation i) }

/-- **A caller begins an operation**, which takes the next place among the operations. -/
def begin (setup : Setup κ) (s : Service κ) (request : Request κ) : Move κ :=
  let i := s.operations.length
  let s := { s with operations := s.operations ++ [(⟨request, .entering⟩ : Operation κ)] }
  match request with
  | .send tx options => s.submit setup i .detached tx options
  | .sendAndWait tx options => s.submit setup i .attached tx options
  | .enqueue _ _ | .mark _ _ => (s.enterStatuses i .exclusive, [])
  | .status _ => (s.enterStatuses i .shared, [])
  | .estimate tx =>
    (s.setOperation i .estimating, [.called (.operation i) (.estimateGas tx)])
  | .replace base options =>
    let e := Escalation.start base options
    (s.setOperation i (.replacing e), [.called (.operation i) e.call])
  | .resetNonce =>
    ({ s with nonceLock := s.nonceLock.enter i .exclusive }.setOperation i .resetting, [])

/-- **A send through the queue has the status lock.** A key that is under way or finished needs no
broadcast. Otherwise the key counts as under way, and the lock is kept until the first broadcast is
answered. -/
def enqueue (setup : Setup κ) (s : Service κ) (i : OperationId) (tx : Transaction)
    (options : DeliveryOptions) : Move κ :=
  let key := setup.keyOf tx
  let unneeded (decision : QueueDecision) (event : LogEvent) : Move κ :=
    (((s.count (.queueSend decision)).leaveStatuses i).finish i (.enqueued none), [.logged event])
  let proceed (previous : TxStatus) : Move κ :=
    let s := { s with statuses := s.statuses.set key .pending }
    s.submit setup i (.queue key previous) tx options
  match s.statuses.get key with
  | .pending => unneeded .pending .keyPending
  | .finished => unneeded .finished .keyFinished
  | .error =>
    let (s, seen) := proceed .error
    (s, .logged .keyRetried :: seen)
  | .notFound => proceed .notFound

/-- An operation that waited for the status lock goes on with it. -/
def enterRequest (setup : Setup κ) (s : Service κ) (i : OperationId) :
    Request κ → Option (Move κ)
  | .enqueue tx options => some (s.enqueue setup i tx options)
  | .mark tx status =>
    let s := { s with statuses := s.statuses.set (setup.keyOf tx) status }
    some ((s.leaveStatuses i).finish i .done, [])
  | .status key => some ((s.leaveStatuses i).finish i (.status (s.statuses.get key)), [])
  | _ => none

/-- **An operation goes on with the lock it waited for**, once the lock belongs to it. -/
def resume? (setup : Setup κ) (s : Service κ) (i : OperationId) : Option (Move κ) := do
  let o ← s.operations[i]?
  match o.stage with
  | .entering =>
    if s.statusLock.heldBy (.operation i) then s.enterRequest setup i o.request else none
  | .submitting sub => if s.nonceLock.heldBy i then s.resumeSubmission setup i sub else none
  | .resetting =>
    if s.nonceLock.heldBy i then some ((s.forgetNonce i).finish i .done, []) else none
  | _ => none

/-- The log of an escalation that ended without an error. -/
def escalationLog : Option SignedTx → List Observation
  | none => [.logged .priceCompetitive]
  | some _ => []

/-- **An operation goes on with the reply it waited for.** -/
def replyOperation? (setup : Setup κ) (s : Service κ) (i : OperationId) (reply : Reply) :
    Option (Move κ) := do
  let o ← s.operations[i]?
  match o.stage, reply with
  | .submitting sub, reply => s.replySubmission setup i sub reply
  | .estimating, .gas g => some (s.finish i (.gas g), [])
  | .estimating, .failed e => some (s.finish i (.failed (.estimateGas e)), [])
  | .replacing e, reply =>
    match ← e.advance? setup.config.priceBumpPercent reply with
    | .asking e => some (s.setOperation i (.replacing e), [.called (.operation i) e.call])
    | .ended (.ok tx) => some (s.finish i (.replacement tx), escalationLog tx)
    | .ended (.error e) => some (s.finish i (.failed e), [])
  | _, _ => none

/-- **A caller drops an operation.** Whatever it was waiting for is forgotten; what it had done
stays. -/
def drop? (s : Service κ) (i : OperationId) : Option (Move κ) := do
  let o ← s.operations[i]?
  if o.isOpen then
    let s := ((s.leaveNonce i).leaveStatuses i).setOperation i .dropped
    match o.stage with
    | .supervising d => some ({ s with deliveries := s.deliveries.modify d Delivery.abandon }, [])
    | _ => some (s, [])
  else none

end Service

end TxDelivery
