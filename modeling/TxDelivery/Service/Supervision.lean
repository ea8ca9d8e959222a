import TxDelivery.Service.Operation

/-!
# Supervised deliveries

Once its first broadcast is accepted a delivery is supervised. At every tick the supervisor tries to
replace the current variant by one that pays more; it ends the delivery when the listener found a
final variant, when the deadline passed, or when the next price would pass the ceiling. **Nothing
else ends a delivery**, and while a replacement is made or broadcast the supervisor attends to
nothing else.

So a tick, once begun, is carried through. The deadline may pass meanwhile and the listener may find
a final variant, and the supervisor sees neither before it is waiting again
(`TxDelivery.Delivery.isWaiting`). When it does, whatever is ready may come first: there is no order
among the deadline, the listener and a tick that is due.

The current variant is the last one the node accepted. A replacement that was signed is not current
yet; if the node refuses it, it is forgotten, and the next tick starts from the current variant
again. Only with the acceptance is the listener told (`TxDelivery.Delivery.adopt`). In this way the
variants that are watched are variants the node has.

A delivery ends in one place (`TxDelivery.Service.conclude`), whatever the reason, where the outcome
is counted, published and handed over, and the watch is stopped. A listener that gave up or broke
down does not end the delivery. The supervisor takes note of it, so as not to wait for it any more,
and goes on without.
-/

namespace TxDelivery

namespace Service

variable {κ : Type} [DecidableEq κ]

/-- What is logged when a delivery ends. -/
def outcomeLog : Outcome → LogEvent
  | .confirmed _ => .confirmed
  | .failed _ => .failed

/-- Publishes an outcome on its feed. -/
def publish (s : Service κ) : Outcome → Service κ
  | .confirmed e => { s with confirms := s.confirms.publish e }
  | .failed e => { s with errors := s.errors.publish e }

/-- Hands an outcome to the operation that waits for it. -/
def deliverTo (s : Service κ) (owner : Option OperationId) (outcome : Outcome) : Service κ :=
  match owner with
  | none => s
  | some i => s.finish i (.delivered outcome)

/-- **A delivery ends**: the outcome is counted, published and handed to the caller who waits for
it, and the watch over the variants ends. -/
def conclude (s : Service κ) (d : DeliveryId) (x : Delivery) (outcome : Outcome) : Move κ :=
  let s := (s.count (.outcome outcome.kind)).publish outcome
  let s := s.setDelivery d { x with stage := .ended outcome, listener := x.listener.stop }
  (s.deliverTo x.owner outcome, [.logged (outcomeLog outcome), .published d outcome])

/-- **The supervisor serves a tick**: an escalation of the current variant begins. -/
def tick? (s : Service κ) (d : DeliveryId) : Option (Move κ) := do
  let x ← s.deliveries[d]?
  if x.isWaiting && x.ticker.isDue s.now then
    let e := Escalation.start x.current x.options
    some (s.setDelivery d { x with ticker := x.ticker.serve s.now, stage := .replacing e },
      [.called (.supervisor d) e.call])
  else none

/-- **The deadline passed**: the delivery is given up. -/
def expire? (setup : Setup κ) (s : Service κ) (d : DeliveryId) : Option (Move κ) := do
  let x ← s.deliveries[d]?
  if x.isWaiting && decide (x.deadline ≤ s.now) then
    some (s.conclude d x (.failed ⟨x.current, .timeout setup.config.period⟩))
  else none

/-- **The supervisor learns that the listener is done.** A final variant confirms the delivery; a
listener that gave up at the deadline or broke down changes nothing: the supervisor has a deadline
of its own. -/
def join? (s : Service κ) (d : DeliveryId) : Option (Move κ) := do
  let x ← s.deliveries[d]?
  if x.isWaiting && !x.joined then
    match ← x.listener.result? with
    | .ok (some mined) => some (s.conclude d x (.confirmed ⟨mined, x.options.info⟩))
    | .ok none => some (s.setDelivery d { x with joined := true }, [])
    | .error () => some (s.setDelivery d { x with joined := true }, [.logged .watchStopped])
  else none

/-- An escalation of a supervised delivery goes on. Only a price above the ceiling ends the
delivery; any other failure is tried again at the next tick. -/
def escalate (s : Service κ) (d : DeliveryId) (x : Delivery) : Escalation.Progress → Move κ
  | .asking e =>
    (s.setDelivery d { x with stage := .replacing e }, [.called (.supervisor d) e.call])
  | .ended (.ok none) => (s.setDelivery d { x with stage := .waiting }, escalationLog none)
  | .ended (.ok (some replacement)) =>
    (s.setDelivery d { x with stage := .rebroadcasting replacement },
     [.called (.supervisor d) (.broadcast replacement)])
  | .ended (.error e) =>
    if e.isTerminal then s.conclude d x (.failed ⟨x.current, e⟩)
    else (s.setDelivery d { x with stage := .waiting }, [.logged .replacementFailed])

/-- **The supervisor goes on with the reply it waited for.** A replacement becomes the current
variant only when the node accepts it. -/
def replySupervisor? (setup : Setup κ) (s : Service κ) (d : DeliveryId) (reply : Reply) :
    Option (Move κ) := do
  let x ← s.deliveries[d]?
  match x.stage, reply with
  | .replacing e, reply =>
    let progress ← e.advance? setup.config.priceBumpPercent reply
    some (s.escalate d x progress)
  | .rebroadcasting replacement, .accepted _ =>
    let s := s.count (.rebroadcast true)
    let s := { s with metrics := s.metrics.recordPrice replacement.tx.gasPrice }
    some (s.setDelivery d (x.adopt replacement), [.logged .rebroadcast])
  | .rebroadcasting _, .failed _ =>
    some ((s.count (.rebroadcast false)).setDelivery d { x with stage := .waiting },
      [.logged .rebroadcastRejected])
  | _, _ => none

/-- A step of the listener of a delivery, and what the listener asks next. -/
def setListener (s : Service κ) (d : DeliveryId) (x : Delivery) (l : Listener)
    (log : List LogEvent) : Move κ :=
  (s.setDelivery d { x with listener := l },
   log.map .logged ++ l.call?.toList.map (.called (.listener d)))

/-- The listener receives a variant. -/
def receive? (s : Service κ) (d : DeliveryId) : Option (Move κ) := do
  let x ← s.deliveries[d]?
  let l ← x.listener.receive?
  some (s.setListener d x l [])

/-- The listener serves a tick. -/
def poll? (s : Service κ) (d : DeliveryId) : Option (Move κ) := do
  let x ← s.deliveries[d]?
  let l ← x.listener.poll? s.now
  some (s.setListener d x l [])

/-- The listener gives up at the deadline. -/
def lapse? (s : Service κ) (d : DeliveryId) : Option (Move κ) := do
  let x ← s.deliveries[d]?
  let l ← x.listener.lapse? s.now x.deadline
  some (s.setListener d x l [.watchLapsed])

/-- The listener breaks down. -/
def crash? (s : Service κ) (d : DeliveryId) : Option (Move κ) := do
  let x ← s.deliveries[d]?
  let l ← x.listener.crash?
  some (s.setListener d x l [])

/-- **The listener goes on with the reply it waited for.** -/
def replyListener? (setup : Setup κ) (s : Service κ) (d : DeliveryId) (reply : Reply) :
    Option (Move κ) := do
  let x ← s.deliveries[d]?
  let (l, log) ← x.listener.advance? setup.config.confirmHeight reply
  some (s.setListener d x l log)

end Service

end TxDelivery
