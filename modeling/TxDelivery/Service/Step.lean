import TxDelivery.Service.Bookkeeping

/-!
# Runs of a service

A service goes on by steps (`TxDelivery.Service.step?`): callers begin and drop operations, the
chain and the signer reply, supervisors, listeners and bookkeepers act, listeners break down, and
time passes. **Which step comes next is left open**, so that the runs of a service
(`TxDelivery.Service.run?`) are all the orders in which its parties can act; a reply may come, and a
listener break down, at any time or never.

Time stands still while anybody can act without a reply, and never passes a timer that somebody
waits for (`TxDelivery.Service.mayWait`).

A step takes a party from one stage to the next. Between the two it does what it does at one stroke,
and that is no restriction: parties share nothing but what is in the state, and they touch what is
shared between two points of waiting. If several can act the order is open, also between the
supervisor of a delivery and its listener, and between a timer and a reply that come at the same
time.

What the chain and the signer answer is part of the action. Any reply is possible to any call,
whether it makes sense or not, and a service is to cope with it; where something is known of the
replies it is a condition on the run.

So parties that need no reply are taken to act at once, while replies take as long as they take. A
run can be checked step by step (`TxDelivery.Service.act?`), and everything here can be evaluated.
-/

namespace TxDelivery

/-- The steps of a service. -/
inductive Action (κ : Type) where
  /-- A caller begins an operation. -/
  | begin (request : Request κ)
  /-- A caller drops an operation. -/
  | drop (i : OperationId)
  /-- An operation goes on with the lock it waited for. -/
  | resume (i : OperationId)
  /-- The chain or the signer replies. -/
  | reply (who : Party) (reply : Reply)
  /-- A supervisor serves a tick. -/
  | tick (d : DeliveryId)
  /-- A supervisor gives up at the deadline. -/
  | expire (d : DeliveryId)
  /-- A supervisor learns that its listener is done. -/
  | join (d : DeliveryId)
  /-- A listener receives a variant. -/
  | receive (d : DeliveryId)
  /-- A listener serves a tick. -/
  | poll (d : DeliveryId)
  /-- A listener gives up at the deadline. -/
  | lapse (d : DeliveryId)
  /-- A listener breaks down. -/
  | crash (d : DeliveryId)
  /-- A bookkeeper starts. -/
  | startBookkeeper
  /-- The queue is closed. -/
  | close
  /-- A bookkeeper takes a confirmation. -/
  | takeConfirm (b : BookkeeperId)
  /-- A bookkeeper takes a failure. -/
  | takeError (b : BookkeeperId)
  /-- A bookkeeper sets a status. -/
  | mark (b : BookkeeperId)
  /-- A bookkeeper stops. -/
  | stop (b : BookkeeperId)
  /-- Somebody subscribes to a feed. -/
  | subscribe (feed : Service.FeedKind)
  /-- A subscriber takes everything held for it. -/
  | drain (feed : Service.FeedKind) (id : SubscriptionId)
  /-- A subscription ends. -/
  | unsubscribe (feed : Service.FeedKind) (id : SubscriptionId)
  /-- Some milliseconds pass. -/
  | wait (ms : Nat)
  deriving DecidableEq, Repr

namespace Service

variable {κ : Type} [DecidableEq κ]

/-- The reply goes to the party that waits for it. -/
def reply? (setup : Setup κ) (s : Service κ) (who : Party) (reply : Reply) : Option (Move κ) :=
  match who with
  | .operation i => s.replyOperation? setup i reply
  | .supervisor d => s.replySupervisor? setup d reply
  | .listener d => s.replyListener? setup d reply
  | .bookkeeper _ => none

/-- What a party is asking at the moment. -/
def pending? (s : Service κ) (setup : Setup κ) : Party → Option Call
  | .operation i => do
    match (← s.operations[i]?).stage with
    | .submitting sub =>
      match sub.stage with
      | .pricing => some .gasPrice
      | .estimating => some (.estimateGas sub.tx)
      | .fetching => some (.nonce setup.address)
      | .signing n => some (.sign { sub.tx with nonce := n })
      | .broadcasting signed _ => some (.broadcast signed)
      | .queued | .resetting _ => none
    | .estimating =>
      match (← s.operations[i]?).request with
      | .estimate tx => some (.estimateGas tx)
      | _ => none
    | .replacing e => some e.call
    | _ => none
  | .supervisor d => do (← s.deliveries[d]?).call?
  | .listener d => do (← s.deliveries[d]?).listener.call?
  | .bookkeeper _ => none

/-- What the parties may do on their own: everything but what callers, the chain and time do, and
but breaking down. -/
def ownActions (s : Service κ) : List (Action κ) :=
  (List.range s.operations.length).map .resume
  ++ (List.range s.deliveries.length).flatMap (fun d =>
    [.receive d, .join d, .expire d, .tick d, .poll d, .lapse d])
  ++ (List.range s.bookkeepers.length).flatMap (fun b =>
    [.mark b, .stop b, .takeConfirm b, .takeError b])

/-- **A step in which no time passes**, if it is possible now. -/
def act? (setup : Setup κ) (s : Service κ) : Action κ → Option (Move κ)
  | .begin request => some (s.begin setup request)
  | .drop i => s.drop? i
  | .resume i => s.resume? setup i
  | .reply who reply => s.reply? setup who reply
  | .tick d => s.tick? d
  | .expire d => s.expire? setup d
  | .join d => s.join? d
  | .receive d => s.receive? d
  | .poll d => s.poll? d
  | .lapse d => s.lapse? d
  | .crash d => s.crash? d
  | .startBookkeeper => some s.startBookkeeper
  | .close => some (s.close, [])
  | .takeConfirm b => s.takeConfirm? setup b
  | .takeError b => s.takeError? setup b
  | .mark b => s.mark? b
  | .stop b => s.stop? b
  | .subscribe feed => some (s.subscribe feed, [])
  | .drain feed id => some (s.drain feed id)
  | .unsubscribe feed id => some (s.unsubscribe feed id, [])
  | .wait _ => none

/-- Whether nobody can act without a reply. -/
def isSettled (setup : Setup κ) (s : Service κ) : Bool :=
  s.ownActions.all fun a => (s.act? setup a).isNone

/-- The timers somebody waits for. -/
def timers (s : Service κ) : List Nat :=
  s.deliveries.flatMap fun x =>
    (if x.isWaiting then [x.ticker.due, x.deadline] else [])
    ++ if x.listener.isWaiting then [x.listener.ticker.due, x.deadline] else []

/-- Whether `ms` milliseconds may pass: nobody can act, and no timer goes off in between. -/
def mayWait (setup : Setup κ) (s : Service κ) (ms : Nat) : Bool :=
  s.isSettled setup && s.timers.all fun t => s.now + ms ≤ t

/-- **A step of a service**, if it is possible now. -/
def step? (setup : Setup κ) (s : Service κ) (a : Action κ) : Option (Move κ) :=
  match a with
  | .wait ms => if s.mayWait setup ms then some ({ s with now := s.now + ms }, []) else none
  | a => s.act? setup a

/-- One step of a run: when it was taken, what was done, and what was seen of it. -/
structure Moment (κ : Type) where
  /-- The time of the step. -/
  time : Nat
  /-- What was done. -/
  action : Action κ
  /-- What was seen. -/
  seen : List Observation
  deriving DecidableEq, Repr

/-- **A run of a service**: the steps one after another, with what was seen of them, if all of them
are possible. -/
def run? (setup : Setup κ) (s : Service κ) : List (Action κ) → Option (Service κ × List (Moment κ))
  | [] => some (s, [])
  | a :: as => do
    let (t, seen) ← s.step? setup a
    let (u, moments) ← run? setup t as
    some (u, ⟨s.now, a, seen⟩ :: moments)

end Service

end TxDelivery
