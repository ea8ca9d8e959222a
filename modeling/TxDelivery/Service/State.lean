import TxDelivery.Config.Basic
import TxDelivery.Delivery.Feed
import TxDelivery.Service.Escalation
import TxDelivery.Service.FairLock
import TxDelivery.Service.Listener
import TxDelivery.Service.Metrics
import TxDelivery.Shutdown

/-!
# The state of a service

A service delivers transactions for one signer. Callers begin operations (`TxDelivery.Operation`);
an accepted broadcast turns into a delivery (`TxDelivery.Delivery`), supervised until it is
confirmed or given up; a queue on top keeps one status per key (`TxDelivery.StatusTable`), brought
up to date by bookkeepers (`TxDelivery.Bookkeeper`) that follow the event feeds.
`TxDelivery.Service` is all of this at one moment.

Two locks order the operations. The nonce lock is held while a nonce is found and signed for; the
status lock is held by a send through the queue until its first broadcast is answered.

## Stages

Operations, supervisors, listeners and bookkeepers run side by side, and each of them is a program
that stops wherever it has to wait: for a reply, for a lock, for a timer. Between two such points
nothing else can happen to what it works on, so that how far a party has come is told by the point
at which it waits, with whatever it still needs from before. These are its stages. Wherever a
program would hold a value over a wait, the stage has it as an argument: the nonce while the
transaction is signed, the signed transaction while it is broadcast, the status a key is to get back
while its first broadcast is under way.

Nobody is ever removed. An operation that has ended keeps its place with its answer, a delivery
keeps its place with its outcome, and so a place is a name for all time. What is under way is told
by the stages alone.
-/

namespace TxDelivery

/-- What stays as it is while a service runs. Keys tell logical transactions apart in the queue. -/
structure Setup (κ : Type) where
  /-- The settings of deliveries. -/
  config : DeliveryConfig
  /-- The account of the signer. -/
  address : Address
  /-- The key of a transaction. -/
  keyOf : Transaction → κ

namespace Setup

variable {κ : Type}

/-- How a service is shown to operators. -/
def describe (setup : Setup κ) : String :=
  recordText "TxManager"
    [("address", Hex.encodeWord setup.address), ("config", setup.config.describe)]

/-- How the queue of a service is shown to operators. -/
def describeQueue (setup : Setup κ) : String :=
  recordText "QueueManager" [("tx_manager", setup.describe)]

end Setup

/-! ### Operations -/

/-- What callers ask of a service. -/
inductive Request (κ : Type) where
  /-- To broadcast a transaction; its delivery goes on by itself. -/
  | send (tx : Transaction) (options : DeliveryOptions)
  /-- To broadcast a transaction and wait for the outcome. -/
  | sendAndWait (tx : Transaction) (options : DeliveryOptions)
  /-- To broadcast a transaction unless its key is under way or finished. -/
  | enqueue (tx : Transaction) (options : DeliveryOptions)
  /-- To estimate the gas of a transaction. -/
  | estimate (tx : Transaction)
  /-- To make a replacement of a variant, if one is needed. -/
  | replace (base : SignedTx) (options : DeliveryOptions)
  /-- To forget the nonce. -/
  | resetNonce
  /-- To set the status of a transaction's key. -/
  | mark (tx : Transaction) (status : TxStatus)
  /-- To read the status of a key. -/
  | status (key : κ)
  deriving DecidableEq, Repr

/-- What callers get. -/
inductive Answer where
  /-- The hash of the first broadcast. -/
  | sent (hash : Hash)
  /-- The outcome that was waited for. -/
  | delivered (outcome : Outcome)
  /-- The hash of the first broadcast, or nothing if the queue had no need of one. -/
  | enqueued (hash : Option Hash)
  /-- An estimate. -/
  | gas (g : UInt64)
  /-- A replacement, if one is needed. -/
  | replacement (tx : Option SignedTx)
  /-- A status. -/
  | status (s : TxStatus)
  /-- That it was done. -/
  | done
  /-- Why it could not be done. -/
  | failed (error : DeliveryError)
  deriving DecidableEq, Repr

/-- Who asked for a broadcast. -/
inductive Origin (κ : Type) where
  /-- A caller who wants the hash. -/
  | detached
  /-- A caller who waits for the outcome. -/
  | attached
  /-- The queue, for a key that had the status `previous`. -/
  | queue (key : κ) (previous : TxStatus)
  deriving DecidableEq, Repr

/-- How far a first broadcast has come. -/
inductive Submission.Stage where
  /-- The market price is asked for. -/
  | pricing
  /-- Gas is estimated. -/
  | estimating
  /-- The nonce lock is waited for. -/
  | queued
  /-- The nonce is asked for; the nonce lock is held. -/
  | fetching
  /-- The transaction is signed with its nonce; the nonce lock is held. -/
  | signing (nonce : Nonce)
  /-- The transaction is broadcast; its delivery would end at `deadline`. -/
  | broadcasting (signed : SignedTx) (deadline : Nat)
  /-- The nonce proved too low; the nonce lock is waited for, to forget it. -/
  | resetting (error : ChainError)
  deriving DecidableEq, Repr

/-- A first broadcast in the making. -/
structure Submission (κ : Type) where
  /-- Who asked for it. -/
  origin : Origin κ
  /-- The transaction as far as it is filled in. -/
  tx : Transaction
  /-- What the caller asked for. -/
  options : DeliveryOptions
  /-- How far it has come. -/
  stage : Submission.Stage
  deriving DecidableEq, Repr

/-- How far an operation has come. -/
inductive Operation.Stage (κ : Type) where
  /-- The status lock is waited for. -/
  | entering
  /-- A first broadcast is made. -/
  | submitting (s : Submission κ)
  /-- The outcome of a delivery is waited for. -/
  | supervising (d : DeliveryId)
  /-- Gas is estimated. -/
  | estimating
  /-- A replacement is made. -/
  | replacing (e : Escalation)
  /-- The nonce lock is waited for, to forget the nonce. -/
  | resetting
  /-- The operation ended. -/
  | ended (answer : Answer)
  /-- The caller dropped the operation. -/
  | dropped
  deriving DecidableEq, Repr

/-- Something a caller began. -/
structure Operation (κ : Type) where
  /-- What was asked for. -/
  request : Request κ
  /-- How far it has come. -/
  stage : Operation.Stage κ
  deriving DecidableEq, Repr

namespace Operation

variable {κ : Type}

/-- What an operation got, once it ended. -/
def answer? (o : Operation κ) : Option Answer :=
  match o.stage with
  | .ended a => some a
  | _ => none

/-- Whether an operation can still go on. -/
def isOpen (o : Operation κ) : Bool :=
  match o.stage with
  | .ended _ | .dropped => false
  | _ => true

end Operation

/-! ### Deliveries -/

/-- What the supervisor of a delivery is doing. -/
inductive Supervisor.Stage where
  /-- It waits for its next tick, for the listener or for the deadline. -/
  | waiting
  /-- A replacement is made. -/
  | replacing (e : Escalation)
  /-- A replacement is broadcast. -/
  | rebroadcasting (replacement : SignedTx)
  /-- The delivery ended. -/
  | ended (outcome : Outcome)
  /-- The caller who waited for the delivery dropped it. -/
  | dropped
  deriving DecidableEq, Repr

/-- An accepted broadcast under supervision. -/
structure Delivery where
  /-- The operation that waits for the outcome, if any. -/
  owner : Option OperationId
  /-- What the caller asked for. -/
  options : DeliveryOptions
  /-- When the delivery is given up. -/
  deadline : Nat
  /-- The last variant the node accepted. -/
  current : SignedTx
  /-- When the price is looked at again. -/
  ticker : Ticker
  /-- What the supervisor is doing. -/
  stage : Supervisor.Stage
  /-- Whether the supervisor has seen that the listener is done. -/
  joined : Bool
  /-- The watch over the variants. -/
  listener : Listener
  deriving DecidableEq, Repr

namespace Delivery

/-- A delivery that starts now with its first variant. -/
def start (config : DeliveryConfig) (now : Nat) (owner : Option OperationId)
    (options : DeliveryOptions) (deadline : Nat) (first : SignedTx) : Delivery :=
  { owner := owner, options := options, deadline := deadline, current := first,
    ticker := .start now config.changeIntervalMs, stage := .waiting, joined := false,
    listener := .start now config.listenIntervalMs first }

/-- Whether the supervisor is waiting. -/
def isWaiting (x : Delivery) : Bool := x.stage = .waiting

/-- Whether a delivery is still supervised. -/
def isOpen (x : Delivery) : Bool :=
  match x.stage with
  | .ended _ | .dropped => false
  | _ => true

/-- What the supervisor is asking. -/
def call? (x : Delivery) : Option Call :=
  match x.stage with
  | .replacing e => some e.call
  | .rebroadcasting replacement => some (.broadcast replacement)
  | .waiting | .ended _ | .dropped => none

/-- The delivery once its caller has dropped it; the watch ends with it. -/
def abandon (x : Delivery) : Delivery :=
  { x with stage := .dropped, listener := x.listener.stop }

/-- The delivery with a variant the node accepted; the listener is told. -/
def adopt (x : Delivery) (replacement : SignedTx) : Delivery :=
  { x with current := replacement, stage := .waiting, listener := x.listener.notify replacement }

end Delivery

/-! ### The queue -/

/-- The statuses of the keys something is known of. -/
structure StatusTable (κ : Type) where
  /-- The keys with their statuses. -/
  entries : List (κ × TxStatus)
  deriving DecidableEq, Repr

namespace StatusTable

variable {κ : Type} [DecidableEq κ]

/-- Nothing is known yet. -/
def empty : StatusTable κ := ⟨[]⟩

instance : Inhabited (StatusTable κ) := ⟨⟨[]⟩⟩

/-- **The status of a key**; a key nothing is known of is not found. -/
def get (t : StatusTable κ) (key : κ) : TxStatus := (t.entries.lookup key).getD .notFound

/-- Forgets a key. -/
def erase (t : StatusTable κ) (key : κ) : StatusTable κ :=
  ⟨t.entries.filter fun e => e.1 ≠ key⟩

/-- Sets the status of a key. -/
def set (t : StatusTable κ) (key : κ) (status : TxStatus) : StatusTable κ :=
  if t.entries.any fun e => e.1 = key then
    ⟨t.entries.map fun e => if e.1 = key then (key, status) else e⟩
  else ⟨t.entries ++ [(key, status)]⟩

/-- Gives a key the status it had before; a key that was not found is forgotten. -/
def restore (t : StatusTable κ) (key : κ) (previous : TxStatus) : StatusTable κ :=
  if previous = .notFound then t.erase key else t.set key previous

end StatusTable

/-- What a bookkeeper is doing. -/
inductive Bookkeeper.Stage (κ : Type) where
  /-- It waits for an event or for the shutdown. -/
  | idle
  /-- It waits for the status lock, to set the status of a key. -/
  | marking (key : κ) (status : TxStatus)
  /-- It was told to stop. -/
  | stopped
  deriving DecidableEq, Repr

/-- A follower of both feeds that keeps the statuses up to date. -/
structure Bookkeeper (κ : Type) where
  /-- Its subscription to confirmations. -/
  confirms : SubscriptionId
  /-- Its subscription to failures. -/
  errors : SubscriptionId
  /-- What it is doing. -/
  stage : Bookkeeper.Stage κ
  deriving DecidableEq, Repr

/-! ### The service -/

/-- A service at one moment. Operations, deliveries and bookkeepers are named by their places. -/
structure Service (κ : Type) where
  /-- The time in milliseconds. -/
  now : Nat
  /-- What is known of the next nonce. -/
  nonce : NonceState
  /-- The lock around the nonce. -/
  nonceLock : FairLock OperationId
  /-- The statuses of the queue. -/
  statuses : StatusTable κ
  /-- The lock around the statuses. -/
  statusLock : FairLock Party
  /-- The feed of confirmations. -/
  confirms : Feed ConfirmEvent
  /-- The feed of failures. -/
  errors : Feed ErrorEvent
  /-- The signal at which bookkeepers stop. -/
  shutdown : Shutdown
  /-- Everything callers began. -/
  operations : List (Operation κ)
  /-- Every delivery that was started. -/
  deliveries : List Delivery
  /-- Every bookkeeper that was started. -/
  bookkeepers : List (Bookkeeper κ)
  /-- What was counted. -/
  metrics : Metrics

/-- What a step leads to: the next state and what is seen of the step. -/
abbrev Move (κ : Type) := Service κ × List Observation

namespace Service

variable {κ : Type}

/-- A service nobody has used yet. -/
def start : Service κ :=
  { now := 0, nonce := .unknown, nonceLock := .free, statuses := ⟨[]⟩, statusLock := .free,
    confirms := .empty, errors := .empty, shutdown := .create, operations := [], deliveries := [],
    bookkeepers := [], metrics := {} }

instance : Inhabited (Service κ) := ⟨start⟩

/-- Puts an operation into a stage. -/
def setOperation (s : Service κ) (i : OperationId) (stage : Operation.Stage κ) : Service κ :=
  { s with operations := s.operations.modify i fun o => { o with stage := stage } }

/-- Replaces a delivery. -/
def setDelivery (s : Service κ) (d : DeliveryId) (x : Delivery) : Service κ :=
  { s with deliveries := s.deliveries.set d x }

/-- Puts a bookkeeper into a stage. -/
def setBookkeeper (s : Service κ) (b : BookkeeperId) (stage : Bookkeeper.Stage κ) : Service κ :=
  { s with bookkeepers := s.bookkeepers.modify b fun k => { k with stage := stage } }

/-- Counts something. -/
def count (s : Service κ) (c : Counter) : Service κ := { s with metrics := s.metrics.increment c }

end Service

end TxDelivery
