/-!
# Event feeds

A feed hands every event to each subscriber registered when it is published. Publishing never waits:
the feed keeps its last `capacity` events, and **a subscriber that has fallen further behind
continues with the oldest event still held**.

* `TxDelivery.Feed` counts all events published and holds the most recent of them; a subscriber is a
  position in that count.
* `TxDelivery.Feed.held` lists what a subscriber can still receive.
* `TxDelivery.Feed.receive` takes the next event and tells whether events were lost before it;
  `TxDelivery.Feed.poll` is the same seen by a waiting subscriber, who learns whether more can come.

Subscribers do not have queues of their own. There is one list of events for all of them, and how
far each has come is a number; so a slow subscriber costs nothing, and publishing is the same
however many there are. An event that nobody can ask for is not kept: one that was published before
anybody subscribed, and one that is behind all that the feed has room for.

What a subscriber has lost is told by comparing two numbers, its own and that of the oldest event
held. It moves past what is lost only when it takes something.
-/

namespace TxDelivery

/-- Identifies a subscription within its feed. -/
abbrev SubscriptionId := Nat

/-- The smallest power of two that is not below `n`. -/
def nextPowerOfTwo (n : Nat) : Nat :=
  if n ≤ 1 then 1 else Nat.pow 2 (Nat.log2 (n - 1) + 1)

/-- An event feed with its subscribers. -/
structure Feed (α : Type) where
  /-- How many events are kept. -/
  capacity : Nat
  /-- How many events were ever published. -/
  published : Nat
  /-- The events still held, oldest first: the last ones published. -/
  retained : List α
  /-- Whether more events can be published. -/
  alive : Bool
  /-- The subscriptions with the number of events each has moved past. -/
  cursors : List (SubscriptionId × Nat)
  /-- The name of the next subscription. -/
  nextId : SubscriptionId
  deriving Repr, DecidableEq

namespace Feed

variable {α : Type}

/-- How many events a feed keeps unless told otherwise. -/
def defaultCapacity : Nat := 64

/-- A feed that keeps at least `capacity` events; the number is rounded up to a power of two, and a
feed that could keep none is refused. -/
def create? (capacity : Nat) : Option (Feed α) :=
  if capacity = 0 then none
  else some
    { capacity := nextPowerOfTwo capacity, published := 0, retained := [], alive := true,
      cursors := [], nextId := 0 }

/-- A feed of the default capacity. -/
def empty : Feed α :=
  { capacity := nextPowerOfTwo defaultCapacity, published := 0, retained := [], alive := true,
    cursors := [], nextId := 0 }

instance : Inhabited (Feed α) := ⟨empty⟩

/-- How many subscribers there are. -/
def subscribers (f : Feed α) : Nat := f.cursors.length

/-- A new subscription, which sees the events published from now on. -/
def subscribe (f : Feed α) : SubscriptionId × Feed α :=
  (f.nextId, { f with
    cursors := f.cursors ++ [(f.nextId, f.published)], nextId := f.nextId + 1 })

/-- Ends a subscription. -/
def unsubscribe (f : Feed α) (id : SubscriptionId) : Feed α :=
  { f with cursors := f.cursors.filter fun c => c.1 != id }

/-- **Publishing an event** hands it to every subscriber. Without subscribers it is forgotten, as
nobody can ever ask for it. -/
def publish (f : Feed α) (event : α) : Feed α :=
  if f.cursors.isEmpty then f
  else
    let kept := f.retained ++ [event]
    { f with published := f.published + 1, retained := kept.drop (kept.length - f.capacity) }

/-- Ends the feed; what it holds can still be received. -/
def close (f : Feed α) : Feed α := { f with alive := false }

/-- The number of the oldest event still held. -/
def oldest (f : Feed α) : Nat := f.published - f.retained.length

/-- The position of a subscriber. -/
def cursor? (f : Feed α) (id : SubscriptionId) : Option Nat :=
  (f.cursors.find? fun c => c.1 == id).map (·.2)

/-- Moves a subscriber to a position. -/
def seek (f : Feed α) (id : SubscriptionId) (position : Nat) : Feed α :=
  { f with cursors := f.cursors.map fun c => if c.1 == id then (id, position) else c }

/-- **What a subscriber can still receive**, oldest first. -/
def held (f : Feed α) (id : SubscriptionId) : List α :=
  match f.cursor? id with
  | none => []
  | some p => f.retained.drop (p - f.oldest)

/-- Whether events were lost before the next one a subscriber receives. -/
def lagged (f : Feed α) (id : SubscriptionId) : Bool :=
  match f.cursor? id with
  | none => false
  | some p => p < f.oldest

/-- **Taking the next event**: the oldest one held for the subscriber, who moves just past it. -/
def receive (f : Feed α) (id : SubscriptionId) : Option α × Feed α :=
  match f.cursor? id with
  | none => (none, f)
  | some p =>
    let p := max p f.oldest
    match f.retained[p - f.oldest]? with
    | some event => (some event, f.seek id (p + 1))
    | none => (none, f.seek id p)

/-- What a waiting subscriber learns. -/
inductive Poll (α : Type) where
  /-- The next event. -/
  | event (e : α)
  /-- Nothing is held, and more can come. -/
  | pending
  /-- Nothing is held, and nothing more will come. -/
  | closed
  deriving Repr, DecidableEq

/-- One look of a waiting subscriber. -/
def poll (f : Feed α) (id : SubscriptionId) : Poll α × Feed α :=
  match f.receive id with
  | (some e, f) => (.event e, f)
  | (none, f) => (if f.alive then .pending else .closed, f)

/-- Taking everything held for a subscriber. -/
def drain (f : Feed α) (id : SubscriptionId) : List α × Feed α :=
  match f.cursor? id with
  | none => ([], f)
  | some p => (f.held id, f.seek id (max p f.published))

end Feed

end TxDelivery
