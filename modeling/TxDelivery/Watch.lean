/-!
# Watch channels

A watch channel holds one value, which its sender replaces. Its receivers can look at the value at
any time, and can wait for a value they want; **only the present value is ever seen**, and replacing
it waits for nobody.

* `TxDelivery.Watch` counts how often its value was replaced, and how often those who sleep were
  woken. A receiver (`TxDelivery.Watch.Receiver`) knows which of the values it has seen and, while
  it waits, since which of the wake-ups.
* `TxDelivery.Watch.poll` is one poll of a wait. **A wait begins with a look at the value**,
  whatever the receiver has seen before; once it sleeps it has to be woken, and after that it looks
  again only at a value the receiver has not seen.
-/

namespace TxDelivery

/-- A value one sender shares with any number of receivers. -/
structure Watch (α : Type) where
  /-- The present value. -/
  value : α
  /-- How often the value was replaced. -/
  version : Nat
  /-- How often those who sleep were woken. -/
  wakes : Nat
  /-- Whether the sender still exists. -/
  alive : Bool
  deriving DecidableEq, Repr

namespace Watch

/-- The receiving side of a channel. -/
structure Receiver where
  /-- The version of the value that was seen last. -/
  seen : Nat
  /-- If a wait was left unfinished, the number of wake-ups there had been when it fell asleep. -/
  waitingSince : Option Nat
  deriving DecidableEq, Repr

/-- The receiver without the wait it left unfinished. -/
def Receiver.withoutWait (r : Receiver) : Receiver := { r with waitingSince := none }

variable {α : Type}

/-- A channel with its first value. -/
def create (value : α) : Watch α := ⟨value, 0, 0, true⟩

/-- Replaces the value, and wakes everyone. -/
def replace (w : Watch α) (value : α) : Watch α :=
  { w with value := value, version := w.version + 1, wakes := w.wakes + 1 }

/-- The sender goes, which wakes everyone. -/
def close (w : Watch α) : Watch α := { w with alive := false, wakes := w.wakes + 1 }

/-- A new receiver; the present value is no news to it. -/
def subscribe (w : Watch α) : Receiver := ⟨w.version, none⟩

/-- What a poll of a wait tells. -/
inductive Poll (α : Type) where
  /-- The value is wanted. -/
  | found (value : α)
  /-- The value is not wanted, and there will be no other. -/
  | closed
  /-- The value is not wanted, and another may come. -/
  | pending
  deriving DecidableEq, Repr

/-- Whether a wait is over. -/
def Poll.isReady : Poll α → Bool
  | found _ | closed => true
  | pending => false

/-- Whether a receiver waits and has not been woken since it fell asleep. -/
def sleeps (w : Watch α) (r : Receiver) : Bool := r.waitingSince = some w.wakes

/-- A wait that has found nothing falls asleep, unless there is nothing to wait for. -/
def fallAsleep (w : Watch α) (r : Receiver) : Poll α × Receiver :=
  if w.alive then (.pending, { r with waitingSince := some w.wakes }) else (.closed, r.withoutWait)

/-- A wait looks at the value, which is seen then. -/
def look (w : Watch α) (wanted : α → Bool) : Poll α × Receiver :=
  if wanted w.value then (.found w.value, ⟨w.version, none⟩) else w.fallAsleep ⟨w.version, none⟩

/-- **One poll of a wait for a value that is wanted.** The wait begins if the receiver has none left
unfinished. -/
def poll (w : Watch α) (wanted : α → Bool) (r : Receiver) : Poll α × Receiver :=
  if w.sleeps r then (.pending, r)
  else if r.waitingSince.isSome ∧ r.seen = w.version then w.fallAsleep r
  else w.look wanted

end Watch

end TxDelivery
