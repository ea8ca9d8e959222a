/-!
# Fair locks

A lock is the list of those who asked for it and have not left it, in the order in which they asked.
**The lock belongs to the front of that list**: to the first alone if it wants exclusive access,
otherwise to all who want shared access up to the first who does not
(`TxDelivery.FairLock.holders`). So nobody is overtaken by somebody who asked later, and whoever
leaves, holding the lock or still waiting, hands it on.

There is no step in which a lock is handed over. Whoever holds it is read off the list, and a party
that gets to the front has the lock from that moment, whether it has noticed or not. What it does
with the lock is a step of its own, for which it may be late; meanwhile the others wait. A party
that is dropped after it got the lock and before it noticed leaves the list like any other.

Readers who come after a writer wait behind it, even if other readers hold the lock. This is why a
lock cannot be told by who holds it and who waits: it takes the order of all of them.
-/

namespace TxDelivery

/-- What is wanted of a lock. -/
inductive Access where
  /-- Together with others who want the same. -/
  | shared
  /-- Alone. -/
  | exclusive
  deriving DecidableEq, Repr

/-- A lock with those who hold it or wait for it. -/
structure FairLock (α : Type) where
  /-- Everyone who asked and has not left, in the order of asking. -/
  queue : List (α × Access)
  deriving DecidableEq, Repr

namespace FairLock

variable {α : Type}

/-- A lock nobody wants. -/
def free : FairLock α := ⟨[]⟩

instance : Inhabited (FairLock α) := ⟨free⟩

/-- Asking for the lock. -/
def enter (l : FairLock α) (x : α) (access : Access) : FairLock α := ⟨l.queue ++ [(x, access)]⟩

/-- Leaving the lock, or giving up waiting for it. -/
def leave [DecidableEq α] (l : FairLock α) (x : α) : FairLock α :=
  ⟨l.queue.filter fun e => e.1 ≠ x⟩

/-- **Those who hold the lock.** -/
def holders (l : FairLock α) : List α :=
  match l.queue with
  | [] => []
  | (x, .exclusive) :: _ => [x]
  | (x, .shared) :: rest => x :: (rest.takeWhile fun e => e.2 = .shared).map (·.1)

/-- Whether `x` holds the lock. -/
def heldBy [DecidableEq α] (l : FairLock α) (x : α) : Bool := l.holders.contains x

end FairLock

end TxDelivery
