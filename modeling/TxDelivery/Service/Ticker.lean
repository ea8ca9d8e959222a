/-!
# Repeating timers

A timer that goes off every `period` milliseconds. **A tick served late pushes the later ticks back
instead of making up for lost ones**: after a tick that is served more than
`TxDelivery.Ticker.tolerance` late a whole period passes before the next, so that two ticks are
never served in a burst.

A tick that is served in time keeps the rhythm: the next one is due a period after this one was, and
not after it was served. Otherwise small delays would add up. So two ticks may be served closer than
a period, by the tolerance at most, and k of them are not served before k periods are over but for
the tolerance.

A timer does not go off by itself. It says when it is due, and whoever waits for it serves it in a
step, when it is waiting and not earlier.
-/

namespace TxDelivery

/-- A repeating timer. Times are in milliseconds. -/
structure Ticker where
  /-- The time between two ticks. -/
  period : Nat
  /-- When it goes off next. -/
  due : Nat
  deriving DecidableEq, Repr, Inhabited

namespace Ticker

/-- How late a tick may be served and still count as served in time. -/
def tolerance : Nat := 5

/-- A timer started now; its first tick comes after a whole period. -/
def start (now period : Nat) : Ticker := ⟨period, now + period⟩

/-- Whether a tick is waiting to be served. -/
def isDue (t : Ticker) (now : Nat) : Bool := t.due ≤ now

/-- **Serving a tick** sets the next one: a period after the tick was due, or a period from now if
it is served late. -/
def serve (t : Ticker) (now : Nat) : Ticker :=
  { t with due := (if t.due + tolerance < now then now else t.due) + t.period }

end Ticker

end TxDelivery
