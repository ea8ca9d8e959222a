/-!
# Shutdown signals

A coordinator that can be triggered, and signals that wait for it. What they share says it all: **a
signal is ready once the coordinator was triggered or has gone**, however it was obtained and
however often it was looked at. What a signal remembers besides, and why it does not matter, belongs
to the way signals are made (`TxDelivery.Shutdown.Signals`).
-/

namespace TxDelivery

/-- The state shared by a coordinator and its signals. -/
structure Shutdown where
  /-- Whether the coordinator was triggered. -/
  triggered : Bool
  /-- Whether the coordinator still exists. -/
  alive : Bool
  deriving DecidableEq, Repr

namespace Shutdown

/-- A coordinator nobody has triggered. -/
def create : Shutdown := ⟨false, true⟩

instance : Inhabited Shutdown := ⟨create⟩

/-- Tells every signal to stop. -/
def trigger (s : Shutdown) : Shutdown := { s with triggered := true }

/-- The coordinator goes. -/
def abandon (s : Shutdown) : Shutdown := { s with alive := false }

/-- Whether a signal that is looked at now is ready. -/
def ready (s : Shutdown) : Bool := s.triggered || !s.alive

end Shutdown

end TxDelivery
