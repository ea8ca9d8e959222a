import TxDelivery.Service.Step

/-!
# Playing a service

A service whose calls are answered at once by a function of the call, on a clock of its own: whoever
can act does, and when nobody can the clock moves to the next timer (`TxDelivery.Service.advance?`).
Played like this an operation ends within its period, since the deadline of its delivery ends it.

It is what a command does that sends a transaction and waits for its outcome. The service is one
that nobody used before, with a single operation, and the network is asked for every answer when it
is needed. Every move is a step of the service, so that what holds of all its runs holds here.
-/

namespace TxDelivery

namespace Service

variable {κ : Type} [DecidableEq κ]

/-- The parties that can ask something. -/
def parties (s : Service κ) : List Party :=
  (List.range s.operations.length).map .operation
  ++ (List.range s.deliveries.length).flatMap fun d => [.supervisor d, .listener d]

/-- The reply to whoever asks something. -/
def serveNext? (setup : Setup κ) (serve : Call → Reply) (s : Service κ) : Option (Move κ) :=
  s.parties.findSome? fun who => do
    s.step? setup (.reply who (serve (← s.pending? setup who)))

/-- **One step**: a reply if somebody asks, else what somebody can do, else time up to the next
timer. -/
def advance? (setup : Setup κ) (serve : Call → Reply) (s : Service κ) : Option (Move κ) :=
  (s.serveNext? setup serve).or <|
    (s.ownActions.findSome? (s.step? setup)).or <| do
      s.step? setup (.wait ((← s.timers.min?) - s.now))

/-- **Plays a service until an operation is over**, at most `fuel` steps; the answer of the
operation, if it has one by then. -/
def play (setup : Setup κ) (serve : Call → Reply) (i : OperationId) :
    (fuel : Nat) → Service κ → Option Answer
  | 0, s => s.operations[i]?.bind Operation.answer?
  | fuel + 1, s =>
    match s.operations[i]?.bind Operation.answer? with
    | some answer => some answer
    | none =>
      match s.advance? setup serve with
      | some (s, _) => play setup serve i fuel s
      | none => none

/-- How many steps a delivery of these settings takes at most: ticks come at most once a second,
and a tick takes a few steps. -/
def playLength (config : DeliveryConfig) : Nat := 64 * (config.periodSecs.toNat + 2)

end Service

end TxDelivery
