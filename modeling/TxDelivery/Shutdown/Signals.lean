import TxDelivery.Shutdown
import TxDelivery.Watch

/-!
# How shutdown signals are made

A coordinator is the sender of a watch channel on which nothing but “triggered” is ever sent, and
the signals are its receivers. A signal is obtained from the coordinator as long as it exists, or
from another signal at any time; to wait for the shutdown is to wait for that one value
(`TxDelivery.Shutdown.Signals`).

What coordinator and signals share of all this is a `TxDelivery.Shutdown`. The rest, what each
signal has seen and since when it sleeps, is how the news gets to those who wait.
-/

namespace TxDelivery

namespace Shutdown

/-- A coordinator with the signals that were obtained, by the names their holders gave them. -/
structure Signals (ν : Type) where
  /-- The channel the coordinator sends on; its value tells whether it was triggered. -/
  channel : Watch Bool
  /-- The signals. -/
  receivers : List (ν × Watch.Receiver)
  deriving DecidableEq, Repr

namespace Signals

variable {ν : Type}

/-- A new coordinator. -/
def create : Signals ν := ⟨.create false, []⟩

instance : Inhabited (Signals ν) := ⟨create⟩

/-- **What coordinator and signals share.** -/
def shutdown (s : Signals ν) : Shutdown := ⟨s.channel.value, s.channel.alive⟩

/-- What can be done with a coordinator and its signals. -/
inductive Action (ν : Type) where
  /-- A signal is obtained from the coordinator. -/
  | subscribe (name : ν)
  /-- A signal is obtained from another signal. -/
  | clone (name source : ν)
  /-- The coordinator is triggered. -/
  | trigger
  /-- A signal is polled whether the shutdown has come. -/
  | poll (name : ν)
  /-- Whoever polled a signal gives up waiting. -/
  | giveUp (name : ν)
  /-- The coordinator is asked whether it was triggered. -/
  | ask
  /-- The coordinator goes. -/
  | abandon
  deriving DecidableEq, Repr

/-- What comes of it. -/
inductive Answer where
  /-- Nothing. -/
  | done
  /-- Whether the shutdown has come. -/
  | polled (ready : Bool)
  /-- Whether the coordinator was triggered. -/
  | asked (triggered : Bool)
  deriving DecidableEq, Repr

variable [DecidableEq ν]

/-- The signal with a name. -/
def receiver? (s : Signals ν) (name : ν) : Option Watch.Receiver :=
  (s.receivers.find? fun e => e.1 == name).map (·.2)

/-- Gives a name to a signal; the signal that had it is gone. -/
def put (s : Signals ν) (name : ν) (r : Watch.Receiver) : Signals ν :=
  { s with receivers := (name, r) :: s.receivers.filter fun e => e.1 != name }

/-- **Something is done with a coordinator or a signal**, if it exists. -/
def act? (s : Signals ν) : Action ν → Option (Answer × Signals ν)
  | .subscribe name =>
    if s.channel.alive then some (.done, s.put name s.channel.subscribe) else none
  | .clone name source =>
    (s.receiver? source).map fun r => (.done, s.put name r.withoutWait)
  | .trigger =>
    if s.channel.alive then some (.done, { s with channel := s.channel.replace true }) else none
  | .poll name =>
    (s.receiver? name).map fun r =>
      let (verdict, r) := s.channel.poll id r
      (.polled verdict.isReady, s.put name r)
  | .giveUp name =>
    (s.receiver? name).map fun r => (.done, s.put name r.withoutWait)
  | .ask => if s.channel.alive then some (.asked s.channel.value, s) else none
  | .abandon =>
    if s.channel.alive then some (.done, { s with channel := s.channel.close }) else none

/-- **A run**: what comes of each thing that is done, one after another, if all of it is
possible. -/
def run? (s : Signals ν) : List (Action ν) → Option (List Answer × Signals ν)
  | [] => some ([], s)
  | a :: as => do
    let (x, t) ← s.act? a
    let (xs, u) ← run? t as
    some (x :: xs, u)

end Signals

end Shutdown

end TxDelivery
