import TxDelivery.Config.Validation
import TxDelivery.Rehearsal.Chain
import TxDelivery.Service.Step

/-!
# Rehearsals

A rehearsal runs a service against a scripted chain on a virtual clock. At any time it takes the
first step that is possible (`TxDelivery.Rehearsal.next?`): a reply that is due, or whatever a party
can do on its own; only when nobody can act does the clock move, to the next moment at which
something happens (`TxDelivery.Rehearsal.nextTime?`). **Every rehearsal is a run of the service**,
as it changes the service by its steps alone.

A service leaves open in which order its parties act, and a rehearsal has to choose. It prefers
replies to everything else, and among the parties those that come first in the list of what they may
do. So one rehearsal is one run out of many, and what is found in it need not be so in another; what
holds of all runs holds of it.

Calls are observed, and each of them is noted with the time at which its reply is due
(`TxDelivery.InFlight`). When the party does not wait for it any more, since it was dropped or its
delivery ended, the call is forgotten, and the chain is not asked for an answer.

The clock could run for ever, and so the number of steps is bounded. The bound is far beyond what a
script can make happen.
-/

namespace TxDelivery

/-- A call that waits for its reply. -/
structure InFlight where
  /-- Who asked. -/
  who : Party
  /-- What was asked. -/
  call : Call
  /-- When the reply comes. -/
  due : Nat
  deriving DecidableEq, Repr

/-- Operations a script began together, and when they were over. -/
structure Task where
  /-- The name by which the script asks for it. -/
  name : Option String
  /-- The operations. -/
  operations : List OperationId
  /-- When it began. -/
  started : Nat
  /-- When the script drops it if it is not over. -/
  limit : Option Nat
  /-- When it was over. -/
  ended : Option Nat
  /-- Whether the script aborted it. -/
  aborted : Bool
  deriving DecidableEq, Repr

/-- A service, the chain it works on, and what happened so far. -/
structure Rehearsal (κ : Type) where
  /-- What stays fixed for the service. -/
  setup : Setup κ
  /-- Who signs. -/
  signer : ScriptedSigner
  /-- The service. -/
  service : Service κ
  /-- The chain. -/
  chain : ScriptedChain
  /-- The calls that wait for their replies. -/
  inFlight : List InFlight
  /-- What the script began. -/
  tasks : List Task
  /-- What was logged, the latest first, each event with its time. -/
  log : List (Nat × LogEvent)
  /-- The subscriptions of the script by name. -/
  subscriptions : List (String × Service.FeedKind × SubscriptionId)

namespace Rehearsal

variable {κ : Type} [DecidableEq κ]

/-- A rehearsal at time zero, if the settings are valid. -/
def start (config : DeliveryConfig) (keyOf : Transaction → κ) (signer : ScriptedSigner)
    (chain : ScriptedChain) : Except ConfigError (Rehearsal κ) := do
  let config ← config.validate
  return {
    setup := ⟨config, signer.address, keyOf⟩, signer := signer, service := .start, chain := chain,
    inFlight := [], tasks := [], log := [], subscriptions := [] }

/-! ### Steps -/

/-- What a step of the service lets the world see: calls arrive at the chain, events are logged. -/
def observe (r : Rehearsal κ) : Observation → Rehearsal κ
  | .called who call =>
    { r with
      chain := r.chain.register call.kind
      inFlight := r.inFlight ++ [⟨who, call, r.service.now + r.chain.latency call.kind⟩] }
  | .logged event => { r with log := (r.service.now, event) :: r.log }
  | .published _ _ => r

/-- Forgets the calls whose parties do not wait for them any more. -/
def forgetCancelled (r : Rehearsal κ) : Rehearsal κ :=
  { r with inFlight := r.inFlight.filter fun f => r.service.pending? r.setup f.who = some f.call }

/-- Whether an operation is over. -/
def isOver (s : Service κ) (i : OperationId) : Bool :=
  match s.operations[i]? with
  | some o => !o.isOpen
  | none => false

/-- Notes which tasks are over. -/
def noteEnded (r : Rehearsal κ) : Rehearsal κ :=
  { r with tasks := r.tasks.map fun t =>
      if t.ended.isNone && t.operations.all (isOver r.service) then
        { t with ended := some r.service.now }
      else t }

/-- **Takes a step of the service**, if it is possible now. -/
def perform? (r : Rehearsal κ) (a : Action κ) : Option (Rehearsal κ) := do
  let (s, seen) ← r.service.step? r.setup a
  let r := { r with service := s }
  some (seen.foldl observe r).forgetCancelled.noteEnded

/-- Takes a step that is always possible. -/
def perform (r : Rehearsal κ) (a : Action κ) : Rehearsal κ := (r.perform? a).getD r

/-- Delivers the reply to a call. -/
def deliver? (r : Rehearsal κ) (f : InFlight) : Option (Rehearsal κ) :=
  let (reply, chain) := r.chain.answer r.signer r.service.now f.call
  { r with chain := chain, inFlight := r.inFlight.erase f }.perform? (.reply f.who reply)

/-- Drops the operations of a task. -/
def dropTask (r : Rehearsal κ) (t : Task) : Rehearsal κ :=
  t.operations.foldl (fun r i => r.perform (.drop i)) r

/-- Drops a task that reached its limit. -/
def dropLate? (r : Rehearsal κ) : Option (Rehearsal κ) := do
  let t ← r.tasks.find? fun t => t.ended.isNone && t.limit.any (· ≤ r.service.now)
  some (r.dropTask t)

/-- **The next step at this time**: a reply that is due, what a party can do on its own, or the end
of a task at its limit. -/
def next? (r : Rehearsal κ) : Option (Rehearsal κ) :=
  match r.inFlight.find? fun f => f.due ≤ r.service.now with
  | some f => r.deliver? f
  | none => (r.service.ownActions.findSome? r.perform?).or r.dropLate?

/-- The moments at which something is going to happen. -/
def agenda (r : Rehearsal κ) : List Nat :=
  r.service.timers ++ r.inFlight.map (·.due)
  ++ r.tasks.filterMap fun t => if t.ended.isNone then t.limit else none

/-- The next moment after now at which something happens, `target` counting as such. -/
def nextTime? (r : Rehearsal κ) (target : Option Nat) : Option Nat :=
  ((r.agenda ++ target.toList).filter (r.service.now < ·)).min?

/-- When a run of a rehearsal is to stop. -/
inductive Goal where
  /-- When a time is reached. -/
  | time (t : Nat)
  /-- When operations are over. -/
  | closed (operations : List OperationId)

/-- Whether a goal is reached. -/
def reached (r : Rehearsal κ) : Goal → Bool
  | .time t => t ≤ r.service.now
  | .closed operations => operations.all (isOver r.service)

/-- The time to which a goal lets the clock run. -/
def Goal.target : Goal → Option Nat
  | time t => some t
  | closed _ => none

/-- **Runs a rehearsal until a goal is reached and nobody can act**, or until nothing can happen any
more, at most `fuel` steps. -/
def run (goal : Goal) : (fuel : Nat) → Rehearsal κ → Rehearsal κ
  | 0, r => r
  | fuel + 1, r =>
    match r.next? with
    | some r => run goal fuel r
    | none =>
      if r.reached goal then r
      else
        match r.nextTime? goal.target with
        | none => r
        | some t =>
          match r.perform? (.wait (t - r.service.now)) with
          | none => r
          | some r => run goal fuel r

/-- How many steps a rehearsal takes at most between two instructions. -/
def budget : Nat := 1000000

/-- Lets everybody act who can, while the clock stands still. -/
def settle (r : Rehearsal κ) : Rehearsal κ := r.run (.time r.service.now) budget

/-- Lets some milliseconds pass. -/
def wait (r : Rehearsal κ) (ms : Nat) : Rehearsal κ := r.run (.time (r.service.now + ms)) budget

end Rehearsal

end TxDelivery
