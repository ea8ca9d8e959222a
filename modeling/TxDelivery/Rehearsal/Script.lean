import TxDelivery.Rehearsal.Basic

/-!
# The instructions of a rehearsal

What a script can have done in a rehearsal: begin operations and wait for them or not, change the
chain, follow the feeds, start and close the queue. After every instruction everybody acts who can
(`TxDelivery.Rehearsal.settle`), so that what an instruction answers does not hang on unfinished
business.

Operations that are begun together are one task (`TxDelivery.Task`). A script may wait for it, with
or without a limit after which it is dropped, or go on and ask for it later by its name; a task that
was asked for and is over is known no more. Time passes only when a script waits.
-/

namespace TxDelivery

namespace Rehearsal

variable {κ : Type} [DecidableEq κ]

/-! ### Operations -/

/-- **Begins operations together**, as one task that is dropped after `limit` milliseconds. -/
def begin (r : Rehearsal κ) (name : Option String) (requests : List (Request κ))
    (limit : Option Nat) : List OperationId × Rehearsal κ :=
  let ids := List.range' r.service.operations.length requests.length
  let now := r.service.now
  let others := r.tasks.map fun t =>
    if name.isSome && t.name = name then { t with name := none } else t
  let r := { r with
    tasks := others ++ [⟨name, ids, now, limit.map (now + ·), none, false⟩] }
  (ids, requests.foldl (fun r request => (r.perform (.begin request)).settle) r)

/-- Begins operations and lets time pass until they are over. -/
def complete (r : Rehearsal κ) (requests : List (Request κ)) (limit : Option Nat) :
    Option Task × Rehearsal κ :=
  let (ids, r) := r.begin none requests limit
  let r := r.run (.closed ids) budget
  (r.tasks.find? fun t => t.operations = ids, r)

/-- What operations answered, nothing for those without an answer. -/
def answers (r : Rehearsal κ) (operations : List OperationId) : List (Option Answer) :=
  operations.map fun i => r.service.operations[i]?.bind Operation.answer?

/-- What a script learns when it asks for a task. -/
inductive TaskState where
  /-- No task has the name. -/
  | unknown
  /-- The task is not over. -/
  | pending
  /-- The task was aborted. -/
  | aborted
  /-- The task is over. -/
  | ended (t : Task)
  deriving DecidableEq, Repr

/-- **Asks for a task.** A task that is over is known only this once. -/
def poll (r : Rehearsal κ) (name : String) : TaskState × Rehearsal κ :=
  let forget := { r with tasks := r.tasks.filter fun t => t.name ≠ some name }
  match r.tasks.find? fun t => t.name = some name with
  | none => (.unknown, r)
  | some t =>
    if t.aborted then (.aborted, forget)
    else if t.ended.isSome then (.ended t, forget)
    else (.pending, r)

/-- Aborts a task, if it is known; one that is over stays as it is. -/
def abort? (r : Rehearsal κ) (name : String) : Option (Rehearsal κ) := do
  let t ← r.tasks.find? fun t => t.name = some name
  if t.ended.isSome then some r
  else
    let r := { r with tasks := r.tasks.map fun (u : Task) =>
      if u.name = some name then { u with aborted := true } else u }
    some (r.dropTask t).settle

/-! ### The chain -/

/-- Changes the chain. -/
def adjust (r : Rehearsal κ) (change : ScriptedChain → ScriptedChain) : Rehearsal κ :=
  { r with chain := change r.chain }.settle

/-- Has calls of a kind fail: the next `after` do not, the `times` after them do. -/
def fail (r : Rehearsal κ) (kind : CallKind) (after times : Nat) (error : ChainError) :
    Rehearsal κ :=
  let entries := List.replicate after (kind, none) ++ List.replicate times (kind, some error)
  r.adjust fun c => { c with faults := c.faults ++ entries }

/-- Has calls of a kind take some milliseconds. -/
def delay (r : Rehearsal κ) (kind : CallKind) (ms : Nat) : Rehearsal κ :=
  r.adjust fun c => { c with latencies := (kind, ms) :: c.latencies }

/-- Mines an accepted transaction in a block. -/
def mine? (r : Rehearsal κ) (index : Nat) (block : UInt64) (succeeded : Bool) :
    Option (Hash × Rehearsal κ) := do
  let (_, tx) ← r.chain.accepted[index]?
  some (tx.hash, r.adjust fun c => c.mine ⟨tx.hash, block, succeeded⟩)

/-- Takes an accepted transaction out of its block. -/
def unmine? (r : Rehearsal κ) (index : Nat) : Option (Hash × Rehearsal κ) := do
  let (_, tx) ← r.chain.accepted[index]?
  some (tx.hash, r.adjust fun c => c.unmine tx.hash)

/-- The transactions accepted after the first `n`, by time and nonce. -/
def acceptedSince (r : Rehearsal κ) (n : Nat) : List (Nat × SignedTx) :=
  (r.chain.accepted.drop n).mergeSort fun a b =>
    a.1 < b.1 || (a.1 == b.1 && a.2.tx.nonce ≤ b.2.tx.nonce)

/-! ### Feeds and queue -/

/-- Ends the subscription of a name. -/
def unsubscribe? (r : Rehearsal κ) (name : String) : Option (Rehearsal κ) := do
  let (feed, id) ← r.subscriptions.lookup name
  let r := { r with subscriptions := r.subscriptions.filter fun e => e.1 ≠ name }
  some (r.perform (.unsubscribe feed id)).settle

/-- Subscribes to a feed under a name, in place of a subscription of that name. -/
def subscribe (r : Rehearsal κ) (feed : Service.FeedKind) (name : String) : Rehearsal κ :=
  let id := match feed with
    | .confirms => r.service.confirms.subscribe.1
    | .errors => r.service.errors.subscribe.1
  let fresh := r.perform (.subscribe feed)
  let cleared := (fresh.unsubscribe? name).getD fresh
  { cleared with subscriptions := (name, feed, id) :: cleared.subscriptions }.settle

/-- What is held for a subscription, as outcomes. -/
def held (s : Service κ) (feed : Service.FeedKind) (id : SubscriptionId) : List Outcome :=
  match feed with
  | .confirms => (s.confirms.held id).map .confirmed
  | .errors => (s.errors.held id).map .failed

/-- Takes everything held for the subscription of a name. -/
def drain? (r : Rehearsal κ) (name : String) : Option (List Outcome × Rehearsal κ) := do
  let (feed, id) ← r.subscriptions.lookup name
  some (held r.service feed id, (r.perform (.drain feed id)).settle)

/-- Starts a bookkeeper of the queue. -/
def startQueue (r : Rehearsal κ) : Rehearsal κ := (r.perform .startBookkeeper).settle

/-- Closes the queue, and tells of each bookkeeper whether it has stopped. -/
def closeQueue (r : Rehearsal κ) : List Bool × Rehearsal κ :=
  let r := (r.perform .close).settle
  (r.service.bookkeepers.map fun k =>
    match k.stage with
    | .stopped => true
    | _ => false, r)

end Rehearsal

end TxDelivery
