import TxDelivery.Proofs.Queue.Hold
import TxDelivery.Proofs.Queue.Payload

/-!
# What operations do to the queue

In a service that is used through its queue every broadcast is made for a key, and statuses change
only as keys are taken hold of and let go of (`TxDelivery.Service.StatusMove`). So deliveries start
together with a key becoming free, for that key, and there are five ways in which a step of an
operation changes statuses and deliveries (`TxDelivery.Service.QueueMove`).

Where a service is used otherwise as well, more can happen: a caller sets a status, or a delivery
starts past the queue. That these cannot happen here is not found by looking at the step. It is
known of the operation that takes the step, whose stage fits a request that goes through the queue
(`TxDelivery.Service.isDirect_of_fits`). Hence **every step of an operation is one of the five**
(`TxDelivery.Service.queueMove_of_operationStep`) as long as operations fit their requests.

What is left out of the table is as important as what is in it. It has neither the request nor what
the caller gets; it has a key, which for the start of a delivery is the key of the delivery and not
only the one that is held. The two are the same because the submission is about what was asked for,
and keys are read off what transactions are about. Whoever uses the table need not know about
payloads any more.

In such a service nobody waits for a delivery (`TxDelivery.Service.Filed.owner_eq_none`), and the
end of one is nothing to the operations.
-/

namespace TxDelivery

variable {κ : Type}

namespace Service

open Operation

variable [DecidableEq κ] {s t : Service κ} {i j : OperationId} {r : Request κ}
  {st st' : Operation.Stage κ}

/-- **What a step of an operation does to the queue.** -/
inductive QueueMove (setup : Setup κ) (s : Service κ) (a : Action κ) (t : Service κ) : Prop where
  /-- Nothing; whoever holds a key keeps it and the status lock. -/
  | still (hold : ∀ j, t.holding? j = s.holding? j)
      (hlock : ∀ j, s.holding? j ≠ none → s.statusLock.OwnedBy (.operation j) →
        t.statusLock.OwnedBy (.operation j))
      (hstatuses : t.statuses = s.statuses) (hdeliveries : t.deliveries = s.deliveries)
  /-- A key is taken hold of, and becomes pending. -/
  | opens {i : OperationId} {key : κ}
      (hr : (s.request? i).bind Request.access? = some .exclusive) (hi : s.holding? i = none)
      (hheld : s.statusLock.heldBy (.operation i) = true)
      (hprevious : s.statuses.get key = .notFound ∨ s.statuses.get key = .error)
      (hold : ∀ j, t.holding? j =
        if i = j then some (key, s.statuses.get key) else s.holding? j)
      (hlock : t.statusLock = s.statusLock)
      (hstatuses : t.statuses = s.statuses.set key .pending)
      (hdeliveries : t.deliveries = s.deliveries)
  /-- The broadcast fails, and the key gets its status back. -/
  | refused {i : OperationId} {key : κ} {previous : TxStatus}
      (hi : s.holding? i = some (key, previous))
      (hold : ∀ j, t.holding? j = if i = j then none else s.holding? j)
      (hlock : t.statusLock = s.statusLock.leave (.operation i))
      (hstatuses : t.statuses = s.statuses.restore key previous)
      (hdeliveries : t.deliveries = s.deliveries)
  /-- The caller drops the send, and the key stays pending. -/
  | dropped {i : OperationId} {key : κ} {previous : TxStatus}
      (hi : s.holding? i = some (key, previous))
      (hold : ∀ j, t.holding? j = if i = j then none else s.holding? j)
      (hlock : t.statusLock = s.statusLock.leave (.operation i))
      (hstatuses : t.statuses = s.statuses) (hdeliveries : t.deliveries = s.deliveries)
      (ha : a = .drop i)
  /-- The broadcast is accepted, and a delivery starts for the key. -/
  | launched {i : OperationId} {key : κ} {previous : TxStatus} {x : Delivery}
      (hi : s.holding? i = some (key, previous))
      (hold : ∀ j, t.holding? j = if i = j then none else s.holding? j)
      (hlock : t.statusLock = s.statusLock.leave (.operation i))
      (hstatuses : t.statuses = s.statuses) (hdeliveries : t.deliveries = s.deliveries ++ [x])
      (hopen : x.isOpen = true) (hkey : setup.keyOf x.current.tx = key)

variable {setup : Setup κ} {a : Action κ} {seen : List Observation}

omit [DecidableEq κ] in
/-- No operation gets past the queue that fits its request. -/
theorem isDirect_of_fits (h : Fits setup r st) : st.isDirect = false := by
  cases h with
  | submitting _ horigin => simp only [Operation.Stage.isDirect, horigin]
  | _ => rfl

/-- **Every step of an operation** is one of the five. -/
theorem queueMove_of_operationStep (hs : s.Filed setup) (hkey : setup.KeyedByPayload)
    (h : OperationStep setup s a (t, seen)) : QueueMove setup s a t := by
  have hfits {i : OperationId} {st : Operation.Stage κ} (hst : s.stage? i = some st) :
      ∃ r, s.request? i = some r ∧ Fits setup r st := by
    obtain ⟨r, hr⟩ := exists_request? hst
    exact ⟨r, hr, hs.operation hr hst⟩
  cases statusMove_of_operationStep h with
  | still hold hlock hstatuses hdeliveries =>
    refine .still hold hlock hstatuses (hdeliveries.resolve_right ?_)
    rintro ⟨i, st, hst, hdirect⟩
    obtain ⟨r, -, hfits⟩ := hfits hst
    rw [isDirect_of_fits hfits] at hdirect
    contradiction
  | marked _ hr => exact absurd (hs.request hr) (by simp [Request.isOfQueue])
  | opens _ hr hst hheld hprevious hold hlock hstatuses hdeliveries =>
    exact .opens (by rw [hr]; rfl) (holding?_eq hst) hheld hprevious hold hlock hstatuses
      hdeliveries
  | refused hi _ hold hlock hstatuses hdeliveries =>
    exact .refused hi hold hlock hstatuses hdeliveries
  | dropped ha hi _ hold hlock hstatuses hdeliveries =>
    exact .dropped hi hold hlock hstatuses hdeliveries ha
  | @launched i sub key previous signed deadline hash _ hst hstage hqueue _ hold hlock hstatuses
      hdeliveries =>
    refine .launched ((holding?_eq hst).trans (Operation.Stage.holding?_submitting hqueue)) hold
      hlock hstatuses hdeliveries rfl ?_
    obtain ⟨r, -, hfits⟩ := hfits hst
    cases hfits with
    | submitting _ hqueue' _ _ hsigned =>
      obtain ⟨rfl, -⟩ : key = _ ∧ previous = _ := by simpa using hqueue.symm.trans hqueue'
      exact hkey _ _ (hsigned signed deadline hstage)

omit [DecidableEq κ] in
/-- **Nobody waits for a delivery** of a service that is used through its queue. -/
theorem Filed.owner_eq_none (hs : s.Filed setup) (howned : s.Owned) {d : DeliveryId} {x : Delivery}
    (hx : s.deliveries[d]? = some x) (hopen : x.isOpen = true) : x.owner = none := by
  cases howner : x.owner with
  | none => rfl
  | some i =>
    have hst := howned.owner_of_isOpen hx hopen i howner
    obtain ⟨r, hr⟩ := exists_request? hst
    cases hs.operation hr hst

end Service

end TxDelivery
