import TxDelivery.Proofs.Delivery.Life

/-!
# The course of an operation

How far an operation can come depends on what it is about (`TxDelivery.Operation.Suits`): only sends
make first broadcasts, each for whoever asked for it, only a call that waits for its delivery comes
to wait for one, and only the operations on the statuses begin in the line for the status lock.
**Every operation is at every moment in a stage that suits its request**
(`TxDelivery.Service.History.suits`), so that whoever finds an operation in a stage knows what it
is about.

An operation keeps its request and its stage side by side, and nothing in their types ties the one
to the other. Most steps look at the stage alone, so that a proof about “a send through the queue”
that finds an operation in the middle of a first broadcast has to know first that it is one. This is
where such knowledge comes from. It would be in the types if there were a type of operations for
each kind of request; then every step that does the same for all of them would be written several
times.

The induction is on the run. One operation goes on or begins in a step
(`TxDelivery.Service.Suited.put`, `TxDelivery.Service.Suited.append`), and what has to be seen is
that its new stage suits the request if the old one did. For a submission that goes on that is so
because it stays with its origin (`TxDelivery.Service.Suited.submit`). The one stage that an
operation does not come to by itself is the end of waiting for a delivery, which the delivery brings
about; there it takes that callers and deliveries belong together.
-/

namespace TxDelivery

variable {κ : Type}

/-- Whether a request is carried out by a first broadcast made for `origin`. -/
def Request.makes : Request κ → Origin κ → Bool
  | .send _ _, .detached | .sendAndWait _ _, .attached | .enqueue _ _, .queue _ _ => true
  | _, _ => false

/-- **Which stages an operation can be in**, by what it is about. -/
inductive Operation.Suits (r : Request κ) : Operation.Stage κ → Prop where
  /-- The status lock is waited for. -/
  | entering {access : Access} (hr : r.access? = some access) : Suits r .entering
  /-- A first broadcast is made; the nonce is reset only if it was too low. -/
  | submitting {sub : Submission κ} (hr : r.makes sub.origin = true)
      (hlow : ∀ e, sub.stage = .resetting e → e.isNonceTooLow = true) : Suits r (.submitting sub)
  /-- The outcome is waited for. -/
  | supervising {tx : Transaction} {options : DeliveryOptions} {d : DeliveryId}
      (hr : r = .sendAndWait tx options) : Suits r (.supervising d)
  /-- Gas is estimated. -/
  | estimating {tx : Transaction} (hr : r = .estimate tx) : Suits r .estimating
  /-- A replacement is made. -/
  | replacing {base : SignedTx} {options : DeliveryOptions} {e : Escalation}
      (hr : r = .replace base options) : Suits r (.replacing e)
  /-- The nonce is forgotten. -/
  | resetting (hr : r = .resetNonce) : Suits r .resetting
  /-- The operation ended. -/
  | ended {answer : Answer} : Suits r (.ended answer)
  /-- The operation was dropped. -/
  | dropped : Suits r .dropped

/-- A request that asks for a broadcast is carried out by it. -/
theorem Request.makes_of_broadcast? {r : Request κ} {tx : Transaction} {options : DeliveryOptions}
    {origin : Origin κ} (h : r.broadcast? = some (tx, options, origin)) :
    r.makes origin = true := by
  cases r <;> simp [Request.broadcast?] at h <;> obtain ⟨-, -, rfl⟩ := h <;> rfl

/-- Only the queue makes broadcasts for keys. -/
theorem Request.eq_enqueue_of_makes {r : Request κ} {key : κ} {previous : TxStatus}
    (h : r.makes (.queue key previous) = true) : ∃ tx options, r = .enqueue tx options := by
  cases r with
  | enqueue tx options => exact ⟨tx, options, rfl⟩
  | _ => contradiction

/-- A submission that opens has no nonce to reset. -/
theorem Submission.Opening.ne_resetting {lock lock' : FairLock OperationId} {i : OperationId}
    {sub : Submission κ} {seen : List Observation} (h : Opening lock i sub lock' seen)
    (e : ChainError) : sub.stage ≠ .resetting e := by
  cases h <;> simp [*]

namespace Service

open Operation

/-- **Every operation is in a stage that suits its request.** -/
def Suited (s : Service κ) : Prop :=
  ∀ ⦃i : OperationId⦄ ⦃r : Request κ⦄ ⦃st : Operation.Stage κ⦄, s.request? i = some r →
    s.stage? i = some st → Suits r st

variable {s t : Service κ} {i : OperationId} {r : Request κ} {st st' : Operation.Stage κ}

namespace Suited

/-- One operation goes on. -/
theorem put (hs : s.Suited) (hst : s.stage? i = some st)
    (ht : t.operations = Operation.put s.operations i st')
    (hnew : ∀ r, s.request? i = some r → Suits r st → Suits r st') : t.Suited := by
  intro j r' st'' hr' hst''
  rw [request?_of_put ht] at hr'
  by_cases hij : i = j
  · subst hij
    obtain rfl : st' = st'' := Option.some.inj ((stage?_put_self ht hst).symm.trans hst'')
    exact hnew r' hr' (hs hr' hst)
  · exact hs hr' ((stage?_put_of_ne ht hij).symm.trans hst'')

/-- One operation begins. -/
theorem append (hs : s.Suited) (ht : t.operations = s.operations ++ [⟨r, st⟩])
    (hnew : Suits r st) : t.Suited := by
  intro j r' st' hr' hst'
  rw [request?_of_append ht] at hr'
  rw [stage?_of_append ht] at hst'
  by_cases hj : j = s.operations.length
  · rw [if_pos hj] at hr' hst'
    obtain rfl := Option.some.inj hr'
    obtain rfl := Option.some.inj hst'
    exact hnew
  · rw [if_neg hj] at hr' hst'
    exact hs hr' hst'

/-- Nothing happens to the operations. -/
theorem congr (hs : s.Suited) (ht : t.operations = s.operations) : t.Suited := by
  intro j r' st' hr' hst'
  rw [request?, ht, ← request?] at hr'
  rw [stage?, ht, ← stage?] at hst'
  exact hs hr' hst'

/-- A submission that goes on for whoever asked for it. -/
theorem submit (hs : s.Suited) {sub sub' : Submission κ}
    (hst : s.stage? i = some (.submitting sub))
    (ht : t.operations = Operation.put s.operations i (.submitting sub'))
    (horigin : sub'.origin = sub.origin)
    (hlow : ∀ e, sub'.stage = .resetting e → e.isNonceTooLow = true) : t.Suited := by
  refine hs.put hst ht fun r _ hsuits => ?_
  cases hsuits with
  | submitting hr => exact .submitting (horigin ▸ hr) hlow

variable [DecidableEq κ] {setup : Setup κ} {a : Action κ} {seen : List Observation}

theorem of_operationStep (hs : s.Suited) (h : OperationStep setup s a (t, seen)) : t.Suited := by
  cases h with
  | submit hr hsub hopen =>
    refine hs.append rfl (.submitting ?_ fun e he => absurd he (hopen.ne_resetting e))
    rw [hsub.origin_eq]
    exact Request.makes_of_broadcast? hr
  | enter hr => exact hs.append rfl (.entering hr)
  | estimate => exact hs.append rfl (.estimating rfl)
  | replace => exact hs.append rfl (.replacing rfl)
  | forget => exact hs.append rfl (.resetting rfl)
  | enqueue hst hr _ _ _ hsub hopen =>
    refine hs.put hst rfl fun r hr' _ => ?_
    obtain rfl := Option.some.inj (hr'.symm.trans hr)
    refine .submitting ?_ fun e he => absurd he (hopen.ne_resetting e)
    rw [hsub.origin_eq]
    rfl
  | duplicate hst | mark hst | read hst | forgotten hst | refuse hst | refuseQueued hst
  | launchDetached hst | launchQueued hst | answer hst =>
    exact hs.put hst rfl fun _ _ _ => .ended
  | drop hst | dropWaiting hst => exact hs.put hst rfl fun _ _ _ => .dropped
  | fetch hst | sign hst | gas hst | nonce hst | signed hst =>
    exact hs.submit hst rfl rfl (by simp)
  | price hst _ hsub _ hopen =>
    refine hs.submit hst rfl ?_ fun e he => absurd he (hopen.ne_resetting e)
    rw [hsub]
  | tooLow hst _ hlow =>
    refine hs.submit hst rfl rfl fun e he => ?_
    obtain rfl : _ = e := by simpa using he
    exact hlow
  | launchAttached hst _ horigin =>
    refine hs.put hst rfl fun r _ hsuits => ?_
    cases hsuits with
    | submitting hr =>
      rw [horigin] at hr
      cases r with
      | sendAndWait tx options => exact .supervising rfl
      | _ => contradiction
  | escalate hst =>
    refine hs.put hst rfl fun r _ hsuits => ?_
    cases hsuits with
    | replacing hr => exact .replacing hr

/-- **Every step keeps operations in stages that suit them.** -/
theorem step (hs : s.Suited) (howned : s.Owned) (h : s.step? setup a = some (t, seen)) :
    t.Suited := by
  cases operationsMove_of_step? h with
  | operation h => exact hs.of_operationStep h
  | still ht => exact hs.congr ht
  | handed hx _ howner ht => exact hs.put (howned.owner hx howner) ht fun _ _ _ => .ended

end Suited

variable [DecidableEq κ] {setup : Setup κ} {tr : List (Transition κ)}

/-- **At every moment every operation is in a stage that suits its request.** -/
theorem History.suits (h : History setup .start tr s) : s.Suited := by
  induction h with
  | nil => exact fun i r st hr => by simp [Service.start, request?] at hr
  | snoc h hstep ih => exact ih.step h.owned hstep

end Service

end TxDelivery
