import TxDelivery.Proofs.Operation.Move

/-!
# One delivery among the others

A step of a service seen from one delivery (`TxDelivery.Service.DeliveryMove`). Either the step does
not concern the delivery, and then nothing that is seen of it does
(`TxDelivery.Observation.delivery?`); or it starts the delivery, ends it, lets it proceed, or drops
it together with the caller who waited for it. **What is proved of deliveries is proved along these
five cases.**

The service has several dozen kinds of steps, and most of them do not touch most deliveries. Going
through all of them in every proof about a delivery would say the same thing each time, so it is
said here once: `TxDelivery.Service.deliveryMove_of_step?` goes through the steps of operations, of
deliveries, of the bookkeepers and from outside, and finds for each of them which of the five cases
it is, whatever delivery is looked at. A new kind of step is a new case in that proof and in no
other.

Two of the cases carry more than what happens to the delivery itself.

* A delivery that starts does so because the node accepted the first broadcast of an operation. The
  case names that operation, the submission it was at and where it is afterwards: waiting for the
  outcome if that is what was asked for (`TxDelivery.Service.ownerOf`), and with its broadcast
  accepted in any case (`TxDelivery.Operation.Stage.isAccepted`).
* A delivery that ends hands its outcome over to whoever waited for it.

What is seen of a step that concerns another delivery is about that one. Observations name the party
they are about, so this is a matter of what each step shows
(`TxDelivery.Delivery.Proceeds.delivery?`) and involves no state.
-/

namespace TxDelivery

/-- The delivery an observation is about, if it is about one. -/
def Observation.delivery? : Observation → Option DeliveryId
  | .called (.supervisor d) _ | .called (.listener d) _ | .published d _ => some d
  | .called (.operation _) _ | .called (.bookkeeper _) _ | .logged _ => none

variable {κ : Type} {setup : Setup κ}

/-- Whether the first broadcast of an operation was accepted and it is done with it. -/
def Operation.Stage.isAccepted : Operation.Stage κ → Bool
  | .supervising _ | .ended (.sent _) | .ended (.delivered _) | .ended (.enqueued (some _))
  | .dropped => true
  | _ => false

/-- The log is about no delivery. -/
theorem delivery?_of_mem_log {log : List LogEvent} {o : Observation}
    (h : o ∈ log.map Observation.logged) : o.delivery? = none := by
  obtain ⟨event, -, rfl⟩ := List.mem_map.mp h
  rfl

namespace Submission

/-- A submission that opens speaks for its operation. -/
theorem Opening.delivery? {lock lock' : FairLock OperationId} {i : OperationId}
    {sub : Submission κ} {seen : List Observation} (h : Opening lock i sub lock' seen) :
    ∀ o ∈ seen, o.delivery? = none := by
  cases h with
  | pricing => exact List.forall_mem_singleton.mpr rfl
  | estimating => exact List.forall_mem_singleton.mpr rfl
  | queued => exact List.forall_mem_nil _

/-- A refusal is only logged. -/
theorem Refusal.delivery? {s : Service κ} {i : OperationId} {sub : Submission κ} {a : Action κ}
    {e : DeliveryError} {n : NonceState} {lock : FairLock OperationId} {m : Metrics}
    {seen : List Observation} (h : Refusal s i sub a e n lock m seen) :
    ∀ o ∈ seen, o.delivery? = none := by
  cases h with
  | broadcast => exact List.forall_mem_singleton.mpr rfl
  | _ => exact List.forall_mem_nil _

end Submission

namespace Delivery

/-- What is seen of a delivery that proceeds is about this delivery. -/
theorem Proceeds.delivery? {now : Nat} {d d' : DeliveryId} {x x' : Delivery} {m m' : Metrics}
    {a : Action κ} {seen : List Observation} (h : x.Proceeds setup now d m a x' m' seen) :
    ∀ o ∈ seen, o.delivery? = some d' → d' = d := by
  have hcalls (l : Listener) (o : Observation)
      (ho : o ∈ l.call?.toList.map (Observation.called (.listener d)))
      (hd : o.delivery? = some d') : d' = d := by
    obtain ⟨call, -, rfl⟩ := List.mem_map.mp ho
    exact (Option.some.inj hd).symm
  intro o ho hd
  cases h with
  | tick | ask | broadcast =>
    obtain rfl := List.mem_singleton.mp ho
    exact (Option.some.inj hd).symm
  | note | crash => exact absurd ho List.not_mem_nil
  | noteStopped | keep | retry | adopt | reject =>
    obtain rfl := List.mem_singleton.mp ho
    contradiction
  | receive | poll => exact hcalls _ o ho hd
  | lapse =>
    rcases List.mem_cons.mp ho with rfl | ho
    · contradiction
    · exact hcalls _ o ho hd
  | answer =>
    rcases List.mem_append.mp ho with ho | ho
    · rw [delivery?_of_mem_log ho] at hd
      contradiction
    · exact hcalls _ o ho hd

end Delivery

namespace Service

variable [DecidableEq κ]

open Operation Delivery

/-- The operation that waits for the outcome of a submission's delivery, if one does. -/
def ownerOf (i : OperationId) (sub : Submission κ) : Option OperationId :=
  if sub.origin = .attached then some i else none

/-- **A step seen from one delivery.** -/
inductive DeliveryMove (setup : Setup κ) (s : Service κ) (d : DeliveryId) (a : Action κ)
    (t : Service κ) (seen : List Observation) : Prop where
  /-- The step is not about the delivery. -/
  | still (ht : t.deliveries[d]? = s.deliveries[d]?)
      (hseen : ∀ o ∈ seen, o.delivery? ≠ some d)
  /-- The node accepted a first broadcast, and the delivery starts. -/
  | launched {i : OperationId} {sub : Submission κ} {signed : SignedTx} {deadline : Nat}
      {hash : Hash} (hd : d = s.deliveries.length) (ha : a = .reply (.operation i) (.accepted hash))
      (hst : s.stage? i = some (.submitting sub))
      (hs : sub.stage = .broadcasting signed deadline)
      (ht : t.deliveries[d]? =
        some (.start setup.config s.now (ownerOf i sub) sub.options deadline signed))
      (hwait : ∀ j, ownerOf i sub = some j → t.stage? j = some (.supervising d))
      (haccepted : ∃ st, t.stage? i = some st ∧ st.isAccepted = true)
      (hseen : seen = [.logged .broadcast])
  /-- The delivery ends. -/
  | concluded {x : Delivery} {outcome : Outcome} (hx : s.deliveries[d]? = some x)
      (hends : x.Ends setup s.now d a outcome)
      (ht : t.deliveries[d]? =
        some { x with stage := .ended outcome, listener := x.listener.stop })
      (htops : t.operations = handOver s.operations x.owner outcome)
      (hconfirms : t.confirms = (s.publish outcome).confirms)
      (herrors : t.errors = (s.publish outcome).errors)
      (hseen : seen = [.logged (outcomeLog outcome), .published d outcome])
  /-- The delivery proceeds. -/
  | proceeded {x x' : Delivery} (hx : s.deliveries[d]? = some x)
      (hproceeds : x.Proceeds setup s.now d s.metrics a x' t.metrics seen)
      (ht : t.deliveries[d]? = some x') (htops : t.operations = s.operations)
  /-- The caller who waits for the delivery drops it. -/
  | abandoned {x : Delivery} {i : OperationId} (hx : s.deliveries[d]? = some x)
      (ha : a = .drop i) (hst : s.stage? i = some (.supervising d))
      (ht : t.deliveries[d]? = some x.abandon) (hdropped : t.stage? i = some .dropped)
      (hseen : seen = [])

variable {s t : Service κ} {a : Action κ} {seen : List Observation} {d : DeliveryId}

/-- A step that leaves the deliveries alone and is about none of them. -/
theorem deliveryMove_of_eq (ht : t.deliveries = s.deliveries)
    (hseen : ∀ o ∈ seen, o.delivery? = none) :
    DeliveryMove setup s d a t seen :=
  .still (by rw [ht]) fun o ho => by simp [hseen o ho]

/-- A step that starts a delivery. -/
theorem deliveryMove_of_launch {i : OperationId} {sub : Submission κ} {signed : SignedTx}
    {deadline : Nat} {hash : Hash} (hst : s.stage? i = some (.submitting sub))
    (hs : sub.stage = .broadcasting signed deadline)
    (ht : t.deliveries = s.deliveries ++
      [.start setup.config s.now (ownerOf i sub) sub.options deadline signed])
    (hwait : ∀ j, ownerOf i sub = some j → t.stage? j = some (.supervising s.deliveries.length))
    (haccepted : ∃ st, t.stage? i = some st ∧ st.isAccepted = true) :
    DeliveryMove setup s d (.reply (.operation i) (.accepted hash)) t [.logged .broadcast] := by
  by_cases hd : d = s.deliveries.length
  · refine .launched hd rfl hst hs ?_ (hd ▸ hwait) haccepted rfl
    rw [ht, getElem?_append_singleton, if_pos hd]
  · refine .still ?_ (List.forall_mem_singleton.mpr (by simp [Observation.delivery?]))
    rw [ht, getElem?_append_singleton, if_neg hd]

theorem deliveryMove_of_operationStep (h : OperationStep setup s a (t, seen)) :
    DeliveryMove setup s d a t seen := by
  have hlog : ∀ e : LogEvent, ∀ o ∈ [Observation.logged e], o.delivery? = none := fun e =>
    (List.forall_mem_singleton.mpr rfl)
  have hnil : ∀ o ∈ ([] : List Observation), o.delivery? = none := List.forall_mem_nil _
  cases h with
  | submit _ _ hopen => exact deliveryMove_of_eq rfl hopen.delivery?
  | price _ _ _ _ hopen => exact deliveryMove_of_eq rfl hopen.delivery?
  | enqueue _ _ _ _ _ _ hopen =>
    refine deliveryMove_of_eq rfl (fun o ho => ?_)
    rcases List.mem_append.mp ho with ho | ho
    · split at ho
      · exact hlog _ o ho
      · exact hnil o ho
    · exact hopen.delivery? o ho
  | duplicate => exact deliveryMove_of_eq rfl (hlog _)
  | tooLow => exact deliveryMove_of_eq rfl (hlog _)
  | estimate | replace | fetch | sign | nonce | signed | escalate =>
    exact deliveryMove_of_eq rfl (List.forall_mem_singleton.mpr rfl)
  | enter | forget | mark | read | forgotten | gas | drop => exact deliveryMove_of_eq rfl hnil
  | refuse _ _ href => exact deliveryMove_of_eq rfl href.delivery?
  | refuseQueued _ _ href => exact deliveryMove_of_eq rfl href.delivery?
  | answer => exact deliveryMove_of_eq rfl (fun o ho => delivery?_of_mem_log ho)
  | launchDetached hst hs horigin | launchQueued hst hs horigin =>
    exact deliveryMove_of_launch hst hs (by simp [ownerOf, horigin]) (by simp [ownerOf, horigin])
      ⟨_, stage?_put_self rfl hst, rfl⟩
  | launchAttached hst hs horigin =>
    refine deliveryMove_of_launch hst hs (by simp [ownerOf, horigin]) (fun j hj => ?_)
      ⟨_, stage?_put_self rfl hst, rfl⟩
    obtain rfl : _ = j := by simpa [ownerOf, horigin] using hj
    exact stage?_put_self rfl hst
  | @dropWaiting i d' hst =>
    by_cases hd : d' = d
    · subst hd
      cases hx : s.deliveries[d']? with
      | none =>
        refine .still ?_ (by simp)
        simp [hx]
      | some x =>
        refine .abandoned hx rfl hst ?_ (stage?_put_self rfl hst) rfl
        simp [hx]
    · refine .still ?_ (by simp)
      simp [hd]

theorem deliveryMove_of_deliveryStep (h : DeliveryStep setup s a (t, seen)) :
    DeliveryMove setup s d a t seen := by
  cases h with
  | @conclude d' x _ outcome hx hends =>
    have hlt : d' < s.deliveries.length := (List.getElem?_eq_some_iff.mp hx).1
    by_cases hd : d' = d
    · subst hd
      exact .concluded hx hends (List.getElem?_set_self hlt) rfl rfl rfl rfl
    · refine .still (List.getElem?_set_ne hd) fun o ho hod => ?_
      simp only [List.mem_cons, List.not_mem_nil, or_false] at ho
      rcases ho with rfl | rfl
      · contradiction
      · exact hd (Option.some.inj hod)
  | @proceed d' x x' _ m _ hx hproceeds =>
    have hlt : d' < s.deliveries.length := (List.getElem?_eq_some_iff.mp hx).1
    by_cases hd : d' = d
    · subst hd
      exact .proceeded hx hproceeds (List.getElem?_set_self hlt) rfl
    · exact .still (List.getElem?_set_ne hd) fun o ho hod => hd (hproceeds.delivery? o ho hod).symm

/-- **Every step, seen from one delivery**, is one of the five kinds. -/
theorem deliveryMove_of_step? (h : s.step? setup a = some (t, seen)) :
    DeliveryMove setup s d a t seen := by
  have hnil : ∀ o ∈ ([] : List Observation), o.delivery? = none := List.forall_mem_nil _
  cases step_of_step? h with
  | operation h => exact deliveryMove_of_operationStep h
  | delivery h => exact deliveryMove_of_deliveryStep h
  | bookkeeper h =>
    cases h with
    | start => exact deliveryMove_of_eq rfl (List.forall_mem_singleton.mpr rfl)
    | takeConfirm => exact deliveryMove_of_eq rfl (fun o ho => delivery?_of_mem_log ho)
    | takeError => exact deliveryMove_of_eq rfl (fun o ho => delivery?_of_mem_log ho)
    | mark => exact deliveryMove_of_eq rfl hnil
    | stop => exact deliveryMove_of_eq rfl (List.forall_mem_singleton.mpr rfl)
  | outside h =>
    cases h with
    | drainConfirms => exact deliveryMove_of_eq rfl (fun o ho => delivery?_of_mem_log ho)
    | drainErrors => exact deliveryMove_of_eq rfl (fun o ho => delivery?_of_mem_log ho)
    | _ => exact deliveryMove_of_eq rfl hnil

end Service

end TxDelivery
