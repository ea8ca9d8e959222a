import TxDelivery.Proofs.Lock.Line
import TxDelivery.Proofs.Delivery.Dialogue

/-!
# A service without one of its operations

What is left of a service when a caller drops an operation (`TxDelivery.Service.without`): the
operation is gone from the line of the nonce lock, the delivery it waited for has ended with it, and
nothing else is different. **The other deliveries are not affected**: they are as they were, and
whatever they can do next they can do with the operation and without it, with the same effect
(`TxDelivery.Service.step?_without`).

This is an equation, and no more than that. Taking an operation away commutes with every step of a
delivery of which it is not the owner: taken away before the step or after it, what is left is the
same, what is seen is the same, and a step that is not possible is not possible either way. The
functions that take such steps read and write a delivery at its place, the feeds and the metrics,
and when a delivery ends, its owner. So it is enough that each of them finds the same at that place
(`TxDelivery.Service.getElem?_deliveries_without`) and writes the same there
(`TxDelivery.Service.without_setDelivery`), and that an owner, if there is one, is another operation
(`TxDelivery.Service.without_finish`).

## Dropping a call that waits

It remains to see that dropping is taking away (`TxDelivery.Service.History.step?_drop`). A caller
who waits can drop the call at any moment before it is over. Before its first broadcast is accepted
no delivery ends with it, and afterwards exactly one does; for both it takes that callers and
deliveries belong together, as in every state that a run leads to. The status lock is not touched,
for a call that waits has nothing to do with it.
-/

namespace TxDelivery

variable {κ : Type}

/-- Who does not stand in the line of a lock leaves nothing behind. -/
theorem FairLock.leave_of_not_mem_line {α : Type} [DecidableEq α] {l : FairLock α} {x : α}
    (h : x ∉ l.line) : l.leave x = l := by
  have hqueue : (l.queue.filter fun e => e.1 ≠ x) = l.queue :=
    List.filter_eq_self.mpr fun e he =>
      decide_eq_true fun heq => h (heq ▸ List.mem_map_of_mem he)
  rw [leave, hqueue]

/-- A delivery without the operation `i`: if the operation waits for it, it ends. -/
def Delivery.without (i : OperationId) (x : Delivery) : Delivery :=
  if x.owner = some i then x.abandon else x

theorem Delivery.without_of_ne {i : OperationId} {x : Delivery} (h : x.owner ≠ some i) :
    x.without i = x := if_neg h

namespace Service

open Operation

/-- **The service without an operation**, which its caller dropped. -/
def without (s : Service κ) (i : OperationId) : Service κ :=
  { s with
    operations := put s.operations i .dropped
    nonceLock := s.nonceLock.leave i
    deliveries := s.deliveries.map (Delivery.without i) }

/-- A move without an operation. -/
def Move.without (m : Move κ) (i : OperationId) : Move κ := (m.1.without i, m.2)

variable {setup : Setup κ} {s t : Service κ} {a : Action κ} {seen : List Observation}
  {i j : OperationId} {d : DeliveryId} {x : Delivery} {tr : List (Transition κ)}
  {tx : Transaction} {options : DeliveryOptions} {st : Operation.Stage κ}

theorem getElem?_deliveries_without (howner : x.owner ≠ some i) (hx : s.deliveries[d]? = some x) :
    (s.without i).deliveries[d]? = some x := by
  simp [without, hx, Delivery.without_of_ne howner]

theorem without_setDelivery (howner : x.owner ≠ some i) :
    (s.setDelivery d x).without i = (s.without i).setDelivery d x := by
  simp [without, setDelivery, List.map_set, Delivery.without_of_ne howner]

theorem without_finish {answer : Answer} (h : j ≠ i) :
    (s.finish j answer).without i = (s.without i).finish j answer := by
  simp only [without, finish, setOperation, put, List.modify_modify_ne _ _ _ h]

/-- What another delivery does by itself has nothing to do with the operation. -/
theorem setDelivery_without (howner : x.owner ≠ some i) :
    ((s.without i).setDelivery d x, seen) = Move.without (s.setDelivery d x, seen) i := by
  rw [Move.without, without_setDelivery howner]

/-- The end of another delivery has nothing to do with the operation. -/
theorem conclude_without {outcome : Outcome} (howner : x.owner ≠ some i) :
    (s.without i).conclude d x outcome = Move.without (s.conclude d x outcome) i := by
  have hdelivered (s : Service κ) :
      (s.without i).deliverTo x.owner outcome = (s.deliverTo x.owner outcome).without i := by
    cases hj : x.owner with
    | none => rfl
    | some j =>
      have hne : j ≠ i := fun heq => howner (heq ▸ hj)
      exact (without_finish hne).symm
  have hpublish (s : Service κ) :
      (s.without i).publish outcome = (s.publish outcome).without i := by
    cases outcome <;> rfl
  have hcount : (s.without i).count (.outcome outcome.kind) =
      (s.count (.outcome outcome.kind)).without i := rfl
  have hclosed :
      ({ x with stage := .ended outcome, listener := x.listener.stop } : Delivery).owner ≠ some i :=
    howner
  simp only [conclude, Move.without, hcount, hpublish, ← hdelivered, without_setDelivery hclosed]

/-- A step of an escalation of another delivery has nothing to do with the operation. -/
theorem escalate_without {progress : Escalation.Progress} (howner : x.owner ≠ some i) :
    (s.without i).escalate d x progress = Move.without (s.escalate d x progress) i := by
  rcases progress with e | err | _ | replacement
  · exact setDelivery_without howner
  · simp only [escalate]
    split
    · exact conclude_without howner
    · exact setDelivery_without howner
  · exact setDelivery_without howner
  · exact setDelivery_without howner

/-- What is done with a result, if there is one. -/
theorem bind_without {β : Type} {o : Option β} {f g : β → Move κ}
    (h : ∀ b, g b = Move.without (f b) i) :
    (o.bind fun b => some (g b)) = (o.bind fun b => some (f b)).map (Move.without · i) := by
  cases o with
  | none => rfl
  | some b => exact congrArg some (h b)

variable [DecidableEq κ]

/-- **What the other deliveries can do** they can do with the operation and without it, with the
same effect. -/
theorem step?_without (hx : s.deliveries[d]? = some x) (howner : x.owner ≠ some i)
    (ha : a.delivery? = some d) :
    (s.without i).step? setup a = (s.step? setup a).map (Move.without · i) := by
  have hx' := getElem?_deliveries_without howner hx
  have hnow : (s.without i).now = s.now := rfl
  -- Each of these steps reads the delivery, the time and the settings, and nothing else.
  cases a with
  | tick d' =>
    obtain rfl := Option.some.inj ha
    simp only [step?, act?, tick?, hx, hx', Option.bind_eq_bind, Option.bind_some, hnow]
    split
    · exact congrArg some (setDelivery_without howner)
    · rfl
  | expire d' =>
    obtain rfl := Option.some.inj ha
    simp only [step?, act?, expire?, hx, hx', Option.bind_eq_bind, Option.bind_some, hnow]
    split
    · exact congrArg some (conclude_without howner)
    · rfl
  | join d' =>
    obtain rfl := Option.some.inj ha
    simp only [step?, act?, join?, hx, hx', Option.bind_eq_bind, Option.bind_some]
    split
    · cases x.listener.result? with
      | none => rfl
      | some result =>
        rcases result with ⟨⟩ | _ | mined
        · exact congrArg some (setDelivery_without howner)
        · exact congrArg some (setDelivery_without howner)
        · exact congrArg some (conclude_without howner)
    · rfl
  | receive d' =>
    obtain rfl := Option.some.inj ha
    simp only [step?, act?, receive?, hx, hx', Option.bind_eq_bind, Option.bind_some]
    exact bind_without fun l => setDelivery_without howner
  | poll d' =>
    obtain rfl := Option.some.inj ha
    simp only [step?, act?, poll?, hx, hx', Option.bind_eq_bind, Option.bind_some, hnow]
    exact bind_without fun l => setDelivery_without howner
  | lapse d' =>
    obtain rfl := Option.some.inj ha
    simp only [step?, act?, lapse?, hx, hx', Option.bind_eq_bind, Option.bind_some, hnow]
    exact bind_without fun l => setDelivery_without howner
  | crash d' =>
    obtain rfl := Option.some.inj ha
    simp only [step?, act?, crash?, hx, hx', Option.bind_eq_bind, Option.bind_some]
    exact bind_without fun l => setDelivery_without howner
  | reply who answer =>
    cases who with
    | supervisor d' =>
      obtain rfl := Option.some.inj ha
      simp only [step?, act?, reply?, replySupervisor?, hx, hx', Option.bind_eq_bind,
        Option.bind_some]
      split
      case h_1 => exact bind_without fun progress => escalate_without howner
      case h_2 replacement _ _ =>
        exact congrArg some (setDelivery_without (x := x.adopt replacement) (s := { s with
          metrics := (s.metrics.increment (.rebroadcast true)).recordPrice
            replacement.tx.gasPrice }) howner)
      case h_3 =>
        exact congrArg some (setDelivery_without (x := { x with stage := .waiting })
          (s := s.count (.rebroadcast false)) howner)
      case h_4 => rfl
    | listener d' =>
      obtain rfl := Option.some.inj ha
      simp only [step?, act?, reply?, replyListener?, hx, hx', Option.bind_eq_bind,
        Option.bind_some]
      exact bind_without fun result => setDelivery_without howner
    | operation j | bookkeeper b => contradiction
  | _ => contradiction

/-! ### Dropping an operation -/

/-- An operation that is not over can be dropped. -/
theorem exists_drop? (hst : s.stage? i = some st) (hended : ∀ answer, st ≠ .ended answer)
    (hdropped : st ≠ .dropped) : ∃ m, s.step? setup (.drop i) = some m := by
  obtain ⟨o, ho, rfl⟩ := Option.map_eq_some_iff.mp hst
  have hopen : o.isOpen = true := by
    cases hstage : o.stage with
    | ended answer => exact absurd hstage (hended answer)
    | dropped => exact absurd hstage hdropped
    | _ => simp [isOpen, hstage]
  simp only [step?, act?, drop?, ho, Option.bind_eq_bind, Option.bind_some, if_pos hopen]
  split <;> exact ⟨_, rfl⟩

/-- A send that waits for its outcome makes its first broadcast or supervises its delivery, until it
is over. -/
theorem History.stage_of_sendAndWait (h : History setup .start tr s)
    (hr : s.request? i = some (.sendAndWait tx options)) (hst : s.stage? i = some st)
    (hended : ∀ answer, st ≠ .ended answer) (hdropped : st ≠ .dropped) :
    (∃ sub, st = .submitting sub ∧ sub.origin = .attached) ∨ ∃ d, st = .supervising d := by
  cases h.suits hr hst with
  | @submitting sub hmakes =>
    refine .inl ⟨sub, rfl, ?_⟩
    cases horigin : sub.origin with
    | attached => rfl
    | detached | queue => simp [Request.makes, horigin] at hmakes
  | supervising => exact .inr ⟨_, rfl⟩
  | entering haccess => simp [Request.access?] at haccess
  | estimating hr' | replacing hr' | resetting hr' => contradiction
  | ended => exact absurd rfl (hended _)
  | dropped => exact absurd rfl hdropped

omit [DecidableEq κ] in
/-- An operation that waits for no delivery takes none with it. -/
theorem map_without_of_ne_supervising (hs : s.Owned) (hst : s.stage? i = some st)
    (hended : ∀ answer, st ≠ .ended answer) (hdropped : st ≠ .dropped)
    (hwait : ∀ d, st ≠ .supervising d) : s.deliveries.map (Delivery.without i) = s.deliveries := by
  refine (List.map_congr_left fun x hx => ?_).trans (List.map_id _)
  obtain ⟨d, hd⟩ := List.mem_iff_getElem?.mp hx
  refine Delivery.without_of_ne fun howner => ?_
  -- Its caller is where the delivery is: it waits, or is over.
  obtain rfl := Option.some.inj (hst.symm.trans (hs.owner hd howner))
  cases hstage : x.stage with
  | ended outcome => exact hended _ (by rw [ownerStage, hstage])
  | dropped => exact hdropped (by rw [ownerStage, hstage])
  | waiting | replacing | rebroadcasting => exact hwait d (by rw [ownerStage, hstage])

omit [DecidableEq κ] in
/-- An operation that waits for a delivery takes this one with it. -/
theorem map_without_of_supervising (hs : s.Owned) (hst : s.stage? i = some (.supervising d)) :
    s.deliveries.map (Delivery.without i) = s.deliveries.modify d Delivery.abandon := by
  refine List.ext_getElem? fun d' => ?_
  rw [List.getElem?_map, List.getElem?_modify]
  cases hx : s.deliveries[d']? with
  | none => rfl
  | some x =>
    by_cases howner : x.owner = some i
    · obtain ⟨rfl, -⟩ := hs.eq_of_supervising hx howner hst
      simp [Delivery.without, howner]
    · -- The operation waits for none but its own.
      have hd : d ≠ d' := by
        rintro rfl
        obtain ⟨x', hx', howner'⟩ := hs.waits hst
        obtain rfl := Option.some.inj (hx.symm.trans hx')
        exact howner howner'
      simp [Delivery.without_of_ne howner, hd]

/-- **A send that waits for its outcome can be dropped at any moment**, and what is left is the
service without it. -/
theorem History.step?_drop (h : History setup .start tr s)
    (hr : s.request? i = some (.sendAndWait tx options)) (hst : s.stage? i = some st)
    (hended : ∀ answer, st ≠ .ended answer) (hdropped : st ≠ .dropped) :
    s.step? setup (.drop i) = some (s.without i, []) := by
  obtain ⟨m, hm⟩ : ∃ m, s.step? setup (.drop i) = some m := exists_drop? hst hended hdropped
  -- A send that waits for its outcome has nothing to do with the statuses.
  have hstatuses : s.statusLock.leave (.operation i) = s.statusLock := by
    refine FairLock.leave_of_not_mem_line fun hmem => ?_
    have hwants := (h.lined.statuses.mem_iff _).mp hmem
    rw [wantsStatuses_eq hst] at hwants
    rcases h.stage_of_sendAndWait hr hst hended hdropped with ⟨sub, rfl, horigin⟩ | ⟨d, rfl⟩
    · simp [Operation.Stage.wantsStatuses, Operation.Stage.holding?, horigin] at hwants
    · simp [Operation.Stage.wantsStatuses, Operation.Stage.holding?] at hwants
  have hdrop : OperationStep setup s (.drop i) m := operationStep_of_drop? hm
  rw [hm]
  cases hdrop with
  | drop hst' hended' hdropped' hwait =>
    simp only [without, hstatuses,
      map_without_of_ne_supervising h.owned hst' hended' hdropped' hwait]
  | dropWaiting hst' =>
    simp only [without, hstatuses, map_without_of_supervising h.owned hst']
  | refuse _ _ href | refuseQueued _ _ href => cases href

end Service

end TxDelivery
