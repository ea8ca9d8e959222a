import TxDelivery.Proofs.Delivery.Life
import TxDelivery.Proofs.Veil.Basic

/-!
# Deliveries go on alike

Whatever a delivery does next, it does the same whether its owner is behind the veil or not. Its end
is where callers and deliveries have to fit together (`TxDelivery.Service.Owned`): the outcome goes
to an operation that waits for this very delivery, so that behind the veil it goes unnoticed.

The proofs follow the functions and not the tables. An equation between what is possible before the
veil and behind it says that both are possible or neither is, and a table could be used for that
only in both directions at once. Instead a function is followed along its decisions: wherever it
looks at a delivery, it looks at something the veil does not hide.

## Whom it concerns

A listener takes no notice of the owner of its delivery. For all that it does one statement is
enough, with what it does as a variable (`TxDelivery.Service.veil_listens`); it takes only that the
same comes of it with another owner, which is so by definition.

A supervisor does not look at the owner either, but it hands over the outcome. With the end of a
delivery an operation that waits for it goes to its last stage. Before the veil this is a change;
behind it there is nothing to see, provided that the operation was waiting, for then it was shown as
done already (`TxDelivery.Service.veil_handOver`). Were the owner an operation that does something
else, the two would differ here. So this is where an invariant of runs is needed, and the only
place.

An attempt at a replacement ends the delivery if the price is over the limit, and goes on otherwise;
both is done with the same lemma for its end (`TxDelivery.Service.veil_conclude`).
-/

namespace TxDelivery

variable {κ : Type}

namespace Service

open Operation

variable {who : OperationId → Bool} {setup : Setup κ} {s : Service κ} {i : OperationId}
  {d : DeliveryId} {x : Delivery}

/-- A delivery that goes on, behind the veil. -/
theorem veil_setDelivery (x : Delivery) (seen : List Observation) :
    veilMove who (s.setDelivery d x, seen) =
      veilMove who ((s.veil who).setDelivery d (x.veil who), seen) := by
  simp [veilMove, setDelivery, veil, Delivery.veil_veil]

/-- Behind the veil the end of a delivery changes nothing for the operation that waits for it. -/
theorem veil_handOver (who : OperationId → Bool) {owner : Option OperationId} (outcome : Outcome)
    (howner : ∀ i, owner = some i → s.stage? i = some (.supervising d)) :
    veilOperations who (handOver s.operations owner outcome) =
      veilOperations who (handOver (veilOperations who s.operations)
        (owner.filter fun i => !who i) outcome) := by
  cases owner with
  | none => simp [handOver]
  | some i =>
    cases hw : who i with
    | false => simp [Option.filter, hw, handOver, Operation.put, veilIf]
    | true =>
      obtain ⟨⟨r, st⟩, ho, hstage⟩ := Option.map_eq_some_iff.mp (howner i rfl)
      obtain rfl : st = .supervising d := hstage
      have ho' := veil_operation who ho
      simp only [hw, veilIf, Operation.Stage.veil, if_true] at ho'
      have hself := modify_stage_self ho'
      simp only [veil] at hself
      simp only [Option.filter, hw, Bool.not_true, Bool.false_eq_true, if_false, handOver,
        Operation.put, veilOperations_modify, veilIf, Operation.Stage.veil, if_true, hself,
        veilOperations_veilOperations]

/-- **A delivery ends alike**, whether its owner is behind the veil or not. -/
theorem veil_conclude (outcome : Outcome)
    (howner : ∀ i, x.owner = some i → s.stage? i = some (.supervising d)) :
    veilMove who (s.conclude d x outcome) =
      veilMove who ((s.veil who).conclude d (x.veil who) outcome) := by
  have hops := veil_handOver who outcome howner
  rw [conclude_eq, conclude_eq]
  cases outcome <;> simp [veilMove, veil, publish, hops, Delivery.veil, Option.filter_filter]

theorem veil_tick? : veilMove? who (s.tick? d) = veilMove? who ((s.veil who).tick? d) := by
  cases hx : s.deliveries[d]? with
  | none => simp [tick?, hx, veil_delivery_none hx]
  | some x =>
    simp only [tick?, hx, veil_delivery hx, Option.bind_eq_bind, Option.bind_some]
    exact veilMove?_ite fun _ => congrArg some (veil_setDelivery _ _)

theorem isOpen_of_isWaiting (h : x.isWaiting = true) : x.isOpen = true := by
  simp [Delivery.isOpen, Delivery.isWaiting_iff.mp h]

theorem veil_expire? (hs : s.Owned) :
    veilMove? who (s.expire? setup d) = veilMove? who ((s.veil who).expire? setup d) := by
  cases hx : s.deliveries[d]? with
  | none => simp [expire?, hx, veil_delivery_none hx]
  | some x =>
    simp only [expire?, hx, veil_delivery hx, Option.bind_eq_bind, Option.bind_some]
    refine veilMove?_ite fun hc => congrArg some (veil_conclude _ ?_)
    exact hs.owner_of_isOpen hx (isOpen_of_isWaiting (Bool.and_eq_true_iff.mp hc).1)

theorem veil_join? (hs : s.Owned) :
    veilMove? who (s.join? d) = veilMove? who ((s.veil who).join? d) := by
  cases hx : s.deliveries[d]? with
  | none => simp [join?, hx, veil_delivery_none hx]
  | some x =>
    simp only [join?, hx, veil_delivery hx, Option.bind_eq_bind, Option.bind_some]
    refine veilMove?_ite fun hc => ?_
    have hlistener : (x.veil who).listener = x.listener := rfl
    rw [hlistener]
    rcases x.listener.result? with _ | ⟨⟨⟩ | _ | mined⟩
    · rfl
    · exact congrArg some (veil_setDelivery { x with joined := true } _)
    · exact congrArg some (veil_setDelivery { x with joined := true } _)
    · refine congrArg some (veil_conclude _ ?_)
      exact hs.owner_of_isOpen hx (isOpen_of_isWaiting (Bool.and_eq_true_iff.mp hc).1)

theorem veil_escalate (progress : Escalation.Progress)
    (howner : ∀ i, x.owner = some i → s.stage? i = some (.supervising d)) :
    veilMove who (s.escalate d x progress) =
      veilMove who ((s.veil who).escalate d (x.veil who) progress) := by
  rcases progress with e | (err | _ | replacement)
  · exact veil_setDelivery _ _
  · cases herr : err.isTerminal with
    | true =>
      simp only [escalate, herr, if_true]
      exact veil_conclude _ howner
    | false =>
      simp only [escalate, herr, Bool.false_eq_true, if_false]
      exact veil_setDelivery _ _
  · exact veil_setDelivery _ _
  · exact veil_setDelivery _ _

theorem veil_replySupervisor? (hs : s.Owned) (reply : Reply) :
    veilMove? who (s.replySupervisor? setup d reply) =
      veilMove? who ((s.veil who).replySupervisor? setup d reply) := by
  cases hx : s.deliveries[d]? with
  | none => simp [replySupervisor?, hx, veil_delivery_none hx]
  | some x =>
    have hstage : (x.veil who).stage = x.stage := rfl
    simp only [replySupervisor?, hx, veil_delivery hx, Option.bind_eq_bind, Option.bind_some,
      hstage]
    cases hst : x.stage with
    | waiting | ended | dropped => rfl
    | replacing e =>
      cases hp : e.advance? setup.config.priceBumpPercent reply with
      | none => simp [hp]
      | some progress =>
        simp only [hp, Option.bind_some]
        refine congrArg some (veil_escalate _ ?_)
        exact hs.owner_of_isOpen hx (by simp [Delivery.isOpen, hst])
    | rebroadcasting replacement =>
      cases reply with
      | accepted hash => exact congrArg some (veil_setDelivery (x.adopt replacement) _)
      | failed e => exact congrArg some (veil_setDelivery { x with stage := .waiting } _)
      | _ => rfl

/-- **The listener goes on alike.** -/
theorem veil_setListener (l : Listener) (log : List LogEvent) :
    veilMove who (s.setListener d x l log) =
      veilMove who ((s.veil who).setListener d (x.veil who) l log) :=
  veil_setDelivery { x with listener := l } _

/-- **Whatever a listener does**, `listens` being how and `l` and `log` what comes of it, it does
alike: it takes no notice of the owner of its delivery. -/
theorem veil_listens {α : Type} {listens : Delivery → Option α} (l : α → Listener)
    (log : α → List LogEvent) (halike : ∀ x : Delivery, listens (x.veil who) = listens x) :
    veilMove? who (do
        let x ← s.deliveries[d]?
        let r ← listens x
        some (s.setListener d x (l r) (log r))) =
      veilMove? who (do
        let x ← (s.veil who).deliveries[d]?
        let r ← listens x
        some ((s.veil who).setListener d x (l r) (log r))) := by
  cases hx : s.deliveries[d]? with
  | none => simp [veil_delivery_none hx]
  | some x =>
    simp only [veil_delivery hx, Option.bind_eq_bind, Option.bind_some, halike]
    cases listens x with
    | none => rfl
    | some r => exact congrArg some (veil_setListener (l r) (log r))

theorem veil_receive? : veilMove? who (s.receive? d) = veilMove? who ((s.veil who).receive? d) :=
  veil_listens id (fun _ => []) fun _ => rfl

theorem veil_poll? : veilMove? who (s.poll? d) = veilMove? who ((s.veil who).poll? d) :=
  veil_listens id (fun _ => []) fun _ => rfl

theorem veil_lapse? : veilMove? who (s.lapse? d) = veilMove? who ((s.veil who).lapse? d) :=
  veil_listens id (fun _ => [.watchLapsed]) fun _ => rfl

theorem veil_crash? : veilMove? who (s.crash? d) = veilMove? who ((s.veil who).crash? d) :=
  veil_listens id (fun _ => []) fun _ => rfl

theorem veil_replyListener? (reply : Reply) :
    veilMove? who (s.replyListener? setup d reply) =
      veilMove? who ((s.veil who).replyListener? setup d reply) :=
  veil_listens Prod.fst Prod.snd fun _ => rfl

end Service

end TxDelivery
