import TxDelivery.Proofs.Step.Bookkeeper
import TxDelivery.Proofs.Step.Delivery
import TxDelivery.Proofs.Step.Operation

/-!
# The steps of a service

Every step of a service is one of an operation, of a delivery, of a bookkeeper or of the outside
world (`TxDelivery.Service.step_of_step?`). What is proved of all steps is proved along the tables
of these four; no proof looks into the functions that take the steps.

A service takes a step by a function, which finds out whether the step is possible and what comes of
it. This is what is wanted of a program, and not of a case in a proof. There what is wanted is the
other direction: a step was possible, so who took it, what must have been the case, and how does the
state afterwards differ from the one before? A table is the answer, written out as an inductive
predicate with one constructor for each thing that can happen. It has the conditions as premises and
the new state as a record update, from which what does not change can be read off as well as what
does.

The functions are opened once, to see that every step they take is in a table. From then on the
tables are what a step is, and a proof by cases has named cases which follow what the service does
rather than how it is written.

There are four tables, and not one, since hardly any property is about all parties. A proof about
operations is an induction with four cases of which three are short, and it can be handed the table
of operations alone where the step is known to be one of theirs. Each has premises of its own kind;
the one thing they share is that a step is a state and what is seen of it.
-/

namespace TxDelivery

namespace Service

variable {κ : Type} [DecidableEq κ] {setup : Setup κ} {s : Service κ} {m : Move κ}

/-- **The steps of a service**, by who takes them. -/
inductive Step (setup : Setup κ) (s : Service κ) (a : Action κ) (m : Move κ) : Prop where
  /-- An operation goes on, or a caller begins or drops it. -/
  | operation (h : OperationStep setup s a m)
  /-- A supervisor or a listener goes on. -/
  | delivery (h : DeliveryStep setup s a m)
  /-- A bookkeeper goes on. -/
  | bookkeeper (h : BookkeeperStep setup s a m)
  /-- Something happens outside. -/
  | outside (h : OutsideStep setup s a m)

/-- A reply reaches an operation or a delivery. -/
theorem step_of_reply? {who : Party} {reply : Reply} (h : s.reply? setup who reply = some m) :
    Step setup s (.reply who reply) m := by
  cases who with
  | operation i => exact .operation (operationStep_of_replyOperation? h)
  | supervisor d => exact .delivery (deliveryStep_of_replySupervisor? h)
  | listener d => exact .delivery (deliveryStep_of_replyListener? h)
  | bookkeeper b => contradiction

/-- Everything held for a subscriber is taken. -/
theorem outsideStep_drain (kind : FeedKind) (id : SubscriptionId) :
    OutsideStep setup s (.drain kind id) (s.drain kind id) := by
  cases kind with
  | confirms =>
    obtain ⟨log, hlog⟩ := lagLog_eq_map s.confirms id
    simp only [drain, hlog]
    exact .drainConfirms
  | errors =>
    obtain ⟨log, hlog⟩ := lagLog_eq_map s.errors id
    simp only [drain, hlog]
    exact .drainErrors

/-- **Every step is in one of the four tables.** -/
theorem step_of_step? {a : Action κ} (h : s.step? setup a = some m) : Step setup s a m := by
  cases a with
  | begin r => exact Option.some.inj h ▸ .operation (operationStep_of_begin r)
  | drop i => exact .operation (operationStep_of_drop? h)
  | resume i => exact .operation (operationStep_of_resume? h)
  | reply who reply => exact step_of_reply? h
  | tick d => exact .delivery (deliveryStep_of_tick? h)
  | expire d => exact .delivery (deliveryStep_of_expire? h)
  | join d => exact .delivery (deliveryStep_of_join? h)
  | receive d => exact .delivery (deliveryStep_of_receive? h)
  | poll d => exact .delivery (deliveryStep_of_poll? h)
  | lapse d => exact .delivery (deliveryStep_of_lapse? h)
  | crash d => exact .delivery (deliveryStep_of_crash? h)
  | startBookkeeper => exact Option.some.inj h ▸ .bookkeeper .start
  | close => exact Option.some.inj h ▸ .outside .close
  | takeConfirm b => exact .bookkeeper (bookkeeperStep_of_takeConfirm? h)
  | takeError b => exact .bookkeeper (bookkeeperStep_of_takeError? h)
  | mark b => exact .bookkeeper (bookkeeperStep_of_mark? h)
  | stop b => exact .bookkeeper (bookkeeperStep_of_stop? h)
  | subscribe kind =>
    cases kind with
    | confirms => exact Option.some.inj h ▸ .outside .subscribeConfirms
    | errors => exact Option.some.inj h ▸ .outside .subscribeErrors
  | drain kind id => exact Option.some.inj h ▸ .outside (outsideStep_drain kind id)
  | unsubscribe kind id =>
    cases kind with
    | confirms => exact Option.some.inj h ▸ .outside .unsubscribeConfirms
    | errors => exact Option.some.inj h ▸ .outside .unsubscribeErrors
  | wait ms =>
    simp only [step?, Option.ite_none_right_eq_some, Option.some.injEq] at h
    exact h.2 ▸ .outside (.wait h.1)

end Service

end TxDelivery
