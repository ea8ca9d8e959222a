import Mathlib.Data.List.Forall2
import TxDelivery.Proofs.Veil.Delivery
import TxDelivery.Proofs.Veil.Operation

/-!
# Waiting makes no difference

**Every step does the same behind the veil** (`TxDelivery.Service.veil_step?`), so that two services
that look alike through it go on alike (`TxDelivery.Service.History.exchange`), as long as no caller
behind it drops an operation that waits for a delivery.

To be able to act at all is the same as well, and so is the time at which the next timer goes off.
This matters as time may pass only when nobody can act (`TxDelivery.Service.veil_isSettled`,
`TxDelivery.Service.veil_timers`): if one kind of caller had more to do than the other, the two
would get out of step with the clock.

## Exchanging the calls

A run is given, and some of the operations in it. The other run is built step by step: where one of
these operations begins, it is begun with the call of the other kind (`TxDelivery.Action.exchange`),
and everything else is done as it was done. What is kept is that the two states look alike through
the veil. With the veil drawn the two actions are the same, since an exchanged call is hidden as the
original one is; so they come to the same, and what they come to without the veil has to be the same
but for what is hidden (`TxDelivery.Service.exchange_step?`).

What is seen of a step is not veiled. Calls, broadcasts and outcomes are the same in both runs, and
so are the times, the metrics, the feeds, and the deliveries without their owners
(`TxDelivery.Service.Transition.Alike`).

It works in both directions at once, as exchanging is undone by exchanging. The exception is what
only a caller who waits can do, namely stop waiting, which takes the delivery with it. It is
excluded for the run that is given; in the other run it does not occur then either.
-/

namespace TxDelivery

variable {κ : Type}

namespace Service

variable [DecidableEq κ] {who : OperationId → Bool} {setup : Setup κ} {s : Service κ}

/-- Steps that concern no operation and no delivery. -/
theorem veil_bookkeeper (setup : Setup κ) {b : BookkeeperId} :
    veilMove? who (s.takeConfirm? setup b) = veilMove? who ((s.veil who).takeConfirm? setup b) ∧
      veilMove? who (s.takeError? setup b) = veilMove? who ((s.veil who).takeError? setup b) ∧
      veilMove? who (s.mark? b) = veilMove? who ((s.veil who).mark? b) ∧
      veilMove? who (s.stop? b) = veilMove? who ((s.veil who).stop? b) := by
  have hkeepers : (s.veil who).bookkeepers = s.bookkeepers := rfl
  have hconfirms : (s.veil who).confirms = s.confirms := rfl
  have herrors : (s.veil who).errors = s.errors := rfl
  have hlock : (s.veil who).statusLock = s.statusLock := rfl
  have hshutdown : (s.veil who).shutdown = s.shutdown := rfl
  simp only [takeConfirm?, takeError?, mark?, stop?, hkeepers, hconfirms, herrors, hlock, hshutdown]
  cases s.bookkeepers[b]? with
  | none => exact ⟨rfl, rfl, rfl, rfl⟩
  | some k =>
    simp only [Option.bind_eq_bind, Option.bind_some]
    refine ⟨?_, ?_, ?_, ?_⟩
    · split
      · simp [veilMove?, veilMove, requestMark, setBookkeeper, veil]
      · rfl
    · split
      · simp [veilMove?, veilMove, requestMark, setBookkeeper, veil]
      · rfl
    · split
      · refine veilMove?_ite fun _ => ?_
        simp [veilMove?, veilMove, setBookkeeper, veil]
      · rfl
    · split
      · simp [veilMove?, veilMove, setBookkeeper, veil]
      · rfl

/-- **Everything a party does, it does alike.** -/
theorem veil_act? (setup : Setup κ) (hs : s.Owned) (a : Action κ)
    (hwait : ∀ i d, a = .drop i → who i = true → s.stage? i ≠ some (.supervising d)) :
    veilMove? who (s.act? setup a) =
      veilMove? who ((s.veil who).act? setup (a.veil (who s.operations.length))) := by
  cases a with
  | begin r => exact congrArg some (veil_begin r)
  | drop i => exact veil_drop? fun hw d => hwait i d rfl hw
  | resume i => exact veil_resume?
  | reply party reply =>
    cases party with
    | operation i => exact veil_replyOperation? reply
    | supervisor d => exact veil_replySupervisor? hs reply
    | listener d => exact veil_replyListener? reply
    | bookkeeper b => rfl
  | tick d => exact veil_tick?
  | expire d => exact veil_expire? hs
  | join d => exact veil_join? hs
  | receive d => exact veil_receive?
  | poll d => exact veil_poll?
  | lapse d => exact veil_lapse?
  | crash d => exact veil_crash?
  | startBookkeeper =>
    simp [act?, Action.veil, startBookkeeper, veilMove?, veilMove, veil, Feed.subscribe]
  | close => simp [act?, Action.veil, close, veilMove?, veilMove, veil]
  | takeConfirm b => exact (veil_bookkeeper setup).1
  | takeError b => exact (veil_bookkeeper setup).2.1
  | mark b => exact (veil_bookkeeper setup).2.2.1
  | stop b => exact (veil_bookkeeper setup).2.2.2
  | subscribe kind =>
    cases kind <;> simp [act?, Action.veil, subscribe, veilMove?, veilMove, veil]
  | drain kind id =>
    cases kind <;> simp [act?, Action.veil, drain, veilMove?, veilMove, veil]
  | unsubscribe kind id =>
    cases kind <;> simp [act?, Action.veil, unsubscribe, veilMove?, veilMove, veil]
  | wait ms => rfl

/-- Nobody can act behind the veil who could not act before. -/
theorem veil_isSettled (hs : s.Owned) : (s.veil who).isSettled setup = s.isSettled setup := by
  have hactions : (s.veil who).ownActions = s.ownActions := by
    simp [ownActions, veil]
  have hact (a : Action κ) (ha : a ∈ s.ownActions) :
      ((s.veil who).act? setup a).isNone = (s.act? setup a).isNone := by
    have hnever : ∀ i, a ≠ .drop i := by
      rintro i rfl
      simp [ownActions] at ha
    have hsame : a.veil (who s.operations.length) = a := by
      cases a with
      | begin r => simp [ownActions] at ha
      | _ => rfl
    have heq := @veil_act? κ _ who s setup hs a
      fun i _ hi _ => absurd hi (hnever i)
    rw [hsame] at heq
    have hnone := congrArg Option.isNone heq
    simpa [veilMove?] using hnone.symm
  rw [isSettled, isSettled, hactions, Bool.eq_iff_iff, List.all_eq_true, List.all_eq_true]
  exact forall₂_congr fun a ha => by rw [hact a ha]

omit [DecidableEq κ] in
/-- The veil hides no timer. -/
theorem veil_timers : (s.veil who).timers = s.timers := by
  simp only [timers, veil, veilDeliveries, List.flatMap_map]
  rfl

/-- **Every step does the same behind the veil.** -/
theorem veil_step? (setup : Setup κ) (hs : s.Owned) (a : Action κ)
    (hwait : ∀ i d, a = .drop i → who i = true → s.stage? i ≠ some (.supervising d)) :
    veilMove? who (s.step? setup a) =
      veilMove? who ((s.veil who).step? setup (a.veil (who s.operations.length))) := by
  cases a with
  | wait ms =>
    have hmay : (s.veil who).mayWait setup ms = s.mayWait setup ms := by
      rw [mayWait, mayWait, veil_isSettled hs, veil_timers]
      rfl
    simp only [step?, Action.veil, hmay]
    refine veilMove?_ite fun _ => ?_
    simp [veilMove?, veilMove, veil]
  | _ => exact veil_act? setup hs _ hwait

end Service

/-! ### Calls of the other kind -/

/-- The request of a caller who waits instead of one who does not, and the other way round. -/
def Request.exchange : Request κ → Request κ
  | .send tx options => .sendAndWait tx options
  | .sendAndWait tx options => .send tx options
  | r => r

/-- A step in which the operation that begins, if one does and it is meant, is of the other kind. -/
def Action.exchange (meant : Bool) : Action κ → Action κ
  | .begin r => .begin (veilIf meant Request.exchange r)
  | a => a

theorem Action.veil_exchange (meant : Bool) (a : Action κ) :
    (a.exchange meant).veil meant = a.veil meant := by
  cases a with
  | begin r => cases meant <;> cases r <;> rfl
  | _ => rfl

namespace Service

/-- **Two transitions that differ in who waits only.** -/
structure Transition.Alike (who : OperationId → Bool) (e e' : Transition κ) : Prop where
  /-- The same is done, but for the kind of send that begins. -/
  action : e'.action = e.action.exchange (who e.before.operations.length)
  /-- At the same time. -/
  time : e'.before.now = e.before.now
  /-- The same is seen. -/
  seen : e'.seen = e.seen
  /-- The same was counted. -/
  metrics : e'.after.metrics = e.after.metrics
  /-- The same confirmations were published. -/
  confirms : e'.after.confirms = e.after.confirms
  /-- The same failures were published. -/
  errors : e'.after.errors = e.after.errors
  /-- The deliveries have come as far, whoever waits for them. -/
  deliveries : e'.after.deliveries.map (fun x => { x with owner := none }) =
    e.after.deliveries.map fun x => { x with owner := none }

variable [DecidableEq κ] {who : OperationId → Bool} {setup : Setup κ} {s s' t : Service κ}
  {a : Action κ} {seen : List Observation} {tr : List (Transition κ)}

omit [DecidableEq κ] in
/-- What looks alike behind the veil differs in its callers only. -/
theorem disowned_of_veil_eq (h : s'.veil who = s.veil who) :
    s'.deliveries.map (fun x => { x with owner := none }) =
      s.deliveries.map fun x => { x with owner := none } := by
  have hveiled (xs : List Delivery) :
      xs.map (fun x => ({ x with owner := none } : Delivery)) =
        (veilDeliveries who xs).map fun x => { x with owner := none } := by
    simp [veilDeliveries, Delivery.veil, Function.comp_def]
  have hdeliveries : veilDeliveries who s'.deliveries = veilDeliveries who s.deliveries :=
    congrArg Service.deliveries h
  rw [hveiled, hdeliveries, ← hveiled]

omit [DecidableEq κ] in
/-- Where nobody waits in front of the veil, nobody waits behind it who could still be dropped. -/
theorem not_supervising_of_drop? {i : OperationId} {d : DeliveryId} {m : Move κ}
    (h : s'.veil who = s.veil who) (hw : who i = true) (hdrop : s.drop? i = some m)
    (hwait : ∀ d, s.stage? i ≠ some (.supervising d)) : s'.stage? i ≠ some (.supervising d) := by
  intro hsup
  obtain ⟨⟨r', st'⟩, ho', hst'⟩ := Option.map_eq_some_iff.mp hsup
  obtain rfl : st' = .supervising d := hst'
  obtain ⟨⟨r, st⟩, ho, hm⟩ := Option.bind_eq_some_iff.mp hdrop
  have hst : s.stage? i = some st := by simp [stage?, ho]
  have hveiled := (veil_operation who ho').symm.trans (h ▸ veil_operation who ho)
  simp only [hw, veilIf, if_true, Option.some.injEq, Operation.mk.injEq] at hveiled
  cases st with
  | supervising d' => exact hwait d' hst
  | ended answer => simp [Operation.isOpen] at hm
  | _ => simp [Operation.Stage.veil] at hveiled

/-- **A step with the other kind of send.** -/
theorem exchange_step? (hs : s.Owned) (hs' : s'.Owned) (halike : s'.veil who = s.veil who)
    (hstep : s.step? setup a = some (t, seen))
    (hwait : ∀ i d, a = .drop i → who i = true → s.stage? i ≠ some (.supervising d)) :
    ∃ t', s'.step? setup (a.exchange (who s.operations.length)) = some (t', seen) ∧
      t'.veil who = t.veil who := by
  have hlen : s'.operations.length = s.operations.length := by
    have hops := congrArg (fun s : Service κ => s.operations.length) halike
    simpa [veil] using hops
  have hwait' : ∀ i d, a.exchange (who s.operations.length) = .drop i → who i = true →
      s'.stage? i ≠ some (.supervising d) := by
    intro i d ha hw
    have ha' : a = .drop i := by
      cases a with
      | begin r => simp [Action.exchange] at ha
      | _ => exact ha
    subst ha'
    exact not_supervising_of_drop? halike hw hstep fun d => hwait i d rfl hw
  have hfront := veil_step? setup hs a hwait
  have hback := veil_step? setup hs' _ hwait'
  rw [hlen, Action.veil_exchange, halike, ← hfront, hstep] at hback
  obtain ⟨⟨t', seen'⟩, ht', hmove⟩ := Option.map_eq_some_iff.mp hback
  obtain ⟨hveil, rfl⟩ := Prod.mk.inj hmove
  exact ⟨t', ht', hveil⟩

/-- **Waiting makes no difference.** A history with sends of the other kind: it has the same steps
at the same times, and at every step the same is asked, broadcast, counted and published. The one
thing it cannot repeat is that a caller drops what was waited for. -/
theorem History.exchange (h : History setup .start tr s) (who : OperationId → Bool)
    (hwait : ∀ e ∈ tr, ∀ i d, e.action = .drop i → who i = true →
      e.before.stage? i ≠ some (.supervising d)) :
    ∃ tr' s', History setup .start tr' s' ∧ s'.veil who = s.veil who ∧
      List.Forall₂ (Transition.Alike who) tr tr' := by
  induction h with
  | nil => exact ⟨[], .start, .nil, rfl, .nil⟩
  | @snoc tr t u a seen h hstep ih =>
    obtain ⟨tr', t', h', halike, htr⟩ := ih fun e he => hwait e (List.mem_append_left _ he)
    have hlast := hwait ⟨t, a, seen, u⟩ (List.mem_append_right _ (List.mem_singleton_self _))
    obtain ⟨u', hstep', halike'⟩ := exchange_step? h.owned h'.owned halike hstep hlast
    refine ⟨_, u', h'.snoc hstep', halike', List.rel_append htr (.cons ?_ .nil)⟩
    have hfield {β : Type} (f : Service κ → β) (hf : ∀ s : Service κ, f (s.veil who) = f s) :
        f u' = f u := by
      rw [← hf u', halike', hf u]
    exact
      { action := rfl
        time := by
          have hnow := congrArg Service.now halike
          exact hnow
        seen := rfl
        metrics := hfield (·.metrics) fun _ => rfl
        confirms := hfield (·.confirms) fun _ => rfl
        errors := hfield (·.errors) fun _ => rfl
        deliveries := disowned_of_veil_eq halike' }

end Service

end TxDelivery
