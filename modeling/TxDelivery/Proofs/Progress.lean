import Mathlib.Algebra.GroupWithZero.Nat
import TxDelivery.Proofs.Delivery.Life

/-!
# Time passes

Time stands still while anybody can act without a reply, and never passes a timer that somebody
waits for. It can be made to pass all the same (`TxDelivery.Service.History.exists_later`): once the
queue is closed and the callers have dropped what is theirs, everybody comes to rest after finitely
many steps, whatever the parties were doing; the measure that falls is `TxDelivery.Service.effort`.
A delivery whose supervisor is waiting for a reply, and whose listener is not waiting for a timer,
has no part in this, and stays as it is however long that takes.

So a reply may really take as long as it likes: the rules for time, which are there to keep timers
honest, leave a run that lets it be late.

## The measure

What a service can still do is a sum over its parties. An operation at work counts as long as it can
be dropped. A delivery that waits counts, twice until the end of its listener is noted, and so does
whatever the listener has yet to receive. A bookkeeper counts for the key it is about to mark, and
for stopping. **If anybody can act without a reply, somebody can take a step after which the sum is
smaller** (`TxDelivery.Service.exists_settles_of_ownActions`), and it can be one that leaves a given
delivery at rest alone (`TxDelivery.Service.Settles`).

It need not be the step that is due. Not every step without a reply brings the service closer to
rest: a look that finds nothing to look at would leave a listener where it was, and a bookkeeper
could go on taking events. The first is avoided by receiving before looking, as a listener has
something to look at, received or not (`TxDelivery.Delivery.watches_invariant`); the second by
stopping the bookkeeper, for which the queue is closed at the start.

When nobody can act, no timer is due (`TxDelivery.Service.exists_ownAction_of_due`) and one unit of
time may pass. The induction is on the sum together with the time that is left to pass.
-/

namespace TxDelivery

variable {κ : Type}

/-- What a bookkeeper can still do before it stops. -/
def Bookkeeper.effort (k : Bookkeeper κ) : Nat :=
  match k.stage with
  | .marking _ _ => 2
  | .idle => 1
  | .stopped => 0

namespace Listener

/-- Whether a listener has something to look at, received or not. -/
def Watches (l : Listener) : Prop := l.channel ≠ [] ∨ l.recent.toList ≠ []

variable {l l' : Listener}

theorem watches_stop (h : l.Watches) : l.stop.Watches := by
  unfold stop
  split <;> exact h

theorem watches_of_receive? (h : l.receive? = some l') : l'.Watches := by
  unfold receive? at h
  split at h
  case h_2 => contradiction
  case h_1 tx rest =>
    obtain rfl := Option.some.inj h
    refine .inr ?_
    dsimp only [RecentTxs.push]
    split <;> simp [RecentTxs.toList]

/-- A reply changes nothing but the stage. -/
theorem eq_of_advance? {depth : UInt64} {reply : Reply} {log : List LogEvent}
    (h : l.advance? depth reply = some (l', log)) : l' = { l with stage := l'.stage } := by
  unfold advance? at h
  split at h
  case h_4 =>
    split at h
    · obtain ⟨rfl, -⟩ : _ = l' ∧ _ := by simpa using h
      rfl
    · split at h
      · obtain ⟨rfl, -⟩ : _ = l' ∧ _ := by simpa using h
        rfl
      · obtain ⟨rfl, -⟩ : _ = l' ∧ _ := by simpa using h
        rfl
  case h_6 => contradiction
  all_goals
    obtain ⟨rfl, -⟩ : _ = l' ∧ _ := by simpa using h
    rfl

/-- A listener that has stopped does not wait. -/
theorem isWaiting_stop : l.stop.isWaiting = false := by
  cases hl : l.stage <;> simp [stop, isWaiting, hl]

end Listener

namespace Delivery

/-- What a delivery can still do without a reply. -/
def effort (x : Delivery) : Nat :=
  (if x.isWaiting then if x.joined then 1 else 2 else 0) +
    if x.listener.isWaiting then x.listener.channel.length + 1 else 0

variable {setup : Setup κ} {now : Nat} {d : DeliveryId} {x x' : Delivery} {m m' : Metrics}
  {a : Action κ} {seen : List Observation}

/-- The end of a delivery is rest. -/
theorem effort_close_lt (outcome : Outcome) (hs : x.stage = .waiting) :
    (x.close outcome).effort < x.effort := by
  have hclose : (x.close outcome).effort = 0 := by
    simp [effort, close, isWaiting, Listener.isWaiting_stop]
  rw [hclose, effort, isWaiting_iff.mpr hs]
  cases x.joined <;> simp only [if_true, Bool.false_eq_true, if_false] <;> omega

/-- **Whatever a delivery does without a reply brings it closer to rest**, provided that its
listener finds something to look at. -/
theorem Proceeds.effort_lt (h : x.Proceeds setup now d m a x' m' seen)
    (hown : ∀ who reply, a ≠ .reply who reply) (hcrash : ∀ d, a ≠ .crash d)
    (hpoll : a = .poll d → x.listener.recent.toList ≠ []) : x'.effort < x.effort := by
  cases h with
  | tick hs =>
    simp only [effort, isWaiting, hs]
    cases x.joined <;> simp
  | note hs hjoined | noteStopped hs hjoined =>
    simp only [effort, isWaiting, hs, hjoined]
    simp
  | receive hl =>
    cases hstage : x.listener.stage <;> simp only [Listener.receive?, hstage] at hl <;>
      try contradiction
    cases hchannel : x.listener.channel with
    | nil => simp [hchannel] at hl
    | cons tx rest =>
      simp only [hchannel, Option.some.injEq] at hl
      subst hl
      simp [effort, isWaiting, Listener.isWaiting, hstage, hchannel]
  | poll hl =>
    simp only [Listener.poll?, Option.ite_none_right_eq_some, Bool.and_eq_true,
      Option.some.injEq] at hl
    obtain ⟨⟨hwaiting, -⟩, rfl⟩ := hl
    cases htxs : x.listener.recent.toList with
    | nil => exact absurd htxs (hpoll rfl)
    | cons tx rest =>
      simp [effort, isWaiting, Listener.isWaiting, Listener.examine] at hwaiting ⊢
      simp [hwaiting]
  | lapse hl =>
    simp only [Listener.lapse?, Option.ite_none_right_eq_some, Bool.and_eq_true,
      Option.some.injEq] at hl
    obtain ⟨⟨hwaiting, -⟩, rfl⟩ := hl
    simp [effort, isWaiting, Listener.isWaiting] at hwaiting ⊢
    simp [hwaiting]
  | crash => exact absurd rfl (hcrash _)
  | ask | keep | broadcast | retry | adopt | reject | answer => exact absurd rfl (hown _ _)

/-- **A listener always has something to look at.** -/
theorem watches_invariant : Invariant setup fun x => x.listener.Watches where
  start _ _ _ _ _ := .inl (by simp [Delivery.start, Listener.start])
  ends _ ih := Listener.watches_stop ih
  proceeds h ih := by
    cases h with
    | tick | note | noteStopped | ask | keep | broadcast | retry | reject => exact ih
    | crash => exact Listener.watches_stop ih
    | adopt => exact .inl (by simp [adopt, Listener.notify])
    | receive hl => exact Listener.watches_of_receive? hl
    | poll hl =>
      simp only [Listener.poll?, Option.ite_none_right_eq_some, Option.some.injEq] at hl
      exact hl.2 ▸ ih
    | lapse hl =>
      simp only [Listener.lapse?, Option.ite_none_right_eq_some, Option.some.injEq] at hl
      exact hl.2 ▸ ih
    | answer hl =>
      dsimp only
      rw [Listener.eq_of_advance? hl]
      exact ih
  abandon ih := Listener.watches_stop ih

end Delivery

/-- A sum after one of its terms has changed. -/
theorem sum_map_set_add {α : Type} (f : α → Nat) {l : List α} {i : Nat} {a : α} (b : α)
    (h : l[i]? = some a) : ((l.set i b).map f).sum + f a = (l.map f).sum + f b := by
  induction l generalizing i with
  | nil => simp at h
  | cons c l ih =>
    cases i with
    | zero =>
      obtain rfl : c = a := by simpa using h
      simp only [List.set_cons_zero, List.map_cons, List.sum_cons]
      omega
    | succ i =>
      have hsum := ih (i := i) (by simpa using h)
      simp only [List.set_cons_succ, List.map_cons, List.sum_cons]
      omega

namespace Service

/-- What an operation can still do without a reply: at least it can be dropped. -/
def operationEffort (o : Operation κ) : Nat := if o.stage.isActive then 1 else 0

/-- **What the parties of a service can still do** without a reply and without a caller. -/
def effort (s : Service κ) : Nat :=
  (s.operations.map operationEffort).sum + (s.deliveries.map Delivery.effort).sum +
    (s.bookkeepers.map Bookkeeper.effort).sum

/-- **A step towards rest** that leaves a delivery alone. -/
structure Settles (s : Service κ) (d : DeliveryId) (t : Service κ) : Prop where
  /-- There is less to do. -/
  effort_lt : t.effort < s.effort
  /-- No time passes. -/
  now_eq : t.now = s.now
  /-- The queue stays closed. -/
  shutdown_eq : t.shutdown = s.shutdown
  /-- The delivery stays as it is. -/
  delivery_eq : t.deliveries[d]? = s.deliveries[d]?

variable [DecidableEq κ] {setup : Setup κ} {s t : Service κ} {tr : List (Transition κ)}
  {a : Action κ} {seen : List Observation} {d d' : DeliveryId} {x y : Delivery} {i : OperationId}
  {st : Operation.Stage κ}

omit [DecidableEq κ] in
/-- An operation that is put into a last stage has nothing more to do. -/
theorem sum_operationEffort_put {ops : List (Operation κ)} {o : Operation κ}
    (st : Operation.Stage κ) (ho : ops[i]? = some o) (hst : st.isActive = false) :
    ((Operation.put ops i st).map operationEffort).sum + operationEffort o =
      (ops.map operationEffort).sum := by
  have hsum := sum_map_set_add operationEffort (⟨o.request, st⟩ : Operation κ) ho
  have hzero : operationEffort (⟨o.request, st⟩ : Operation κ) = 0 := by
    simp [operationEffort, hst]
  rw [Operation.put, modify_eq_set_of_getElem? _ ho]
  rwa [hzero, Nat.add_zero] at hsum

omit [DecidableEq κ] in
/-- Handing over an outcome gives nobody anything to do. -/
theorem sum_operationEffort_handOver_le (ops : List (Operation κ)) (owner : Option OperationId)
    (outcome : Outcome) :
    ((handOver ops owner outcome).map operationEffort).sum ≤ (ops.map operationEffort).sum := by
  rcases handOver_eq ops owner outcome with ⟨-, hops⟩ | ⟨i, -, hops⟩
  · exact Nat.le_of_eq (by rw [hops])
  · rw [hops]
    cases ho : ops[i]? with
    | none =>
      have hsame := List.modify_eq_self (f := fun o : Operation κ =>
        { o with stage := .ended (.delivered outcome) }) (List.getElem?_eq_none_iff.mp ho)
      exact Nat.le_of_eq (congrArg (fun ops => (ops.map operationEffort).sum) hsame)
    | some o =>
      have hsum := sum_operationEffort_put (.ended (.delivered outcome)) ho rfl
      omega

/-- **An operation at work can be dropped**, which brings the service closer to rest. -/
theorem exists_settles_of_isActive (setup : Setup κ) (d : DeliveryId)
    (hst : s.stage? i = some st) (hactive : st.isActive = true) :
    ∃ a t seen, s.step? setup a = some (t, seen) ∧ s.Settles d t := by
  obtain ⟨o, ho, rfl⟩ := Option.map_eq_some_iff.mp hst
  have hopen : o.isOpen = true := by
    cases hstage : o.stage <;>
      simp [Operation.isOpen, Operation.Stage.isActive, hstage] at hactive ⊢
  have heffort : operationEffort o = 1 := by simp [operationEffort, hactive]
  have hsum := sum_operationEffort_put .dropped ho rfl
  obtain ⟨m, hm⟩ : ∃ m, s.drop? i = some m := by
    simp only [drop?, ho, Option.bind_eq_bind, Option.bind_some, hopen, if_true]
    split <;> exact ⟨_, rfl⟩
  have hstep : s.step? setup (.drop i) = some m := hm
  refine ⟨.drop i, m.1, m.2, hstep, ?_⟩
  have htable : OperationStep setup s (.drop i) m := operationStep_of_drop? hm
  cases htable with
  | drop =>
    refine ⟨?_, rfl, rfl, rfl⟩
    simp only [effort]
    omega
  | dropWaiting hst' =>
    obtain hcontra := Option.some.inj (hst'.symm.trans hst)
    rw [← hcontra] at hactive
    contradiction
  | refuse _ _ href | refuseQueued _ _ href => cases href

omit [DecidableEq κ] in
/-- **What a delivery does without a reply** brings the service closer to rest. -/
theorem settles_of_deliveryStep (h : DeliveryStep setup s a (t, seen))
    (hown : ∀ who reply, a ≠ .reply who reply) (hcrash : ∀ d', a ≠ .crash d')
    (hpoll : ∀ d' y, a = .poll d' → s.deliveries[d']? = some y → y.listener.recent.toList ≠ [])
    (hx : s.deliveries[d]? = some x) (hrest : x.effort = 0) : s.Settles d t := by
  cases h with
  | @conclude d' y _ outcome hy hends =>
    have hwaiting : y.stage = .waiting := by
      cases hends with
      | expire hs => exact hs
      | join hs => exact hs
      | giveUp => exact absurd rfl (hown _ _)
    have hlt := Delivery.effort_close_lt outcome hwaiting
    have hne : d' ≠ d := by
      rintro rfl
      obtain rfl := Option.some.inj (hx.symm.trans hy)
      omega
    have hsum := sum_map_set_add Delivery.effort (y.close outcome) hy
    have hops := sum_operationEffort_handOver_le s.operations y.owner outcome
    refine ⟨?_, rfl, rfl, List.getElem?_set_ne hne⟩
    simp only [effort]
    simp only [Delivery.close] at hsum hlt
    omega
  | @proceed d' y y' _ m _ hy hproceeds =>
    have hlt : y'.effort < y.effort := by
      refine hproceeds.effort_lt hown hcrash fun ha => hpoll d' y ha hy
    have hne : d' ≠ d := by
      rintro rfl
      obtain rfl := Option.some.inj (hx.symm.trans hy)
      omega
    have hsum := sum_map_set_add Delivery.effort y' hy
    refine ⟨?_, rfl, rfl, List.getElem?_set_ne hne⟩
    simp only [effort]
    omega

/-- A bookkeeper that marks a key or stops brings the service closer to rest. -/
theorem settles_of_bookkeeperStep {b : BookkeeperId} (h : BookkeeperStep setup s a (t, seen))
    (ha : a = .mark b ∨ a = .stop b) : s.Settles d t := by
  cases h with
  | start | takeConfirm | takeError => simp at ha
  | @mark _ k key status hk hs =>
    have hsum := sum_map_set_add Bookkeeper.effort { k with stage := .idle } hk
    refine ⟨?_, rfl, rfl, rfl⟩
    simp only [Bookkeeper.effort, hs] at hsum
    simp only [effort]
    omega
  | @stop _ k hk hs =>
    have hsum := sum_map_set_add Bookkeeper.effort { k with stage := .stopped } hk
    refine ⟨?_, rfl, rfl, rfl⟩
    simp only [Bookkeeper.effort, hs] at hsum
    simp only [effort]
    omega

/-- Only an operation at work goes on with a lock. -/
theorem isActive_of_resume? {m : Move κ} (h : s.resume? setup i = some m) :
    ∃ st, s.stage? i = some st ∧ st.isActive = true := by
  obtain ⟨o, ho, hm⟩ := Option.bind_eq_some_iff.mp h
  refine ⟨o.stage, by simp [stage?, ho], ?_⟩
  cases hstage : o.stage <;> simp [hstage] at hm <;> rfl

/-- **If anybody can act without a reply, somebody can take a step towards rest**, once the queue is
closed. -/
theorem exists_settles_of_ownActions (h : History setup .start tr s)
    (hready : s.shutdown.ready = true) (hx : s.deliveries[d]? = some x) (hrest : x.effort = 0)
    {m : Move κ} (ha : a ∈ s.ownActions) (hm : s.step? setup a = some m) :
    ∃ a t seen, s.step? setup a = some (t, seen) ∧ s.Settles d t := by
  have hdelivery {a : Action κ} {m : Move κ} (hstep : s.step? setup a = some m)
      (htable : DeliveryStep setup s a m) (hown : ∀ who reply, a ≠ .reply who reply)
      (hcrash : ∀ d', a ≠ .crash d')
      (hpoll : ∀ d' y, a = .poll d' → s.deliveries[d']? = some y →
        y.listener.recent.toList ≠ []) :
      ∃ a t seen, s.step? setup a = some (t, seen) ∧ s.Settles d t :=
    ⟨a, m.1, m.2, hstep, settles_of_deliveryStep htable hown hcrash hpoll hx hrest⟩
  have hkeeper {a : Action κ} {m : Move κ} (hstep : s.step? setup a = some m)
      (htable : BookkeeperStep setup s a m) {b : BookkeeperId} (ha : a = .mark b ∨ a = .stop b) :
      ∃ a t seen, s.step? setup a = some (t, seen) ∧ s.Settles d t :=
    ⟨a, m.1, m.2, hstep, settles_of_bookkeeperStep htable ha⟩
  have hidle {b : BookkeeperId} {k : Bookkeeper κ} (hk : s.bookkeepers[b]? = some k)
      (hs : k.stage = .idle) : ∃ a t seen, s.step? setup a = some (t, seen) ∧ s.Settles d t := by
    obtain ⟨m, hm⟩ : ∃ m, s.stop? b = some m := ⟨_, by simp [stop?, hk, hs, hready]; rfl⟩
    exact hkeeper (a := .stop b) hm (bookkeeperStep_of_stop? hm) (.inr rfl)
  simp only [ownActions, List.mem_append, List.mem_map, List.mem_flatMap, List.mem_cons,
    List.not_mem_nil, or_false] at ha
  rcases ha with (⟨i, -, rfl⟩ | ⟨d', -, rfl | rfl | rfl | rfl | rfl | rfl⟩) |
    ⟨b, -, rfl | rfl | rfl | rfl⟩
  · obtain ⟨st, hst, hactive⟩ := isActive_of_resume? hm
    exact exists_settles_of_isActive setup d hst hactive
  · exact hdelivery hm (deliveryStep_of_receive? hm) (by simp) (by simp) (by simp)
  · exact hdelivery hm (deliveryStep_of_join? hm) (by simp) (by simp) (by simp)
  · exact hdelivery hm (deliveryStep_of_expire? hm) (by simp) (by simp) (by simp)
  · exact hdelivery hm (deliveryStep_of_tick? hm) (by simp) (by simp) (by simp)
  · obtain ⟨y, hy, hl⟩ := Option.bind_eq_some_iff.mp hm
    obtain ⟨l, hl, -⟩ := Option.bind_eq_some_iff.mp hl
    -- The listener receives what is left before it looks, lest it find nothing to look at.
    cases hchannel : y.listener.channel with
    | cons tx rest =>
      simp only [Listener.poll?, Option.ite_none_right_eq_some, Bool.and_eq_true,
        Listener.isWaiting, decide_eq_true_eq] at hl
      obtain ⟨m', hm'⟩ : ∃ m, s.receive? d' = some m :=
        ⟨_, by simp [Service.receive?, hy, Listener.receive?, hchannel, hl.1.1]; rfl⟩
      exact hdelivery (a := .receive d') hm' (deliveryStep_of_receive? hm') (by simp) (by simp)
        (by simp)
    | nil =>
      refine hdelivery hm (deliveryStep_of_poll? hm) (by simp) (by simp) ?_
      rintro d'' y' ⟨⟩ hy'
      obtain rfl := Option.some.inj (hy'.symm.trans hy)
      rcases h.delivery Delivery.watches_invariant hy with hcontra | hrecent
      · exact absurd hchannel hcontra
      · exact hrecent
  · exact hdelivery hm (deliveryStep_of_lapse? hm) (by simp) (by simp) (by simp)
  · exact hkeeper hm (bookkeeperStep_of_mark? hm) (.inl rfl)
  · exact hkeeper hm (bookkeeperStep_of_stop? hm) (.inr rfl)
  · cases bookkeeperStep_of_takeConfirm? hm with
    | takeConfirm hk hs => exact hidle hk hs
  · cases bookkeeperStep_of_takeError? hm with
    | takeError hk hs => exact hidle hk hs

omit [DecidableEq κ] in
/-- A waiting supervisor can serve a tick that is due. -/
theorem exists_tick? (hx : s.deliveries[d]? = some x) (hs : x.isWaiting = true)
    (hdue : x.ticker.due ≤ s.now) : ∃ m, s.tick? d = some m :=
  Option.isSome_iff_exists.mp (by simp [tick?, hx, hs, Ticker.isDue, hdue])

omit [DecidableEq κ] in
/-- A waiting supervisor can give up once the deadline has passed. -/
theorem exists_expire? (setup : Setup κ) (hx : s.deliveries[d]? = some x) (hs : x.isWaiting = true)
    (hdue : x.deadline ≤ s.now) : ∃ m, s.expire? setup d = some m :=
  Option.isSome_iff_exists.mp (by simp [expire?, hx, hs, hdue])

/-- **Whoever waits for a timer can act once it has gone off.** -/
theorem exists_ownAction_of_due {time : Nat} (htime : time ∈ s.timers) (hdue : time ≤ s.now) :
    ∃ a ∈ s.ownActions, ∃ m, s.step? setup a = some m := by
  obtain ⟨y, hmem, htime⟩ := List.mem_flatMap.mp htime
  obtain ⟨d, hlt, rfl⟩ := List.getElem_of_mem hmem
  have hy : s.deliveries[d]? = some s.deliveries[d] := List.getElem?_eq_getElem hlt
  generalize s.deliveries[d] = y at hy htime
  have hown {a : Action κ} (ha : a ∈ [.receive d, .join d, .expire d, .tick d, .poll d, .lapse d]) :
      a ∈ s.ownActions := by
    refine List.mem_append_left _ (List.mem_append_right _ ?_)
    exact List.mem_flatMap.mpr ⟨d, List.mem_range.mpr hlt, ha⟩
  rcases List.mem_append.mp htime with htime | htime
  · split at htime
    case isFalse => simp at htime
    case isTrue hwaiting =>
      simp only [List.mem_cons, List.not_mem_nil, or_false] at htime
      rcases htime with rfl | rfl
      · exact ⟨.tick d, hown (by simp), exists_tick? hy hwaiting hdue⟩
      · exact ⟨.expire d, hown (by simp), exists_expire? setup hy hwaiting hdue⟩
  · split at htime
    case isFalse => simp at htime
    case isTrue hwaiting =>
      simp only [List.mem_cons, List.not_mem_nil, or_false] at htime
      rcases htime with rfl | rfl
      · refine ⟨.poll d, hown (by simp), Option.isSome_iff_exists.mp ?_⟩
        simp [step?, act?, Service.poll?, hy, Listener.poll?, hwaiting, Ticker.isDue, hdue]
      · refine ⟨.lapse d, hown (by simp), Option.isSome_iff_exists.mp ?_⟩
        simp [step?, act?, Service.lapse?, hy, Listener.lapse?, hwaiting, hdue]

/-- **A closed service comes to rest**: somebody can take a step towards it, or time can pass. -/
theorem exists_settles_or_mayWait (h : History setup .start tr s)
    (hready : s.shutdown.ready = true) (hx : s.deliveries[d]? = some x) (hrest : x.effort = 0) :
    (∃ a t seen, s.step? setup a = some (t, seen) ∧ s.Settles d t) ∨
      s.mayWait setup 1 = true := by
  by_cases hany : ∃ a ∈ s.ownActions, ∃ m, s.step? setup a = some m
  · obtain ⟨a, ha, m, hm⟩ := hany
    exact .inl (exists_settles_of_ownActions h hready hx hrest ha hm)
  · refine .inr (Bool.and_eq_true_iff.mpr ⟨List.all_eq_true.mpr fun a ha => ?_,
      List.all_eq_true.mpr fun time htime => ?_⟩)
    · refine Option.isNone_iff_eq_none.mpr (Option.eq_none_iff_forall_ne_some.mpr fun m hm => ?_)
      have hstep : s.step? setup a = some m := by
        cases a with
        | wait ms => contradiction
        | _ => exact hm
      exact hany ⟨a, ha, m, hstep⟩
    · rw [decide_eq_true_eq]
      by_contra hdue
      exact hany (exists_ownAction_of_due htime (by omega))

/-- **However late, it can become later**, and a delivery that waits for a reply stays as it is. -/
theorem History.exists_later (h : History setup .start tr s) (hx : s.deliveries[d]? = some x)
    (hrest : x.effort = 0) (time : Nat) :
    ∃ tr' t, History setup s tr' t ∧ time ≤ t.now ∧ t.deliveries[d]? = some x := by
  have hclosed {s : Service κ} {tr : List (Transition κ)} (n : Nat)
      (hn : s.effort + (time - s.now) = n) (h : History setup .start tr s)
      (hready : s.shutdown.ready = true) (hx : s.deliveries[d]? = some x) :
      ∃ tr' t, History setup s tr' t ∧ time ≤ t.now ∧ t.deliveries[d]? = some x := by
    induction n using Nat.strongRecOn generalizing s tr with
    | ind n ih =>
      by_cases hlate : time ≤ s.now
      · exact ⟨[], s, .nil, hlate, hx⟩
      rcases exists_settles_or_mayWait h hready hx hrest with ⟨a, t, seen, hstep, hsettles⟩ | hwait
      · have heffort := hsettles.effort_lt
        have hnow := hsettles.now_eq
        obtain ⟨tr', u, h', hu⟩ := ih _ (by omega) rfl (h.snoc hstep)
          (hsettles.shutdown_eq ▸ hready) (hsettles.delivery_eq.trans hx)
        exact ⟨_, u, (History.single hstep).append h', hu⟩
      · have hstep : s.step? setup (.wait 1) = some ({ s with now := s.now + 1 }, []) := by
          simp only [step?, hwait, if_true]
        have heffort : ({ s with now := s.now + 1 } : Service κ).effort = s.effort := rfl
        obtain ⟨tr', u, h', hu⟩ := ih _ (by simp only [heffort]; omega) rfl (h.snoc hstep) hready hx
        exact ⟨_, u, (History.single hstep).append h', hu⟩
  have hclose : s.step? setup .close = some (s.close, []) := rfl
  obtain ⟨tr', t, h', ht⟩ := hclosed _ rfl (h.snoc hclose) rfl hx
  exact ⟨_, t, (History.single hclose).append h', ht⟩

end Service

end TxDelivery
