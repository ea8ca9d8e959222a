import TxDelivery.Proofs.Queue.OnePerKey

/-!
# What the bookkeeper receives

A run in which the queue is served (`TxDelivery.Service.Served`): its bookkeeper is started before
the first send and never stopped, nobody else reads its subscriptions, and a send that holds its key
is not dropped. In such a run an outcome can be lost in one way only. **A step loses nothing if
every event it publishes finds fewer unread events on its feed than the feed keeps**
(`TxDelivery.Service.Transition.HasRoom`, `TxDelivery.Service.InOrder.kept`); and if one does not,
the key of the oldest unread event is lost (`TxDelivery.Service.InOrder.exists_lost`).

That the moves of a ledger allow outcomes to be lost was convenient as long as losing did no harm.
Here every step is looked at again, and it is asked how much is under way for a key afterwards: as
much as before, or the key is pending no more.

* An operation lets go of a key by giving it its status back, by starting its delivery, or by being
  dropped, and the last is excluded (`TxDelivery.Service.InOrder.kept_of_operationStep`).
* A bookkeeper that takes an event has it in hand until it marks the key, and it does not stop.
* What happens outside leaves the subscriptions of the bookkeeper alone
  (`TxDelivery.Service.InOrder.ledger_of_outsideStep`).
* The end of a delivery publishes an outcome (`TxDelivery.Service.Concludes`), and it depends on the
  room whether something else is driven out (`TxDelivery.Service.Concludes.ledger_of_room`,
  `TxDelivery.Service.Concludes.ledger_of_full`).

If something is driven out it was all that was under way for its key, since there is one thing at
most. So the key is pending with nothing under way; the outcome that drives it out cannot be one of
the same key, as a delivery was still under way for that one.

For all this the bookkeeper has to be there and to follow both feeds. That it does so from the first
send on is an invariant of such runs (`TxDelivery.Service.Attended`), kept apart from what concerns
keys, and everything together makes a service in order (`TxDelivery.Service.InOrder`).
-/

namespace TxDelivery

variable {κ : Type}

/-- The subscription of a bookkeeper to a feed. -/
def Bookkeeper.subscription (k : Bookkeeper κ) : Service.FeedKind → SubscriptionId
  | .confirms => k.confirms
  | .errors => k.errors

/-- An outcome is one event of its key. -/
theorem Outcome.counts_add [DecidableEq κ] (setup : Setup κ) (outcome : Outcome) (key : κ) :
    outcome.confirmations.countP (fun event => setup.keyOf event.tx.tx = key) +
      outcome.failures.countP (fun event => setup.keyOf event.tx.tx = key) =
      if setup.keyOf outcome.tx.tx = key then 1 else 0 := by
  by_cases h : setup.keyOf outcome.tx.tx = key
  · rw [if_pos h]
    cases outcome <;> simpa [confirmations, failures, tx] using h
  · obtain ⟨hc, hf, -⟩ := counts_of_ne h
    rw [if_neg h, hc, hf]

namespace Service

/-- **Whether a step keeps the order of the queue**: sends come after the start of a bookkeeper and
are not dropped while they hold their keys, the queue is not closed, and nobody but a bookkeeper
takes events for it or ends its subscriptions. -/
def isOrderly (s : Service κ) : Action κ → Bool
  | .begin (.enqueue _ _) => !s.bookkeepers.isEmpty
  | .drop i => (s.holding? i).isNone
  | .close => false
  | .drain feed id | .unsubscribe feed id => s.bookkeepers.all fun k => k.subscription feed != id
  | _ => true

/-- How many events a bookkeeper has not taken yet of the feed an outcome is published on. -/
def backlog (s : Service κ) (k : Bookkeeper κ) : Outcome → Nat
  | .confirmed _ => (s.confirms.held k.confirms).length
  | .failed _ => (s.errors.held k.errors).length

/-- **What a step publishes finds room**: fewer events wait for a bookkeeper than a feed keeps. -/
def Transition.HasRoom (e : Transition κ) : Prop :=
  ∀ outcome ∈ e.seen.filterMap Observation.anyOutcome?, ∀ k ∈ e.before.bookkeepers,
    e.before.backlog k outcome < Feed.defaultCapacity

instance (e : Transition κ) : Decidable e.HasRoom :=
  inferInstanceAs (Decidable (∀ outcome ∈ e.seen.filterMap Observation.anyOutcome?,
    ∀ k ∈ e.before.bookkeepers, e.before.backlog k outcome < Feed.defaultCapacity))

/-- **The bookkeeper attends**: it follows both feeds, nobody told it to stop, and nothing was sent
before it was there. -/
structure Attended (s : Service κ) : Prop where
  /-- Nothing is sent without a bookkeeper. -/
  begun : s.bookkeepers = [] →
    s.deliveries = [] ∧ ∀ i tx options, s.request? i ≠ some (.enqueue tx options)
  /-- Nobody told it to stop. -/
  serving : s.shutdown.ready = false
  /-- Confirmations are kept. -/
  confirms : s.confirms.Sized
  /-- Failures are kept. -/
  errors : s.errors.Sized
  /-- It follows both feeds. -/
  follows : ∀ k ∈ s.bookkeepers, s.confirms.Follows k.confirms ∧ s.errors.Follows k.errors

variable [DecidableEq κ]

/-- **A run in which the queue is served**, and has the service to itself. -/
structure Served (setup : Setup κ) (tr : List (Transition κ)) : Prop
    extends QueueAlone setup tr where
  /-- Every step keeps the order. -/
  orderly : ∀ e ∈ tr, e.before.isOrderly e.action = true

/-- **A service in order**, in which the queue is served. -/
structure InOrder (setup : Setup κ) (s : Service κ) : Prop where
  /-- Keys are read off what transactions are about. -/
  keyed : setup.KeyedByPayload
  /-- Operations fit their requests. -/
  filed : s.Filed setup
  /-- Deliveries fit their callers. -/
  owned : s.Owned
  /-- Whoever holds a key has the status lock. -/
  guarded : s.StatusGuarded
  /-- Bookkeepers are in order. -/
  keeping : s.Keeping
  /-- There is one at most. -/
  one : s.bookkeepers.length ≤ 1
  /-- It attends. -/
  attended : s.Attended
  /-- The ledgers are sound. -/
  sound : ∀ key, (s.ledger setup key).Sound

variable {setup : Setup κ} {s t : Service κ} {a : Action κ} {seen : List Observation}
  {i : OperationId} {d : DeliveryId} {x : Delivery} {key : κ} {previous : TxStatus}
  {outcome : Outcome} {k : Bookkeeper κ} {tr tr' : List (Transition κ)}

/-! ### The bookkeeper attends -/

omit [DecidableEq κ] in
/-- Only a send through the queue holds a key. -/
theorem Filed.enqueue_of_holding? (hs : s.Filed setup) (hi : s.holding? i = some (key, previous)) :
    ∃ tx options, s.request? i = some (.enqueue tx options) := by
  obtain ⟨st, hst, hholding⟩ := Option.bind_eq_some_iff.mp hi
  obtain ⟨r, hr⟩ := exists_request? hst
  cases hs.operation hr hst with
  | submitting hr' => exact ⟨_, _, hr' ▸ hr⟩
  | _ => contradiction

omit [DecidableEq κ] in
/-- What is published finds the bookkeeper following. -/
theorem Attended.publish (hs : s.Attended) (outcome : Outcome) :
    (s.publish outcome).confirms.Sized ∧ (s.publish outcome).errors.Sized ∧
      ∀ k ∈ s.bookkeepers, (s.publish outcome).confirms.Follows k.confirms ∧
        (s.publish outcome).errors.Follows k.errors := by
  cases outcome with
  | confirmed event =>
    exact ⟨hs.confirms.publish, hs.errors, fun k hk =>
      ⟨(hs.follows k hk).1.publish, (hs.follows k hk).2⟩⟩
  | failed event =>
    exact ⟨hs.confirms, hs.errors.publish, fun k hk =>
      ⟨(hs.follows k hk).1, (hs.follows k hk).2.publish⟩⟩

/-- **The bookkeeper goes on attending** when an operation goes on. -/
theorem Attended.operationStep (hs : s.Attended) (hfiled : s.Filed setup)
    (hkey : setup.KeyedByPayload) (ho : s.isOrderly a = true)
    (hstep : s.step? setup a = some (t, seen)) (h : OperationStep setup s a (t, seen)) :
    t.Attended := by
  obtain ⟨hconfirms, herrors, hbooks⟩ := feeds_of_operationStep h
  have hshutdown : t.shutdown = s.shutdown := by cases h <;> rfl
  refine ⟨fun hnone => ?_, hshutdown ▸ hs.serving, hconfirms ▸ hs.confirms, herrors ▸ hs.errors,
    fun k hk => ?_⟩
  · rw [hbooks] at hnone
    obtain ⟨hdeliveries, hrequests⟩ := hs.begun hnone
    refine ⟨?_, fun i tx options hr => ?_⟩
    · cases queueMove_of_operationStep hfiled hkey h with
      | still _ _ _ hsame | opens _ _ _ _ _ _ _ hsame | refused _ _ _ _ hsame
      | dropped _ _ _ _ hsame => exact hsame.trans hdeliveries
      | launched hi =>
        obtain ⟨tx, options, hr⟩ := hfiled.enqueue_of_holding? hi
        exact absurd hr (hrequests _ _ _)
    · cases hi : s.request? i with
      | some r =>
        exact hrequests i tx options (hi.trans ((request?_of_step? hstep hi).symm.trans hr))
      | none =>
        obtain ⟨rfl, -⟩ := begin_of_request? hstep hi hr
        simp [isOrderly, hnone] at ho
  · rw [hconfirms, herrors]
    exact hs.follows k (hbooks ▸ hk)

omit [DecidableEq κ] in
/-- **The bookkeeper goes on attending** at another stage, as long as whoever followed the feeds
follows them. -/
theorem Attended.setStage (hs : s.Attended) {b : BookkeeperId} (hk : s.bookkeepers[b]? = some k)
    (stage : Bookkeeper.Stage κ) {confirms : Feed ConfirmEvent} {errors : Feed ErrorEvent}
    {statuses : StatusTable κ} {lock : FairLock Party}
    (hconfirms : confirms.Sized) (herrors : errors.Sized)
    (hc : ∀ id, s.confirms.Follows id → confirms.Follows id)
    (he : ∀ id, s.errors.Follows id → errors.Follows id) :
    { s with
        confirms := confirms
        errors := errors
        statuses := statuses
        statusLock := lock
        bookkeepers := s.bookkeepers.set b { k with stage := stage } }.Attended := by
  have hfollows (k' : Bookkeeper κ) (hk' : k' ∈ s.bookkeepers) :
      confirms.Follows k'.confirms ∧ errors.Follows k'.errors :=
    (hs.follows k' hk').imp (hc _) (he _)
  refine ⟨fun hnone => ?_, hs.serving, hconfirms, herrors, fun k' hk' => ?_⟩
  · exact hs.begun (by simpa using hnone)
  · rcases List.mem_or_eq_of_mem_set hk' with hmem | rfl
    · exact hfollows k' hmem
    · exact hfollows k (List.mem_of_getElem? hk)

/-- **The bookkeeper goes on attending** when it goes on. -/
theorem Attended.bookkeeperStep (hs : s.Attended) (hkeeping : s.Keeping)
    (h : BookkeeperStep setup s a (t, seen)) : t.Attended := by
  cases h with
  | start =>
    refine ⟨fun hnone => by simp at hnone, hs.serving, ⟨hs.confirms.capacity, hs.confirms.kept⟩,
      ⟨hs.errors.capacity, hs.errors.kept⟩, fun k hk => ?_⟩
    rcases List.mem_append.mp hk with hk | hk
    · obtain ⟨hc, he⟩ := hs.follows k hk
      obtain ⟨hcid, heid⟩ := hkeeping.named k hk
      exact ⟨hc.subscribe hcid, he.subscribe heid⟩
    · obtain rfl := List.mem_singleton.mp hk
      exact ⟨hkeeping.confirms.follows_subscribe_self, hkeeping.errors.follows_subscribe_self⟩
  | @takeConfirm b k event feed _ hk _ hreceive =>
    obtain rfl : (s.confirms.receive k.confirms).2 = feed := congrArg Prod.snd hreceive
    have htaker := (hs.follows k (List.mem_of_getElem? hk)).1
    exact hs.setStage hk _ hs.confirms.receive hs.errors
      (fun _ hid => hid.receive hkeeping.confirms htaker) fun _ hid => hid
  | @takeError b k event feed _ hk _ hreceive =>
    obtain rfl : (s.errors.receive k.errors).2 = feed := congrArg Prod.snd hreceive
    have htaker := (hs.follows k (List.mem_of_getElem? hk)).2
    exact hs.setStage hk _ hs.confirms hs.errors.receive (fun _ hid => hid)
      fun _ hid => hid.receive hkeeping.errors htaker
  | mark hk =>
    exact hs.setStage hk _ hs.confirms hs.errors (fun _ hid => hid) fun _ hid => hid
  | stop _ _ hready =>
    rw [hs.serving] at hready
    contradiction

omit [DecidableEq κ] in
/-- Nobody else uses the subscriptions of a bookkeeper. -/
theorem ne_subscription {feed : FeedKind} {id : SubscriptionId}
    (ho : (s.bookkeepers.all fun k => k.subscription feed != id) = true) (hk : k ∈ s.bookkeepers) :
    id ≠ k.subscription feed := by
  have hne := List.all_eq_true.mp ho k hk
  exact Ne.symm (by simpa using hne)

/-- **The bookkeeper goes on attending** when something happens outside. -/
theorem Attended.outsideStep (hs : s.Attended) (hkeeping : s.Keeping) (ho : s.isOrderly a = true)
    (h : OutsideStep setup s a (t, seen)) : t.Attended := by
  cases h with
  | close => contradiction
  | wait => exact ⟨hs.begun, hs.serving, hs.confirms, hs.errors, hs.follows⟩
  | subscribeConfirms =>
    exact ⟨hs.begun, hs.serving, ⟨hs.confirms.capacity, hs.confirms.kept⟩, hs.errors, fun k hk =>
      ⟨(hs.follows k hk).1.subscribe (hkeeping.named k hk).1, (hs.follows k hk).2⟩⟩
  | subscribeErrors =>
    exact ⟨hs.begun, hs.serving, hs.confirms, ⟨hs.errors.capacity, hs.errors.kept⟩, fun k hk =>
      ⟨(hs.follows k hk).1, (hs.follows k hk).2.subscribe (hkeeping.named k hk).2⟩⟩
  | drainConfirms =>
    exact ⟨hs.begun, hs.serving, hs.confirms.drain, hs.errors, fun k hk =>
      ⟨(hs.follows k hk).1.drain (ne_subscription ho hk), (hs.follows k hk).2⟩⟩
  | drainErrors =>
    exact ⟨hs.begun, hs.serving, hs.confirms, hs.errors.drain, fun k hk =>
      ⟨(hs.follows k hk).1, (hs.follows k hk).2.drain (ne_subscription ho hk)⟩⟩
  | unsubscribeConfirms =>
    exact ⟨hs.begun, hs.serving, ⟨hs.confirms.capacity, hs.confirms.kept⟩, hs.errors, fun k hk =>
      ⟨(hs.follows k hk).1.unsubscribe (ne_subscription ho hk), (hs.follows k hk).2⟩⟩
  | unsubscribeErrors =>
    exact ⟨hs.begun, hs.serving, hs.confirms, ⟨hs.errors.capacity, hs.errors.kept⟩, fun k hk =>
      ⟨(hs.follows k hk).1, (hs.follows k hk).2.unsubscribe (ne_subscription ho hk)⟩⟩

/-- **The bookkeeper goes on attending**, whatever the step. -/
theorem Attended.step (hs : s.Attended) (hkeeping : s.Keeping) (hfiled : s.Filed setup)
    (hkey : setup.KeyedByPayload) (ho : s.isOrderly a = true)
    (h : s.step? setup a = some (t, seen)) : t.Attended := by
  cases step_of_step? h with
  | operation h' => exact hs.operationStep hfiled hkey ho h h'
  | delivery h =>
    -- A delivery that is there was sent, so that there is a bookkeeper.
    have hbegun {d : DeliveryId} {x : Delivery} (hx : s.deliveries[d]? = some x)
        (hnone : s.bookkeepers = []) : False := by
      rw [(hs.begun hnone).1] at hx
      contradiction
    cases h with
    | proceed hx =>
      exact ⟨fun hnone => (hbegun hx hnone).elim, hs.serving, hs.confirms, hs.errors, hs.follows⟩
    | @conclude d x _ outcome hx =>
      obtain ⟨hc, he, hfollows⟩ := hs.publish outcome
      exact ⟨fun hnone => (hbegun hx hnone).elim, hs.serving, hc, he, hfollows⟩
  | bookkeeper h => exact hs.bookkeeperStep hkeeping h
  | outside h => exact hs.outsideStep hkeeping ho h

/-! ### Runs -/

/-- The queue is served from the beginning. -/
theorem Served.of_append (hserved : Served setup (tr ++ tr')) : Served setup tr where
  toQueueAlone := hserved.toQueueAlone.of_append
  orderly e he := hserved.orderly e (List.mem_append_left _ he)

/-- **At every moment the bookkeeper attends.** -/
theorem History.attended (h : History setup .start tr s) (hserved : Served setup tr) :
    s.Attended := by
  induction h with
  | nil =>
    refine ⟨fun _ => ⟨rfl, fun i tx options hr => ?_⟩, rfl, Feed.sized_empty, Feed.sized_empty, ?_⟩
    · simp [start, request?] at hr
    · simp [start]
  | @snoc tr t u a seen h hstep ih =>
    have hlast : (⟨t, a, seen, u⟩ : Transition κ) ∈ tr ++ [⟨t, a, seen, u⟩] := by simp
    exact (ih hserved.of_append).step h.keeping (h.filed hserved.of_append.through) hserved.keyed
      (hserved.orderly _ hlast) hstep

/-- **At every moment the service is in order.** -/
theorem History.inOrder (h : History setup .start tr s) (hserved : Served setup tr) :
    s.InOrder setup where
  keyed := hserved.keyed
  filed := h.filed hserved.through
  owned := h.owned
  guarded := h.statusGuarded
  keeping := h.keeping
  one := h.length_bookkeepers ▸ hserved.bookkeeper
  attended := h.attended hserved
  sound := h.sound_ledger hserved.toQueueAlone

/-! ### What operations leave -/

/-- **Whoever holds a key lets go of it** by giving it its status back, by starting its delivery, or
by being dropped. -/
theorem QueueMove.holding? (hm : QueueMove setup s a t) (hi : s.holding? i = some (key, previous)) :
    t.holding? i = some (key, previous) ∨ t.statuses.get key = previous ∨
      (s.ledger setup key).running < (t.ledger setup key).running ∨ a = .drop i := by
  have hothers {j : OperationId} (hji : j ≠ i)
      (hold : ∀ j', t.holding? j' = if j = j' then none else s.holding? j') :
      t.holding? i = some (key, previous) := by
    rw [hold, if_neg hji, hi]
  have hsame {j : OperationId} {key' : κ} {previous' : TxStatus} (hji : j = i)
      (hj : s.holding? j = some (key', previous')) : key' = key ∧ previous' = previous := by
    subst hji
    simpa using hj.symm.trans hi
  cases hm with
  | still hold => exact .inl ((hold i).trans hi)
  | @opens j key' _ hj _ _ hold =>
    have hji : j ≠ i := by
      rintro rfl
      simp [hi] at hj
    refine .inl ?_
    rw [hold, if_neg hji, hi]
  | @refused j key' previous' hj hold _ hstatuses =>
    by_cases hji : j = i
    · obtain ⟨rfl, rfl⟩ := hsame hji hj
      refine .inr (.inl ?_)
      rw [hstatuses, StatusTable.get_restore, if_pos rfl]
    · exact .inl (hothers hji hold)
  | @dropped j key' previous' hj hold _ _ _ ha =>
    by_cases hji : j = i
    · exact .inr (.inr (.inr (hji ▸ ha)))
    · exact .inl (hothers hji hold)
  | @launched j key' previous' x hj hold _ _ hdeliveries hopen hxkey =>
    by_cases hji : j = i
    · obtain ⟨rfl, rfl⟩ := hsame hji hj
      have hruns : x.runs setup key' = 1 := if_pos ⟨hopen, hxkey⟩
      refine .inr (.inr (.inl ?_))
      simp [ledger, hdeliveries, hruns]
    · exact .inl (hothers hji hold)

/-- Operations end no delivery. -/
theorem QueueMove.running_le (hm : QueueMove setup s a t) (key : κ) :
    (s.ledger setup key).running ≤ (t.ledger setup key).running := by
  cases hm with
  | still _ _ _ hdeliveries | opens _ _ _ _ _ _ _ hdeliveries | refused _ _ _ _ hdeliveries
  | dropped _ _ _ _ hdeliveries =>
    simp only [ledger, hdeliveries, Nat.le_refl]
  | launched _ _ _ _ hdeliveries => simp [ledger, hdeliveries]

/-- **An operation loses nothing.** -/
theorem InOrder.kept_of_operationStep (hs : s.InOrder setup) (ht : t.InOrder setup)
    (ho : s.isOrderly a = true) (h : OperationStep setup s a (t, seen)) (key : κ) :
    (s.ledger setup key).underWay ≤ (t.ledger setup key).underWay ∨
      t.statuses.get key ≠ .pending := by
  obtain ⟨hconfirms, herrors, hbooks⟩ := feeds_of_operationStep h
  have hm := queueMove_of_operationStep hs.filed hs.keyed h
  have hmove := hm.ledgerMove hs.guarded ht.guarded hconfirms herrors hbooks key
  refine (hs.sound key).kept hmove ?_ ?_ (hm.running_le key) fun p hheld hgone => ?_
  · simp only [ledger, hbooks, hconfirms]
  · simp only [ledger, hbooks, herrors]
  · -- Of the ways in which a key is let go of, an orderly step is not a drop.
    obtain ⟨i, hi⟩ := hs.guarded.heldStatus_eq_some_iff.mp hheld
    rcases hm.holding? hi with hi' | hstatus | hlt | rfl
    · have hheld' : (t.ledger setup key).held = some p :=
        ht.guarded.heldStatus_eq_some_iff.mpr ⟨i, hi'⟩
      rw [hheld'] at hgone
      contradiction
    · exact .inl hstatus
    · exact .inr hlt
    · simp [isOrderly, hi] at ho

/-! ### What is published -/

/-- **The end of a delivery** as it concerns the queue: the outcome is published, and the delivery
is counted off for the key the outcome is about. -/
structure Concludes (setup : Setup κ) (s t : Service κ) (seen : List Observation)
    (outcome : Outcome) : Prop where
  /-- The outcome is all that is published. -/
  seen : seen.filterMap Observation.anyOutcome? = [outcome]
  /-- The bookkeeper is there. -/
  bookkeeper : ∃ k, s.bookkeepers = [k]
  /-- It stays as it is. -/
  bookkeepers : t.bookkeepers = s.bookkeepers
  /-- The outcome is put on the feed of confirmations, if it is one. -/
  confirms : t.confirms = (s.publish outcome).confirms
  /-- It is put on the feed of failures, if it is one. -/
  errors : t.errors = (s.publish outcome).errors
  /-- Statuses stay as they are. -/
  statuses : t.statuses = s.statuses
  /-- Keys are held as they were. -/
  held : ∀ key, t.heldStatus key = s.heldStatus key
  /-- The delivery is counted off. -/
  running : ∀ key, (t.ledger setup key).running +
    (outcome.confirmations.countP (fun event => setup.keyOf event.tx.tx = key) +
      outcome.failures.countP (fun event => setup.keyOf event.tx.tx = key)) =
    (s.ledger setup key).running

/-- **What a delivery does** concerns the queue only when the delivery ends. -/
theorem InOrder.concludes_of_deliveryStep (hs : s.InOrder setup)
    (h : DeliveryStep setup s a (t, seen)) :
    (∀ key, t.ledger setup key = s.ledger setup key) ∧
        seen.filterMap Observation.anyOutcome? = [] ∨
      ∃ outcome, Concludes setup s t seen outcome := by
  cases h with
  | @proceed d x x' _ m _ hx hproceeds =>
    refine .inl ⟨fun key => Ledger.ext rfl rfl ?_ rfl rfl, hproceeds.anyOutcome?⟩
    have hsum := sum_map_set_add (Delivery.runs setup key) x' hx
    rwa [runs_of_proceeds hs.keyed (hs.filed.delivery hx) hproceeds,
      Nat.add_right_cancel_iff] at hsum
  | @conclude d x _ outcome hx hends =>
    refine .inr ⟨outcome, ?_, ?_, rfl, rfl, rfl, rfl, fun key => ?_, fun key => ?_⟩
    · simp [List.filterMap, Observation.anyOutcome?]
    · -- Whatever was delivered was sent, so that there is a bookkeeper.
      refine List.length_eq_one_iff.mp (Nat.le_antisymm hs.one ?_)
      refine List.length_pos_iff.mpr fun hnone => ?_
      rw [(hs.attended.begun hnone).1] at hx
      contradiction
    · refine heldStatus_of_operations ?_
      rw [hs.filed.owner_eq_none hs.owned hx hends.isOpen]
      rfl
    · have hkeyOf : setup.keyOf outcome.tx.tx = setup.keyOf x.current.tx :=
        hs.keyed _ _ ((hs.filed.delivery hx).outcome hends)
      have hruns : x.runs setup key = if setup.keyOf outcome.tx.tx = key then 1 else 0 := by
        simp only [Delivery.runs, hends.isOpen, true_and, hkeyOf]
      rw [Outcome.counts_add, ← hruns]
      exact running_of_close hx rfl key

/-- **An outcome that finds room** comes after what the bookkeeper has not taken yet. -/
theorem InOrder.held_publish (hs : s.InOrder setup) (hk : k ∈ s.bookkeepers)
    (hroom : s.backlog k outcome < Feed.defaultCapacity) :
    (s.publish outcome).confirms.held k.confirms =
        s.confirms.held k.confirms ++ outcome.confirmations ∧
      (s.publish outcome).errors.held k.errors = s.errors.held k.errors ++ outcome.failures := by
  obtain ⟨hc, he⟩ := hs.attended.follows k hk
  cases outcome with
  | confirmed event =>
    exact ⟨hc.held_publish_of_lt hs.keeping.confirms hs.attended.confirms hroom event,
      (List.append_nil _).symm⟩
  | failed event =>
    exact ⟨(List.append_nil _).symm,
      he.held_publish_of_lt hs.keeping.errors hs.attended.errors hroom event⟩

/-- **An outcome that finds room is to be entered**, as is everything that was before. -/
theorem Concludes.ledger_of_room (h : Concludes setup s t seen outcome) (hs : s.InOrder setup)
    (hroom : (⟨s, a, seen, t⟩ : Transition κ).HasRoom) (key : κ) :
    (t.ledger setup key).confirming = (s.ledger setup key).confirming +
        outcome.confirmations.countP (fun event => setup.keyOf event.tx.tx = key) ∧
      (t.ledger setup key).failing = (s.ledger setup key).failing +
        outcome.failures.countP (fun event => setup.keyOf event.tx.tx = key) := by
  obtain ⟨k, hbook⟩ := h.bookkeeper
  have hk : k ∈ s.bookkeepers := hbook ▸ List.mem_singleton_self k
  obtain ⟨hc, hf⟩ := hs.held_publish hk (hroom outcome (h.seen ▸ List.mem_singleton_self _) k hk)
  simp only [ledger, h.bookkeepers, hbook, h.confirms, h.errors, List.map_singleton,
    List.sum_singleton, Bookkeeper.confirming, Bookkeeper.failing, hc, hf, List.countP_append]
  omega

/-- **An outcome that finds no room** drives out the oldest one the bookkeeper has not taken. -/
theorem Concludes.ledger_of_full (h : Concludes setup s t seen outcome) (hs : s.InOrder setup)
    (hfull : ¬ (⟨s, a, seen, t⟩ : Transition κ).HasRoom) :
    ∃ key, 0 < (s.ledger setup key).confirming + (s.ledger setup key).failing ∧
      (t.ledger setup key).confirming + (t.ledger setup key).failing + 1 =
        (s.ledger setup key).confirming + (s.ledger setup key).failing +
          (outcome.confirmations.countP (fun event => setup.keyOf event.tx.tx = key) +
            outcome.failures.countP (fun event => setup.keyOf event.tx.tx = key)) := by
  obtain ⟨k, hbook⟩ := h.bookkeeper
  obtain ⟨hc, he⟩ := hs.attended.follows k (hbook ▸ List.mem_singleton_self k)
  have hfull : Feed.defaultCapacity ≤ s.backlog k outcome := by
    simpa [Transition.HasRoom, h.seen, hbook] using hfull
  obtain ⟨-, -, hbooks, hconfirms, herrors, -, -, -⟩ := h
  cases outcome with
  | confirmed event =>
    obtain ⟨first, rest, hheld, hheld'⟩ :=
      hc.held_publish_of_le hs.keeping.confirms hs.attended.confirms hfull event
    refine ⟨setup.keyOf first.tx.tx, ?_⟩
    simp [ledger, hbooks, hbook, hconfirms, herrors, publish, Bookkeeper.confirming,
      Bookkeeper.failing, hheld, hheld', Outcome.confirmations, Outcome.failures,
      List.countP_cons]
    omega
  | failed event =>
    obtain ⟨first, rest, hheld, hheld'⟩ :=
      he.held_publish_of_le hs.keeping.errors hs.attended.errors hfull event
    refine ⟨setup.keyOf first.tx.tx, ?_⟩
    simp [ledger, hbooks, hbook, hconfirms, herrors, publish, Bookkeeper.confirming,
      Bookkeeper.failing, hheld, hheld', Outcome.confirmations, Outcome.failures,
      List.countP_cons]
    omega

/-! ### What is lost -/

/-- What concerns a key is the same where the bookkeepers can receive the same. -/
theorem ledger_congr (hbooks : t.bookkeepers = s.bookkeepers)
    (hheld : ∀ k ∈ s.bookkeepers, t.confirms.held k.confirms = s.confirms.held k.confirms ∧
      t.errors.held k.errors = s.errors.held k.errors)
    (hstatuses : t.statuses = s.statuses) (hops : t.operations = s.operations)
    (hdeliveries : t.deliveries = s.deliveries) (key : κ) :
    t.ledger setup key = s.ledger setup key := by
  refine Ledger.ext (heldStatus_of_operations hops) ?_ ?_ ?_ ?_
  · simp only [ledger, hstatuses]
  · simp only [ledger, hdeliveries]
  · simp only [ledger, hbooks]
    refine congrArg List.sum (List.map_congr_left fun k hk => ?_)
    rw [Bookkeeper.confirming, (hheld k hk).1, ← Bookkeeper.confirming]
  · simp only [ledger, hbooks]
    refine congrArg List.sum (List.map_congr_left fun k hk => ?_)
    rw [Bookkeeper.failing, (hheld k hk).2, ← Bookkeeper.failing]

/-- Nothing is lost by what happens outside. -/
theorem InOrder.ledger_of_outsideStep (hs : s.InOrder setup) (ho : s.isOrderly a = true)
    (h : OutsideStep setup s a (t, seen)) (key : κ) :
    t.ledger setup key = s.ledger setup key := by
  obtain ⟨-, -, hbooks⟩ := hs.keeping.goesOn_of_outsideStep h
  obtain ⟨hstatuses, hops, hdeliveries⟩ := statuses_of_outsideStep h
  refine ledger_congr hbooks (fun k hk => ?_) hstatuses hops hdeliveries key
  obtain ⟨hcid, heid⟩ := hs.keeping.named k hk
  cases h with
  | close => contradiction
  | wait => exact ⟨rfl, rfl⟩
  | subscribeConfirms => exact ⟨Feed.held_subscribe hcid, rfl⟩
  | subscribeErrors => exact ⟨rfl, Feed.held_subscribe heid⟩
  | drainConfirms => exact ⟨Feed.held_drain_of_ne (ne_subscription ho hk), rfl⟩
  | drainErrors => exact ⟨rfl, Feed.held_drain_of_ne (ne_subscription ho hk)⟩
  | unsubscribeConfirms => exact ⟨Feed.held_unsubscribe_of_ne (ne_subscription ho hk), rfl⟩
  | unsubscribeErrors => exact ⟨rfl, Feed.held_unsubscribe_of_ne (ne_subscription ho hk)⟩

/-- **What is under way stays so** until the key is pending no more, if there is room for what is
published. -/
theorem InOrder.kept (hs : s.InOrder setup) (ht : t.InOrder setup) (ho : s.isOrderly a = true)
    (h : s.step? setup a = some (t, seen))
    (hroom : (⟨s, a, seen, t⟩ : Transition κ).HasRoom) (key : κ) :
    (s.ledger setup key).underWay ≤ (t.ledger setup key).underWay ∨
      t.statuses.get key ≠ .pending := by
  have hsame (heq : t.ledger setup key = s.ledger setup key) :
      (s.ledger setup key).underWay ≤ (t.ledger setup key).underWay ∨
        t.statuses.get key ≠ .pending := .inl (Nat.le_of_eq (by rw [heq]))
  cases step_of_step? h with
  | operation h => exact hs.kept_of_operationStep ht ho h key
  | delivery h =>
    rcases hs.concludes_of_deliveryStep h with ⟨heq, -⟩ | ⟨outcome, hconcludes⟩
    · exact hsame (heq key)
    · obtain ⟨hc, hf⟩ := hconcludes.ledger_of_room hs hroom key
      have hrunning := hconcludes.running key
      have hheld : (t.ledger setup key).held = (s.ledger setup key).held := hconcludes.held key
      refine .inl ?_
      simp only [Ledger.underWay, hheld]
      omega
  | bookkeeper h =>
    refine (ledger_of_bookkeeperStep hs.keeping ht.one h ?_ key).elim hsame fun hmarked =>
      .inr hmarked.2
    rintro b rfl
    cases h with
    | stop _ _ hready =>
      rw [hs.attended.serving] at hready
      contradiction
  | outside h => exact hsame (hs.ledger_of_outsideStep ho h key)

/-- **An outcome that finds no room makes a key lost**, the one of the outcome it drives out. -/
theorem InOrder.exists_lost (hs : s.InOrder setup) (h : s.step? setup a = some (t, seen))
    (hfull : ¬ (⟨s, a, seen, t⟩ : Transition κ).HasRoom) : ∃ key, (t.ledger setup key).Lost := by
  have hquiet (hseen : seen.filterMap Observation.anyOutcome? = []) :
      (⟨s, a, seen, t⟩ : Transition κ).HasRoom := by
    simp [Transition.HasRoom, hseen]
  cases step_of_step? h with
  | operation h => exact absurd (hquiet (anyOutcome?_of_operationStep h)) hfull
  | delivery h =>
    rcases hs.concludes_of_deliveryStep h with ⟨-, hseen⟩ | ⟨outcome, hconcludes⟩
    · exact absurd (hquiet hseen) hfull
    · obtain ⟨key, hpos, hdriven⟩ := hconcludes.ledger_of_full hs hfull
      -- The outcome driven out was all that was under way for its key.
      have hone := (hs.sound key).one
      have hheld := (hs.sound key).held_eq_none (by omega)
      have hstatus := (hs.sound key).pending (by simp only [Ledger.underWay]; omega)
      have hrunning := hconcludes.running key
      have hheld' : (t.ledger setup key).held = (s.ledger setup key).held := hconcludes.held key
      have hstatus' : (t.ledger setup key).status = (s.ledger setup key).status := by
        simp only [ledger, hconcludes.statuses]
      simp only [Ledger.underWay] at hone
      refine ⟨key, hstatus'.trans hstatus, Ledger.underWay_eq_zero_iff.mpr ⟨hheld'.trans hheld, ?_⟩⟩
      omega
  | bookkeeper h => exact absurd (hquiet (anyOutcome?_of_bookkeeperStep h)) hfull
  | outside h => exact absurd (hquiet (anyOutcome?_of_outsideStep h)) hfull

end Service

end TxDelivery
