import TxDelivery.Proofs.Delivery.OneOutcome
import TxDelivery.Proofs.Feed
import TxDelivery.Proofs.Progress
import TxDelivery.Proofs.Queue.Ledger
import TxDelivery.Proofs.Queue.Move
import TxDelivery.Proofs.StatusTable

/-!
# The ledger of a key in a service

What concerns one key is read off the operations, the deliveries, the bookkeeper and the feeds
(`TxDelivery.Service.ledger`). **Every step of a service that is used through its queue, and has one
bookkeeper at most, changes the ledger of every key in one of the few ways a ledger changes**
(`TxDelivery.Service.ledgerMove_of_step?`).

The ledger is the place where it can be said that a key is in one hand at a time. In the service the
hands are far apart: a send that holds the key under the status lock, a delivery that runs without
any lock, an event on a feed that nobody has taken yet, and a bookkeeper that has taken one and
waits for the lock. From one to the next the key is passed on by steps of different parties, and
none of them can see that the others have it not. A ledger has a number for each of these places,
and every step is looked at for one thing only, from which number to which other it moves a one.

## Who moves what

* An operation takes hold of a key, gives the key its status back, or starts a delivery for it
  (`TxDelivery.Service.QueueMove.ledgerMove`). What is held is found by looking through the
  operations, and as whoever holds a key has the status lock, there is one such operation at most
  (`TxDelivery.Service.StatusGuarded.heldStatus_eq_some_iff`).
* A delivery that ends is counted off, and its outcome is put on a feed
  (`TxDelivery.Service.ledgerMove_of_deliveryStep`). A delivery that goes on is counted for the key
  it was counted for, because the variants of a delivery are all about the same.
* A bookkeeper takes an event and marks its key (`TxDelivery.Service.ledgerMove_of_bookkeeperStep`).

## What is yet to be entered

Nobody has to say which events a feed has dropped, for a ledger only bounds what is yet to be
entered. A feed that goes on has no more for a subscriber than it had and what was published
meanwhile; with what the bookkeeper has in hand this makes a bound for each of the two feeds
(`TxDelivery.Service.sum_held_le`), and for both numbers of the ledger at once
(`TxDelivery.Service.toEnter_le`). Two bookkeepers would enter an event twice, which is why there
may be one at most. That it follows subscriptions which were made, and that the feeds are in order,
is an invariant of every run (`TxDelivery.Service.Keeping`).
-/

namespace TxDelivery

variable {κ : Type} [DecidableEq κ]

/-- The confirmations of a key that a bookkeeper has yet to enter: those held for it, and the one it
is about to enter. -/
def Bookkeeper.confirming (setup : Setup κ) (feed : Feed ConfirmEvent) (key : κ)
    (b : Bookkeeper κ) : Nat :=
  (feed.held b.confirms).countP (fun event => setup.keyOf event.tx.tx = key) +
    if b.stage = .marking key .finished then 1 else 0

/-- The failures of a key that a bookkeeper has yet to enter. -/
def Bookkeeper.failing (setup : Setup κ) (feed : Feed ErrorEvent) (key : κ)
    (b : Bookkeeper κ) : Nat :=
  (feed.held b.errors).countP (fun event => setup.keyOf event.tx.tx = key) +
    if b.stage = .marking key .error then 1 else 0

/-- Whether a delivery for a key is under way. -/
def Delivery.runs (setup : Setup κ) (key : κ) (x : Delivery) : Nat :=
  if x.isOpen ∧ setup.keyOf x.current.tx = key then 1 else 0

/-- What an outcome puts on the feed of confirmations. -/
def Outcome.confirmations : Outcome → List ConfirmEvent
  | .confirmed event => [event]
  | .failed _ => []

/-- What an outcome puts on the feed of failures. -/
def Outcome.failures : Outcome → List ErrorEvent
  | .confirmed _ => []
  | .failed event => [event]

/-- The confirmation of a key that an outcome is, if it is one. -/
def Outcome.confirmation? (setup : Setup κ) (key : κ) : Outcome → Option ConfirmEvent
  | .confirmed event => if setup.keyOf event.tx.tx = key then some event else none
  | .failed _ => none

/-- The confirmation of a key that an observation publishes, if it publishes one. -/
def Observation.confirmation? (setup : Setup κ) (key : κ) (o : Observation) : Option ConfirmEvent :=
  o.anyOutcome?.bind (Outcome.confirmation? setup key)

/-- What publishes nothing publishes no confirmation. -/
theorem confirmations_of_anyOutcome? {setup : Setup κ} {key : κ} {seen : List Observation}
    (h : seen.filterMap Observation.anyOutcome? = []) :
    seen.filterMap (Observation.confirmation? setup key) = [] := by
  have hcompose : Observation.confirmation? setup key = fun o : Observation =>
      o.anyOutcome?.bind (Outcome.confirmation? setup key) := rfl
  rw [hcompose, ← List.filterMap_filterMap, h, List.filterMap_nil]

/-- Log entries publish nothing. -/
theorem anyOutcome?_of_log (log : List LogEvent) :
    (log.map Observation.logged).filterMap Observation.anyOutcome? = [] := by
  simp [List.filterMap_map, Function.comp_def, Observation.anyOutcome?]

/-- An outcome of another key puts nothing of this key on the feeds. -/
theorem Outcome.counts_of_ne {setup : Setup κ} {key : κ} {outcome : Outcome}
    (h : setup.keyOf outcome.tx.tx ≠ key) :
    outcome.confirmations.countP (fun event => setup.keyOf event.tx.tx = key) = 0 ∧
      outcome.failures.countP (fun event => setup.keyOf event.tx.tx = key) = 0 ∧
      outcome.confirmation? setup key = none := by
  cases outcome <;> simpa [confirmations, failures, confirmation?, tx] using h

/-- A sum over one term at most, after the terms have grown by so much at most. -/
theorem sum_map_le_add {α : Type} {l : List α} {f g : α → Nat} {n : Nat} (hone : l.length ≤ 1)
    (h : ∀ a ∈ l, g a ≤ f a + n) : (l.map g).sum ≤ (l.map f).sum + n := by
  match l, hone with
  | [], _ => exact Nat.zero_le _
  | [a], _ => simpa using h a (List.mem_singleton_self a)

/-- The only element of a list. -/
theorem eq_singleton_of_getElem? {α : Type} {l : List α} {i : Nat} {a : α} (hone : l.length ≤ 1)
    (h : l[i]? = some a) : l = [a] ∧ i = 0 := by
  match l, i, hone with
  | [b], 0, _ => exact ⟨by simpa using h, rfl⟩

namespace Service

/-- The status a key gets back if the first broadcast for it fails, if one is made. -/
def heldStatus (s : Service κ) (key : κ) : Option TxStatus :=
  s.operations.findSome? fun o => o.stage.holding?.bind fun held =>
    if held.1 = key then some held.2 else none

/-- **The status that a reader of a key is shown**: whoever makes a first broadcast for the key
keeps readers out until it is settled. -/
def shownStatus (s : Service κ) (key : κ) : TxStatus := (s.heldStatus key).getD (s.statuses.get key)

/-- **The ledger of a key.** -/
def ledger (setup : Setup κ) (s : Service κ) (key : κ) : Ledger where
  held := s.heldStatus key
  status := s.statuses.get key
  running := (s.deliveries.map (Delivery.runs setup key)).sum
  confirming := (s.bookkeepers.map (Bookkeeper.confirming setup s.confirms key)).sum
  failing := (s.bookkeepers.map (Bookkeeper.failing setup s.errors key)).sum

variable {setup : Setup κ} {s t : Service κ} {a : Action κ} {seen : List Observation}
  {i j : OperationId} {key : κ} {previous : TxStatus}

/-! ### The key that is held -/

/-- A key is held by an operation. -/
theorem exists_of_heldStatus (h : s.heldStatus key = some previous) :
    ∃ i, s.holding? i = some (key, previous) := by
  obtain ⟨o, ho, hheld⟩ := List.exists_of_findSome?_eq_some h
  obtain ⟨i, hlt, rfl⟩ := List.getElem_of_mem ho
  obtain ⟨⟨key', previous'⟩, hholding, hheld⟩ := Option.bind_eq_some_iff.mp hheld
  simp only [Option.ite_none_right_eq_some, Option.some.injEq] at hheld
  obtain ⟨rfl, rfl⟩ := hheld
  refine ⟨i, ?_⟩
  rw [holding?, stage?, List.getElem?_eq_getElem hlt, Option.map_some, Option.bind_some, hholding]

/-- **The status that is held** for a key is the one its holder holds. -/
theorem StatusGuarded.heldStatus_eq_some_iff (hs : s.StatusGuarded) :
    s.heldStatus key = some previous ↔ ∃ i, s.holding? i = some (key, previous) := by
  refine ⟨exists_of_heldStatus, fun ⟨i, hi⟩ => ?_⟩
  cases hheld : s.heldStatus key with
  | some previous' =>
    obtain ⟨j, hj⟩ := exists_of_heldStatus hheld
    obtain rfl := hs.unique (by rw [hi]; simp) (by rw [hj]; simp : s.holding? j ≠ none)
    rw [hi] at hj
    simp only [Option.some.injEq, Prod.mk.injEq, true_and] at hj
    rw [hj]
  | none =>
    obtain ⟨st, hst, hholding⟩ := Option.bind_eq_some_iff.mp hi
    obtain ⟨o, ho, rfl⟩ := Option.map_eq_some_iff.mp hst
    have hnone := List.findSome?_eq_none_iff.mp hheld o (List.mem_of_getElem? ho)
    simp [hholding] at hnone

/-- What is held for a key depends on who holds it alone. -/
theorem heldStatus_congr (hs : s.StatusGuarded) (ht : t.StatusGuarded)
    (h : ∀ j previous, t.holding? j = some (key, previous) ↔ s.holding? j = some (key, previous)) :
    t.heldStatus key = s.heldStatus key := by
  refine Option.ext fun previous => ?_
  rw [ht.heldStatus_eq_some_iff, hs.heldStatus_eq_some_iff]
  exact exists_congr fun j => h j previous

/-- Whoever has the status lock, and holds no key, sees none held. -/
theorem StatusGuarded.heldStatus_of_heldBy (hs : s.StatusGuarded)
    (hheld : s.statusLock.heldBy (.operation i) = true) (hi : s.holding? i = none) (key : κ) :
    s.heldStatus key = none := by
  refine Option.eq_none_iff_forall_ne_some.mpr fun previous hprevious => ?_
  obtain ⟨j, hj⟩ := exists_of_heldStatus hprevious
  have hij : Party.operation i = .operation j :=
    (hs.owned (by rw [hj]; simp)).eq_of_heldBy hheld
  obtain rfl : i = j := Party.operation.inj hij
  simp [hi] at hj

/-- Taking hold of a key, or letting go of it, does not concern another. -/
theorem heldStatus_of_ne (hs : s.StatusGuarded) (ht : t.StatusGuarded)
    {held : Option (κ × TxStatus)} (hi : ∀ previous, s.holding? i ≠ some (key, previous))
    (hheld : ∀ previous, held ≠ some (key, previous))
    (hold : ∀ j, t.holding? j = if i = j then held else s.holding? j) :
    t.heldStatus key = s.heldStatus key := by
  refine heldStatus_congr hs ht fun j previous => ?_
  rw [hold]
  split
  case isTrue hij =>
    subst hij
    exact iff_of_false (hheld previous) (hi previous)
  case isFalse => exact Iff.rfl

/-- What is held once somebody has taken hold of a key. -/
theorem heldStatus_of_taken (hs : s.StatusGuarded) (ht : t.StatusGuarded) {key' : κ}
    (hi : s.holding? i = none)
    (hold : ∀ j, t.holding? j = if i = j then some (key', previous) else s.holding? j) (key : κ) :
    t.heldStatus key = if key = key' then some previous else s.heldStatus key := by
  by_cases hkey : key = key'
  · rw [if_pos hkey, hkey]
    exact ht.heldStatus_eq_some_iff.mpr ⟨i, by rw [hold, if_pos rfl]⟩
  · rw [if_neg hkey]
    refine heldStatus_of_ne hs ht (by simp [hi]) (fun previous' heq => hkey ?_) hold
    exact (Prod.mk.inj (Option.some.inj heq)).1.symm

/-- What is held once somebody has let go of a key. -/
theorem heldStatus_of_freed (hs : s.StatusGuarded) (ht : t.StatusGuarded) {key' : κ}
    (hi : s.holding? i = some (key', previous))
    (hold : ∀ j, t.holding? j = if i = j then none else s.holding? j) (key : κ) :
    t.heldStatus key = if key = key' then none else s.heldStatus key := by
  by_cases hkey : key = key'
  · -- Whoever else held the key would have had the status lock as well.
    rw [if_pos hkey]
    refine Option.eq_none_iff_forall_ne_some.mpr fun previous' hheld => ?_
    obtain ⟨j, hj⟩ := exists_of_heldStatus hheld
    rw [hold] at hj
    split at hj
    case isTrue => contradiction
    case isFalse hij => exact hij (hs.unique (by simp [hi]) (by simp [hj]))
  · rw [if_neg hkey]
    refine heldStatus_of_ne hs ht (fun previous' heq => hkey ?_) (by simp) hold
    exact (Prod.mk.inj (Option.some.inj (hi.symm.trans heq))).1.symm

/-- Which key is held depends on the operations alone. -/
theorem heldStatus_of_operations (h : t.operations = s.operations) :
    t.heldStatus key = s.heldStatus key := by
  rw [heldStatus, h, ← heldStatus]

/-! ### Operations -/

/-- Operations leave the feeds and the bookkeepers alone. -/
theorem feeds_of_operationStep (h : OperationStep setup s a (t, seen)) :
    t.confirms = s.confirms ∧ t.errors = s.errors ∧ t.bookkeepers = s.bookkeepers := by
  cases h <;> exact ⟨rfl, rfl, rfl⟩

/-- Operations publish nothing. -/
theorem anyOutcome?_of_operationStep (h : OperationStep setup s a (t, seen)) :
    seen.filterMap Observation.anyOutcome? = [] := by
  refine List.filterMap_eq_nil_iff.mpr fun o ho => ?_
  cases o with
  | called | logged => rfl
  | published d outcome =>
    exfalso
    cases deliveryMove_of_operationStep h (d := d) with
    | still _ hseen => exact hseen _ ho rfl
    | launched _ _ _ _ _ _ _ hseen | abandoned _ _ _ _ _ hseen => simp [hseen] at ho
    | proceeded _ hproceeds =>
      have hnone := List.filterMap_eq_nil_iff.mp hproceeds.anyOutcome? _ ho
      contradiction
    | concluded _ hends => cases hends <;> cases h <;> rename_i href <;> cases href

/-! ### The bookkeeper -/

/-- **Bookkeepers are in order**: they follow subscriptions that were made, and make a key finished
or failed. -/
structure Keeping (s : Service κ) : Prop where
  /-- The feed of confirmations is in order. -/
  confirms : s.confirms.Sound
  /-- The feed of failures is in order. -/
  errors : s.errors.Sound
  /-- The subscriptions were made. -/
  named : ∀ k ∈ s.bookkeepers, k.confirms < s.confirms.nextId ∧ k.errors < s.errors.nextId
  /-- A key becomes finished or failed. -/
  marks : ∀ k ∈ s.bookkeepers, ∀ key status, k.stage = .marking key status →
    status = .finished ∨ status = .error

variable {k : Bookkeeper κ} {b : BookkeeperId} {confirmed : List ConfirmEvent}
  {failed : List ErrorEvent}

omit [DecidableEq κ] in
/-- The feeds go on, and the bookkeepers stay as they are. -/
theorem Keeping.goesOn (hs : s.Keeping) (hconfirms : s.confirms.GoesOn confirmed t.confirms)
    (herrors : s.errors.GoesOn failed t.errors) (hbooks : t.bookkeepers = s.bookkeepers) :
    t.Keeping where
  confirms := hconfirms.sound
  errors := herrors.sound
  named k hk := by
    obtain ⟨hc, he⟩ := hs.named k (hbooks ▸ hk)
    exact ⟨Nat.lt_of_lt_of_le hc hconfirms.nextId, Nat.lt_of_lt_of_le he herrors.nextId⟩
  marks k hk := hs.marks k (hbooks ▸ hk)

omit [DecidableEq κ] in
/-- A bookkeeper goes on, and no subscription is made. -/
theorem Keeping.set {stage : Bookkeeper.Stage κ} (hs : s.Keeping) (hk : s.bookkeepers[b]? = some k)
    (hbooks : t.bookkeepers = s.bookkeepers.set b { k with stage := stage })
    (hstage : ∀ key status, stage = .marking key status → status = .finished ∨ status = .error)
    (hconfirms : t.confirms.Sound) (herrors : t.errors.Sound)
    (hconfirmsId : t.confirms.nextId = s.confirms.nextId)
    (herrorsId : t.errors.nextId = s.errors.nextId) : t.Keeping where
  confirms := hconfirms
  errors := herrors
  named k' hk' := by
    rw [hconfirmsId, herrorsId]
    rcases List.mem_or_eq_of_mem_set (hbooks ▸ hk') with hk' | rfl
    · exact hs.named k' hk'
    · exact hs.named k (List.mem_of_getElem? hk)
  marks k' hk' := by
    rcases List.mem_or_eq_of_mem_set (hbooks ▸ hk') with hk' | rfl
    · exact hs.marks k' hk'
    · exact hstage

/-- **Bookkeepers stay in order** when one of them goes on. -/
theorem Keeping.bookkeeperStep (hs : s.Keeping) (h : BookkeeperStep setup s a (t, seen)) :
    t.Keeping := by
  cases h with
  | start =>
    refine ⟨hs.confirms.subscribe, hs.errors.subscribe, fun k hk => ?_, fun k hk => ?_⟩
    · rcases List.mem_append.mp hk with hk | hk
      · obtain ⟨hc, he⟩ := hs.named k hk
        exact ⟨Nat.lt_succ_of_lt hc, Nat.lt_succ_of_lt he⟩
      · obtain rfl := List.mem_singleton.mp hk
        exact ⟨Nat.lt_succ_self _, Nat.lt_succ_self _⟩
    · rcases List.mem_append.mp hk with hk | hk
      · exact hs.marks k hk
      · obtain rfl := List.mem_singleton.mp hk
        simp
  | @takeConfirm b k event feed _ hk _ hreceive =>
    obtain rfl : (s.confirms.receive k.confirms).2 = feed := congrArg Prod.snd hreceive
    refine hs.set hk rfl (fun key status hstage => .inl ?_) hs.confirms.receive hs.errors
      (Feed.nextId_receive _ _) rfl
    simp only [Bookkeeper.Stage.marking.injEq] at hstage
    exact hstage.2.symm
  | @takeError b k event feed _ hk _ hreceive =>
    obtain rfl : (s.errors.receive k.errors).2 = feed := congrArg Prod.snd hreceive
    refine hs.set hk rfl (fun key status hstage => .inr ?_) hs.confirms hs.errors.receive rfl
      (Feed.nextId_receive _ _)
    simp only [Bookkeeper.Stage.marking.injEq] at hstage
    exact hstage.2.symm
  | mark hk => exact hs.set hk rfl (by simp) hs.confirms hs.errors rfl rfl
  | stop hk =>
    exact hs.set hk rfl (by simp) hs.confirms.unsubscribe hs.errors.unsubscribe rfl rfl

/-- **The feeds go on** when something happens outside. -/
theorem Keeping.goesOn_of_outsideStep (hs : s.Keeping) (h : OutsideStep setup s a (t, seen)) :
    s.confirms.GoesOn [] t.confirms ∧ s.errors.GoesOn [] t.errors ∧
      t.bookkeepers = s.bookkeepers := by
  cases h with
  | close | wait => exact ⟨hs.confirms.goesOn, hs.errors.goesOn, rfl⟩
  | subscribeConfirms => exact ⟨hs.confirms.goesOn_subscribe, hs.errors.goesOn, rfl⟩
  | subscribeErrors => exact ⟨hs.confirms.goesOn, hs.errors.goesOn_subscribe, rfl⟩
  | drainConfirms => exact ⟨hs.confirms.goesOn_drain, hs.errors.goesOn, rfl⟩
  | drainErrors => exact ⟨hs.confirms.goesOn, hs.errors.goesOn_drain, rfl⟩
  | unsubscribeConfirms => exact ⟨hs.confirms.goesOn_unsubscribe, hs.errors.goesOn, rfl⟩
  | unsubscribeErrors => exact ⟨hs.confirms.goesOn, hs.errors.goesOn_unsubscribe, rfl⟩

omit [DecidableEq κ] in
/-- **The feeds go on** when an outcome is published. -/
theorem Keeping.goesOn_publish (hs : s.Keeping) (outcome : Outcome) :
    s.confirms.GoesOn outcome.confirmations (s.publish outcome).confirms ∧
      s.errors.GoesOn outcome.failures (s.publish outcome).errors := by
  cases outcome with
  | confirmed event => exact ⟨hs.confirms.goesOn_publish, hs.errors.goesOn⟩
  | failed event => exact ⟨hs.confirms.goesOn, hs.errors.goesOn_publish⟩

/-- **Bookkeepers stay in order**, whatever the step. -/
theorem Keeping.step (hs : s.Keeping) (h : s.step? setup a = some (t, seen)) : t.Keeping := by
  cases step_of_step? h with
  | operation h =>
    obtain ⟨hconfirms, herrors, hbooks⟩ := feeds_of_operationStep h
    have hconfirms' : s.confirms.GoesOn [] t.confirms := hconfirms ▸ hs.confirms.goesOn
    have herrors' : s.errors.GoesOn [] t.errors := herrors ▸ hs.errors.goesOn
    exact hs.goesOn hconfirms' herrors' hbooks
  | delivery h =>
    cases h with
    | proceed => exact hs.goesOn hs.confirms.goesOn hs.errors.goesOn rfl
    | conclude =>
      obtain ⟨hconfirms, herrors⟩ := hs.goesOn_publish _
      exact hs.goesOn hconfirms herrors rfl
  | bookkeeper h => exact hs.bookkeeperStep h
  | outside h =>
    obtain ⟨hconfirms, herrors, hbooks⟩ := hs.goesOn_of_outsideStep h
    exact hs.goesOn hconfirms herrors hbooks

/-- **At every moment bookkeepers are in order.** -/
theorem History.keeping (h : History setup .start tr s) : s.Keeping := by
  refine h.invariant ⟨Feed.sound_empty, Feed.sound_empty, ?_, ?_⟩ fun _ _ hstep ih => ih.step hstep
  · simp [start]
  · simp [start]

/-- **Bookkeepers are counted by their starts.** -/
theorem length_bookkeepers_of_step? (h : s.step? setup a = some (t, seen)) :
    t.bookkeepers.length = s.bookkeepers.length + if a = .startBookkeeper then 1 else 0 := by
  cases step_of_step? h with
  | operation h =>
    obtain ⟨-, -, hbooks⟩ := feeds_of_operationStep h
    rw [hbooks, if_neg, Nat.add_zero]
    rintro rfl
    cases h <;> rename_i href <;> cases href
  | delivery h =>
    have hbooks : t.bookkeepers = s.bookkeepers := by cases h <;> rfl
    rw [hbooks, if_neg, Nat.add_zero]
    rintro rfl
    cases h <;> rename_i hends <;> cases hends
  | bookkeeper h =>
    cases h with
    | start => simp
    | takeConfirm | takeError | mark | stop => simp
  | outside h => cases h <;> simp

/-- At every moment there are as many bookkeepers as were started. -/
theorem History.length_bookkeepers (h : History setup .start tr s) :
    s.bookkeepers.length = tr.countP fun e => e.action = .startBookkeeper := by
  induction h with
  | nil => rfl
  | snoc _ hstep ih =>
    rw [length_bookkeepers_of_step? hstep, ih, List.countP_append, List.countP_singleton]
    simp

omit [DecidableEq κ] in
/-- **A bookkeeper has no more to enter** from a feed that goes on than it had, and what was
published meanwhile. `follows` is its subscription to the feed, `marked` what it has taken from
it. -/
theorem sum_held_le {ε : Type} {feed feed' : Feed ε} {published : List ε}
    {books : List (Bookkeeper κ)} {follows : Bookkeeper κ → SubscriptionId}
    (hone : books.length ≤ 1) (hfeed : feed.GoesOn published feed')
    (hnamed : ∀ k ∈ books, follows k < feed.nextId) (p : ε → Bool) (marked : Bookkeeper κ → Nat) :
    (books.map fun k => (feed'.held (follows k)).countP p + marked k).sum ≤
      (books.map fun k => (feed.held (follows k)).countP p + marked k).sum +
        published.countP p := by
  refine sum_map_le_add hone fun k hk => ?_
  have hheld := (hfeed.held _ (hnamed k hk)).countP_le (p := p)
  rw [List.countP_append] at hheld
  omega

/-- **A key has no more to be entered** than it had, and what was published meanwhile. -/
theorem toEnter_le (hs : s.Keeping) (hone : s.bookkeepers.length ≤ 1)
    (hconfirms : s.confirms.GoesOn confirmed t.confirms)
    (herrors : s.errors.GoesOn failed t.errors) (hbooks : t.bookkeepers = s.bookkeepers)
    (setup : Setup κ) (key : κ) :
    (t.ledger setup key).confirming ≤ (s.ledger setup key).confirming +
        confirmed.countP (fun event => setup.keyOf event.tx.tx = key) ∧
      (t.ledger setup key).failing ≤ (s.ledger setup key).failing +
        failed.countP fun event => setup.keyOf event.tx.tx = key := by
  simp only [ledger, hbooks]
  exact ⟨sum_held_le hone hconfirms (fun k hk => (hs.named k hk).1) _ _,
    sum_held_le hone herrors (fun k hk => (hs.named k hk).2) _ _⟩

/-! ### The ledger of a key, step by step -/

/-- The feeds go on, and what concerns the key otherwise stays. -/
theorem ledgerMove_still (hs : s.Keeping) (hone : s.bookkeepers.length ≤ 1)
    (hconfirms : s.confirms.GoesOn confirmed t.confirms)
    (herrors : s.errors.GoesOn failed t.errors) (hbooks : t.bookkeepers = s.bookkeepers)
    (hconfirmed : confirmed.countP (fun event => setup.keyOf event.tx.tx = key) = 0)
    (hfailed : failed.countP (fun event => setup.keyOf event.tx.tx = key) = 0)
    (hheld : t.heldStatus key = s.heldStatus key)
    (hstatus : t.statuses.get key = s.statuses.get key)
    (hrunning : (t.ledger setup key).running = (s.ledger setup key).running) :
    (s.ledger setup key).Move 0 (t.ledger setup key) := by
  obtain ⟨hc, hf⟩ := toEnter_le hs hone hconfirms herrors hbooks setup key
  have heq : t.ledger setup key = { s.ledger setup key with
      confirming := (t.ledger setup key).confirming
      failing := (t.ledger setup key).failing } :=
    Ledger.ext hheld hstatus hrunning rfl rfl
  rw [heq]
  exact .still (by omega) (by omega)

/-- **What an operation does to the queue is a move of the ledger** of every key. -/
theorem QueueMove.ledgerMove (hm : QueueMove setup s a t) (hs : s.StatusGuarded)
    (ht : t.StatusGuarded) (hconfirms : t.confirms = s.confirms) (herrors : t.errors = s.errors)
    (hbooks : t.bookkeepers = s.bookkeepers) (key : κ) :
    (s.ledger setup key).Move 0 (t.ledger setup key) := by
  have hconfirming : (t.ledger setup key).confirming = (s.ledger setup key).confirming := by
    simp only [ledger, hbooks, hconfirms]
  have hfailing : (t.ledger setup key).failing = (s.ledger setup key).failing := by
    simp only [ledger, hbooks, herrors]
  have hstill (hheld : t.heldStatus key = s.heldStatus key)
      (hstatus : t.statuses.get key = s.statuses.get key)
      (hrunning : (t.ledger setup key).running = (s.ledger setup key).running) :
      (s.ledger setup key).Move 0 (t.ledger setup key) :=
    (Ledger.Move.still (Nat.le_refl _) (Nat.le_refl _)).of_eq
      (Ledger.ext hheld hstatus hrunning hconfirming hfailing)
  have hrunning (hdeliveries : t.deliveries = s.deliveries) :
      (t.ledger setup key).running = (s.ledger setup key).running := by
    simp only [ledger, hdeliveries]
  have hheld {i : OperationId} {key' : κ} {previous : TxStatus}
      (hi : s.holding? i = some (key', previous)) : s.heldStatus key' = some previous :=
    hs.heldStatus_eq_some_iff.mpr ⟨i, hi⟩
  -- Each of the changes is about one key, and leaves the ledgers of the others as they are.
  cases hm with
  | still hold _ hstatuses hdeliveries =>
    have hsame : t.heldStatus key = s.heldStatus key :=
      heldStatus_congr hs ht fun j _ => by rw [hold]
    exact hstill hsame (by rw [hstatuses]) (hrunning hdeliveries)
  | @opens i key' hr hi hlock hprevious hold _ hstatuses hdeliveries =>
    have hnow := heldStatus_of_taken hs ht hi hold key
    have hget := StatusTable.get_set s.statuses key' key .pending
    rw [← hstatuses] at hget
    by_cases hkey : key = key'
    · subst hkey
      rw [if_pos rfl] at hnow hget
      exact (Ledger.Move.opens (hs.heldStatus_of_heldBy hlock hi key) hprevious).of_eq
        (Ledger.ext hnow hget (hrunning hdeliveries) hconfirming hfailing)
    · rw [if_neg hkey] at hnow hget
      exact hstill hnow hget (hrunning hdeliveries)
  | @refused i key' previous hi hold _ hstatuses hdeliveries =>
    have hnow := heldStatus_of_freed hs ht hi hold key
    have hget := StatusTable.get_restore s.statuses key' key previous
    rw [← hstatuses] at hget
    by_cases hkey : key = key'
    · subst hkey
      rw [if_pos rfl] at hnow hget
      exact (Ledger.Move.refused (hheld hi)).of_eq
        (Ledger.ext hnow hget (hrunning hdeliveries) hconfirming hfailing)
    · rw [if_neg hkey] at hnow hget
      exact hstill hnow hget (hrunning hdeliveries)
  | @dropped i key' previous hi hold _ hstatuses hdeliveries =>
    have hnow := heldStatus_of_freed hs ht hi hold key
    have hget : t.statuses.get key = s.statuses.get key := by rw [hstatuses]
    by_cases hkey : key = key'
    · subst hkey
      rw [if_pos rfl] at hnow
      exact (Ledger.Move.dropped (hheld hi)).of_eq
        (Ledger.ext hnow hget (hrunning hdeliveries) hconfirming hfailing)
    · rw [if_neg hkey] at hnow
      exact hstill hnow hget (hrunning hdeliveries)
  | @launched i key' previous x hi hold _ hstatuses hdeliveries hopen hxkey =>
    have hnow := heldStatus_of_freed hs ht hi hold key
    have hget : t.statuses.get key = s.statuses.get key := by rw [hstatuses]
    have hsum : (t.ledger setup key).running =
        (s.ledger setup key).running + x.runs setup key := by
      simp [ledger, hdeliveries]
    by_cases hkey : key = key'
    · subst hkey
      rw [Delivery.runs, if_pos ⟨hopen, hxkey⟩] at hsum
      rw [if_pos rfl] at hnow
      exact (Ledger.Move.launched (hheld hi)).of_eq
        (Ledger.ext hnow hget hsum hconfirming hfailing)
    · rw [Delivery.runs, if_neg fun hx => hkey (hx.2.symm.trans hxkey), Nat.add_zero] at hsum
      rw [if_neg hkey] at hnow
      exact hstill hnow hget hsum

/-- A delivery that proceeds runs for the key it ran for. -/
theorem runs_of_proceeds {now : Nat} {d : DeliveryId} {x x' : Delivery} {m m' : Metrics}
    (hkey : setup.KeyedByPayload) (hx : x.Uniform)
    (h : x.Proceeds setup now d m a x' m' seen) : x'.runs setup key = x.runs setup key := by
  simp only [Delivery.runs, h.isOpen_eq, hkey _ _ (hx.current_of_proceeds h)]

/-- A delivery that ends is counted off. -/
theorem running_of_close {d : DeliveryId} {x : Delivery} {outcome : Outcome}
    (hx : s.deliveries[d]? = some x)
    (hdeliveries : t.deliveries = s.deliveries.set d (x.close outcome)) (key : κ) :
    (t.ledger setup key).running + x.runs setup key = (s.ledger setup key).running := by
  have hclosed : (x.close outcome).runs setup key = 0 :=
    if_neg (by simp [Delivery.close, Delivery.isOpen])
  have hsum := sum_map_set_add (Delivery.runs setup key) (x.close outcome) hx
  rwa [hclosed, ← hdeliveries] at hsum

/-- The end of a delivery is a move of the ledger of every key. -/
theorem ledgerMove_of_conclude {d : DeliveryId} {x : Delivery} {outcome : Outcome}
    (hs : s.Filed setup) (hkeeping : s.Keeping) (hone : s.bookkeepers.length ≤ 1)
    (hkey : setup.KeyedByPayload) (hx : s.deliveries[d]? = some x)
    (hends : x.Ends setup s.now d a outcome) (hops : t.operations = s.operations)
    (hstatuses : t.statuses = s.statuses) (hconfirms : t.confirms = (s.publish outcome).confirms)
    (herrors : t.errors = (s.publish outcome).errors) (hbooks : t.bookkeepers = s.bookkeepers)
    (hdeliveries : t.deliveries = s.deliveries.set d (x.close outcome)) (key : κ) :
    (s.ledger setup key).Move (outcome.confirmation? setup key).toList.length
      (t.ledger setup key) := by
  have hkeyOf : setup.keyOf outcome.tx.tx = setup.keyOf x.current.tx :=
    hkey _ _ ((hs.delivery hx).outcome hends)
  have hheld : t.heldStatus key = s.heldStatus key := heldStatus_of_operations hops
  have hsum : (t.ledger setup key).running + x.runs setup key = (s.ledger setup key).running :=
    running_of_close hx hdeliveries key
  have hstatus : t.statuses.get key = s.statuses.get key := by rw [hstatuses]
  obtain ⟨hgoes, hgoes'⟩ := hkeeping.goesOn_publish outcome
  rw [← hconfirms] at hgoes
  rw [← herrors] at hgoes'
  obtain ⟨hc, hf⟩ := toEnter_le hkeeping hone hgoes hgoes' hbooks setup key
  by_cases hown : setup.keyOf x.current.tx = key
  · -- The delivery was one of the key, and is counted off.
    have hrunning : (s.ledger setup key).running = (t.ledger setup key).running + 1 := by
      rw [← hsum, Delivery.runs, if_pos ⟨hends.isOpen, hown⟩]
    have heq : t.ledger setup key = { s.ledger setup key with
        running := (t.ledger setup key).running
        confirming := (t.ledger setup key).confirming
        failing := (t.ledger setup key).failing } :=
      Ledger.ext hheld hstatus rfl rfl rfl
    cases outcome with
    | confirmed event =>
      have hnumber : (Outcome.confirmed event).confirmation? setup key = some event :=
        if_pos (hkeyOf.trans hown)
      rw [hnumber]
      refine (Ledger.Move.confirmed hrunning ?_ hf).of_eq heq
      exact Nat.le_trans hc (Nat.add_le_add_left List.countP_le_length _)
    | failed event =>
      refine (Ledger.Move.failed hrunning hc ?_).of_eq heq
      exact Nat.le_trans hf (Nat.add_le_add_left List.countP_le_length _)
  · -- The delivery was one of another key.
    have hrunning : (t.ledger setup key).running = (s.ledger setup key).running := by
      rw [← hsum, Delivery.runs, if_neg fun h => hown h.2, Nat.add_zero]
    obtain ⟨hconfirmed, hfailed, hnumber⟩ :=
      Outcome.counts_of_ne fun h => hown (hkeyOf.symm.trans h)
    rw [hnumber]
    exact ledgerMove_still hkeeping hone hgoes hgoes' hbooks hconfirmed hfailed hheld hstatus
      hrunning

/-- **What a delivery does is a move of the ledger** of every key. -/
theorem ledgerMove_of_deliveryStep (hs : s.Filed setup) (howned : s.Owned)
    (hkeeping : s.Keeping) (hone : s.bookkeepers.length ≤ 1) (hkey : setup.KeyedByPayload)
    (h : DeliveryStep setup s a (t, seen)) (key : κ) :
    (s.ledger setup key).Move (seen.filterMap (Observation.confirmation? setup key)).length
      (t.ledger setup key) := by
  cases h with
  | @proceed d x x' _ m _ hx hproceeds =>
    rw [confirmations_of_anyOutcome? hproceeds.anyOutcome?]
    have hsum := sum_map_set_add (Delivery.runs setup key) x' hx
    rw [runs_of_proceeds hkey (hs.delivery hx) hproceeds, Nat.add_right_cancel_iff] at hsum
    exact ledgerMove_still hkeeping hone hkeeping.confirms.goesOn hkeeping.errors.goesOn rfl rfl
      rfl rfl rfl hsum
  | @conclude d x _ outcome hx hends =>
    have hops : handOver s.operations x.owner outcome = s.operations := by
      rw [hs.owner_eq_none howned hx hends.isOpen]
      rfl
    have hseen : [Observation.logged (outcomeLog outcome), .published d outcome].filterMap
        (Observation.confirmation? setup key) = (outcome.confirmation? setup key).toList := by
      cases h : outcome.confirmation? setup key <;>
        simp [List.filterMap, Observation.confirmation?, Observation.anyOutcome?, h]
    rw [hseen]
    refine ledgerMove_of_conclude hs hkeeping hone hkey hx hends hops ?_ ?_ ?_ ?_ ?_ key
    all_goals rfl

/-- Bookkeepers publish nothing. -/
theorem anyOutcome?_of_bookkeeperStep (h : BookkeeperStep setup s a (t, seen)) :
    seen.filterMap Observation.anyOutcome? = [] := by
  cases h with
  | takeConfirm | takeError => exact anyOutcome?_of_log _
  | start | mark | stop => rfl

/-- **A bookkeeper that goes on loses nothing**: an event that it takes is still to be entered,
until the key is marked. -/
theorem ledger_of_bookkeeperStep (hs : s.Keeping) (hone : t.bookkeepers.length ≤ 1)
    (h : BookkeeperStep setup s a (t, seen)) (hstop : ∀ b, a ≠ .stop b) (key : κ) :
    t.ledger setup key = s.ledger setup key ∨
      (s.ledger setup key).Move 0 (t.ledger setup key) ∧ t.statuses.get key ≠ .pending := by
  cases h with
  | start =>
    have hnone : s.bookkeepers = [] := by
      refine List.length_eq_zero_iff.mp ?_
      rw [List.length_append, List.length_singleton] at hone
      omega
    refine .inl (Ledger.ext rfl rfl rfl ?_ ?_)
    · simp [ledger, hnone, Bookkeeper.confirming, hs.confirms.held_subscribe_self]
    · simp [ledger, hnone, Bookkeeper.failing, hs.errors.held_subscribe_self]
  | @takeConfirm b k event feed _ hk hstage hreceive =>
    obtain ⟨hbooks, rfl⟩ := eq_singleton_of_getElem? (by simpa using hone) hk
    refine .inl (Ledger.ext rfl rfl rfl ?_ ?_)
    · simp [ledger, hbooks, Bookkeeper.confirming, Feed.held_of_receive hreceive, hstage,
        List.countP_cons]
    · simp [ledger, hbooks, Bookkeeper.failing, hstage]
  | @takeError b k event feed _ hk hstage hreceive =>
    obtain ⟨hbooks, rfl⟩ := eq_singleton_of_getElem? (by simpa using hone) hk
    refine .inl (Ledger.ext rfl rfl rfl ?_ ?_)
    · simp [ledger, hbooks, Bookkeeper.confirming, hstage]
    · simp [ledger, hbooks, Bookkeeper.failing, Feed.held_of_receive hreceive, hstage,
        List.countP_cons]
  | @mark b k key' status hk hstage _ =>
    obtain ⟨hbooks, rfl⟩ := eq_singleton_of_getElem? (by simpa using hone) hk
    have hmem : k ∈ s.bookkeepers := List.mem_of_getElem? hk
    by_cases hkey : key = key'
    · -- The bookkeeper entered the event it had taken.
      subst hkey
      have hget : (s.statuses.set key status).get key = status := by
        rw [StatusTable.get_set, if_pos rfl]
      rcases hs.marks k hmem key status hstage with rfl | rfl
      · refine .inr ⟨(Ledger.Move.finished ?_).of_eq (Ledger.ext rfl hget rfl rfl ?_), ?_⟩
        · simp [ledger, hbooks, Bookkeeper.confirming, hstage]
        · simp [ledger, hbooks, Bookkeeper.failing, hstage]
        · rw [hget]
          simp
      · refine .inr ⟨(Ledger.Move.errored ?_).of_eq (Ledger.ext rfl hget rfl ?_ rfl), ?_⟩
        · simp [ledger, hbooks, Bookkeeper.failing, hstage]
        · simp [ledger, hbooks, Bookkeeper.confirming, hstage]
        · rw [hget]
          simp
    · have hget : (s.statuses.set key' status).get key = s.statuses.get key := by
        rw [StatusTable.get_set, if_neg hkey]
      refine .inl (Ledger.ext rfl hget rfl ?_ ?_)
      · simp [ledger, hbooks, Bookkeeper.confirming, hstage, Ne.symm hkey]
      · simp [ledger, hbooks, Bookkeeper.failing, hstage, Ne.symm hkey]
  | @stop b => exact absurd rfl (hstop b)

/-- **What a bookkeeper does is a move of the ledger** of every key; one that stops gives up the
events held for it. -/
theorem ledgerMove_of_bookkeeperStep (hs : s.Keeping) (hone : t.bookkeepers.length ≤ 1)
    (h : BookkeeperStep setup s a (t, seen)) (key : κ) :
    (s.ledger setup key).Move 0 (t.ledger setup key) := by
  by_cases hstop : ∀ b, a ≠ .stop b
  · rcases ledger_of_bookkeeperStep hs hone h hstop key with hsame | ⟨hmove, -⟩
    · rw [hsame]
      exact .still (Nat.le_refl _) (Nat.le_refl _)
    · exact hmove
  · simp only [not_forall, not_not] at hstop
    obtain ⟨b, rfl⟩ := hstop
    cases h with
    | @stop _ k hk hstage _ =>
      obtain ⟨hbooks, rfl⟩ := eq_singleton_of_getElem? (by simpa using hone) hk
      have hc := (Feed.held_unsubscribe s.confirms k.confirms k.confirms).countP_le
        (p := fun event : ConfirmEvent => setup.keyOf event.tx.tx = key)
      have hf := (Feed.held_unsubscribe s.errors k.errors k.errors).countP_le
        (p := fun event : ErrorEvent => setup.keyOf event.tx.tx = key)
      refine (Ledger.Move.still ?_ ?_).of_eq rfl
      · simpa [ledger, hbooks, Bookkeeper.confirming, hstage] using hc
      · simpa [ledger, hbooks, Bookkeeper.failing, hstage] using hf

/-- What happens outside publishes nothing. -/
theorem anyOutcome?_of_outsideStep (h : OutsideStep setup s a (t, seen)) :
    seen.filterMap Observation.anyOutcome? = [] := by
  cases h with
  | drainConfirms | drainErrors => exact anyOutcome?_of_log _
  | _ => rfl

/-- What happens outside leaves the statuses, the operations and the deliveries alone. -/
theorem statuses_of_outsideStep (h : OutsideStep setup s a (t, seen)) :
    t.statuses = s.statuses ∧ t.operations = s.operations ∧ t.deliveries = s.deliveries := by
  cases h <;> exact ⟨rfl, rfl, rfl⟩

/-- **Every step is a move of the ledger** of every key, if the service is used through its queue
and has one bookkeeper at most. -/
theorem ledgerMove_of_step? (hfiled : s.Filed setup) (howned : s.Owned) (hs : s.StatusGuarded)
    (hkeeping : s.Keeping) (hone : t.bookkeepers.length ≤ 1) (hkey : setup.KeyedByPayload)
    (h : s.step? setup a = some (t, seen)) (key : κ) :
    (s.ledger setup key).Move (seen.filterMap (Observation.confirmation? setup key)).length
      (t.ledger setup key) := by
  have ht := hs.step howned h
  cases step_of_step? h with
  | operation h =>
    obtain ⟨hconfirms, herrors, hbooks⟩ := feeds_of_operationStep h
    rw [confirmations_of_anyOutcome? (anyOutcome?_of_operationStep h)]
    have hmove := queueMove_of_operationStep hfiled hkey h
    exact hmove.ledgerMove hs ht hconfirms herrors hbooks key
  | delivery h =>
    have hbooks : t.bookkeepers = s.bookkeepers := by cases h <;> rfl
    exact ledgerMove_of_deliveryStep hfiled howned hkeeping (hbooks ▸ hone) hkey h key
  | bookkeeper h =>
    rw [confirmations_of_anyOutcome? (anyOutcome?_of_bookkeeperStep h)]
    exact ledgerMove_of_bookkeeperStep hkeeping hone h key
  | outside h =>
    obtain ⟨hconfirms, herrors, hbooks⟩ := hkeeping.goesOn_of_outsideStep h
    obtain ⟨hstatuses, hops, hdeliveries⟩ := statuses_of_outsideStep h
    rw [confirmations_of_anyOutcome? (anyOutcome?_of_outsideStep h)]
    refine ledgerMove_still hkeeping (hbooks ▸ hone) hconfirms herrors hbooks rfl rfl
      (heldStatus_of_operations hops) (by rw [hstatuses]) ?_
    simp only [ledger, hdeliveries]

end Service

end TxDelivery
