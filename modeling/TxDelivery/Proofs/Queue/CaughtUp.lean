import TxDelivery.Proofs.Queue.Reception

/-!
# Statuses that are up to date

What the statuses of the keys say when the bookkeeper has caught up (`TxDelivery.Service.CaughtUp`):
it is idle, and nothing more is held for it. The statuses are up to date
(`TxDelivery.Service.UpToDate`) if a key is finished once its latest delivery was confirmed, failed
once it was given up, and pending only while it is under way. In a run in which the queue is served
**they are up to date exactly if whatever was published found room**
(`TxDelivery.Service.History.upToDate_iff`).

It may find none. Publishing never waits, while the bookkeeper waits for the status lock that a send
holds until its first broadcast is answered. If more deliveries end meanwhile than a feed keeps
events, the first of them is lost, and its key stays pending for good
(`TxDelivery.Service.not_upToDate_crowdedRun`).

## If there was room

Then every key is accounted for at every moment (`TxDelivery.Service.Accounted`): its ledger is not
lost, and the outcome of its latest delivery is to be entered or was. This is the invariant, and it
has to speak of the latest delivery, since the status tells nothing of those before it. A delivery
under way is the latest of its key, as there is one at a time; so when a delivery ends it is the
latest that does, and its outcome is the one to be entered (`TxDelivery.Service.Accounted.step`).
Once the bookkeeper has caught up nothing is to be entered, and what is left of the invariant is
that the statuses are up to date.

## If there was none

Then the event that was driven out takes a key with it, which is pending with nothing under way.
Nothing that can happen afterwards makes up for it, as a send of a pending key does nothing
(`TxDelivery.Service.History.exists_lost`). So it does not matter how long ago it was, nor what has
found room since: in the end there is a key that is shown as pending, and no delivery for it.
-/

namespace TxDelivery

variable {κ : Type}

namespace Service

/-- **The latest delivery of a key.** -/
structure Latest (setup : Setup κ) (s : Service κ) (key : κ) (d : DeliveryId) (x : Delivery) :
    Prop where
  /-- The delivery is there. -/
  delivery : s.deliveries[d]? = some x
  /-- It is one of the key. -/
  keyed : setup.keyOf x.current.tx = key
  /-- No later one is. -/
  last : ∀ d' x', d < d' → s.deliveries[d']? = some x' → setup.keyOf x'.current.tx ≠ key

variable [DecidableEq κ]

/-- **The bookkeeper has caught up**: it is idle, and nothing more is held for it. -/
def CaughtUp (s : Service κ) : Prop :=
  ∀ k ∈ s.bookkeepers,
    k.stage = .idle ∧ s.confirms.held k.confirms = [] ∧ s.errors.held k.errors = []

instance (s : Service κ) : Decidable s.CaughtUp :=
  inferInstanceAs (Decidable (∀ k ∈ s.bookkeepers,
    k.stage = .idle ∧ s.confirms.held k.confirms = [] ∧ s.errors.held k.errors = []))

/-- **The statuses are up to date** with what was published. -/
structure UpToDate (setup : Setup κ) (tr : List (Transition κ)) (s : Service κ) : Prop where
  /-- A key whose latest delivery was confirmed is finished. -/
  finished : ∀ key d x event, s.Latest setup key d x → .confirmed event ∈ outcomesOf d tr →
    s.shownStatus key = .finished
  /-- A key whose latest delivery was given up is failed. -/
  failed : ∀ key d x event, s.Latest setup key d x → .failed event ∈ outcomesOf d tr →
    s.shownStatus key = .error
  /-- A key is pending only while its latest delivery is under way. -/
  pending : ∀ key, s.shownStatus key = .pending →
    ∃ d x, s.Latest setup key d x ∧ x.isOpen = true

/-- **A key is accounted for**: nothing of it is lost, and the outcome of its latest delivery is to
be entered or was. -/
structure Accounted (setup : Setup κ) (s : Service κ) (key : κ) : Prop where
  /-- The ledger is not lost. -/
  found : ¬ (s.ledger setup key).Lost
  /-- A confirmation is to be entered, or was. -/
  confirmed : ∀ d x event, s.Latest setup key d x → x.outcome? = some (.confirmed event) →
    0 < (s.ledger setup key).confirming ∨ (s.ledger setup key).status = .finished
  /-- A failure is to be entered, or was. -/
  failed : ∀ d x event, s.Latest setup key d x → x.outcome? = some (.failed event) →
    0 < (s.ledger setup key).failing ∨ (s.ledger setup key).shown = .error
  /-- What is under way is the latest. -/
  latest : ∀ (d : DeliveryId) (x : Delivery), s.deliveries[d]? = some x → x.isOpen = true →
    setup.keyOf x.current.tx = key → s.Latest setup key d x

variable {setup : Setup κ} {s t u : Service κ} {a : Action κ} {seen : List Observation}
  {d d' : DeliveryId} {x x' : Delivery} {key : κ} {tr tr' : List (Transition κ)}

/-! ### The latest delivery, step by step -/

omit [DecidableEq κ] in
/-- There is one latest delivery at most. -/
theorem Latest.unique (h : s.Latest setup key d x) (h' : s.Latest setup key d' x') : x = x' := by
  rcases Nat.lt_trichotomy d d' with hlt | rfl | hlt
  · exact absurd h'.keyed (h.last d' x' hlt h'.delivery)
  · exact Option.some.inj (h.delivery.symm.trans h'.delivery)
  · exact absurd h.keyed (h'.last d x hlt h.delivery)

/-- **Where a delivery comes from** in a step. -/
inductive Precedes (setup : Setup κ) (s : Service κ) (seen : List Observation) (d : DeliveryId)
    (x' : Delivery) : Prop where
  /-- It starts. -/
  | started (hd : d = s.deliveries.length) (hopen : x'.isOpen = true)
  /-- It stays under way, or over. -/
  | still {x : Delivery} (hx : s.deliveries[d]? = some x)
      (hkey : setup.keyOf x'.current.tx = setup.keyOf x.current.tx) (hopen : x'.isOpen = x.isOpen)
      (houtcome : x'.outcome? = x.outcome?)
  /-- It ends. -/
  | ended {x : Delivery} {outcome : Outcome} (hx : s.deliveries[d]? = some x)
      (hkey : setup.keyOf x'.current.tx = setup.keyOf x.current.tx) (hclosed : x'.isOpen = false)
      (houtcome : x'.outcome? = some outcome)
      (hokey : setup.keyOf outcome.tx.tx = setup.keyOf x.current.tx)
      (hseen : seen.filterMap Observation.anyOutcome? = [outcome])

/-- Every delivery comes from somewhere. -/
theorem InOrder.precedes (hs : s.InOrder setup) (h : s.step? setup a = some (t, seen))
    (hx' : t.deliveries[d]? = some x') : Precedes setup s seen d x' := by
  have hnow {y : Delivery} (ht : t.deliveries[d]? = some y) : x' = y :=
    Option.some.inj (hx'.symm.trans ht)
  cases deliveryMove_of_step? h (d := d) with
  | still ht => exact .still (ht.symm.trans hx') rfl rfl rfl
  | launched hd _ _ _ ht =>
    obtain rfl := hnow ht
    exact .started hd rfl
  | @concluded x outcome hx hends ht _ _ _ hseen =>
    obtain rfl := hnow ht
    refine .ended hx rfl rfl rfl (hs.keyed _ _ ((hs.filed.delivery hx).outcome hends)) ?_
    simp [hseen, List.filterMap, Observation.anyOutcome?]
  | proceeded hx hproceeds ht =>
    obtain rfl := hnow ht
    exact .still hx (hs.keyed _ _ ((hs.filed.delivery hx).current_of_proceeds hproceeds))
      hproceeds.isOpen_eq hproceeds.outcome?_eq
  | abandoned hx _ hst =>
    obtain ⟨r, hr⟩ := exists_request? hst
    cases hs.filed.operation hr hst

/-- Deliveries stay, and stay of their keys. -/
theorem InOrder.exists_delivery (hs : s.InOrder setup) (h : s.step? setup a = some (t, seen))
    (hx : s.deliveries[d]? = some x) :
    ∃ x', t.deliveries[d]? = some x' ∧ setup.keyOf x'.current.tx = setup.keyOf x.current.tx := by
  cases deliveryMove_of_step? h (d := d) with
  | still ht => exact ⟨x, ht.trans hx, rfl⟩
  | launched hd =>
    rw [hd] at hx
    simp at hx
  | concluded hx' _ ht =>
    obtain rfl := Option.some.inj (hx'.symm.trans hx)
    exact ⟨_, ht, rfl⟩
  | proceeded hx' hproceeds ht =>
    obtain rfl := Option.some.inj (hx'.symm.trans hx)
    exact ⟨_, ht, hs.keyed _ _ ((hs.filed.delivery hx).current_of_proceeds hproceeds)⟩
  | abandoned hx' _ _ ht =>
    obtain rfl := Option.some.inj (hx'.symm.trans hx)
    exact ⟨_, ht, rfl⟩

/-- What is the latest delivery of a key after a step was so before, if it was there. -/
theorem Latest.of_step (hlatest : t.Latest setup key d x') (hs : s.InOrder setup)
    (h : s.step? setup a = some (t, seen)) (hx : s.deliveries[d]? = some x)
    (hkey : setup.keyOf x'.current.tx = setup.keyOf x.current.tx) : s.Latest setup key d x := by
  refine ⟨hx, hkey.symm.trans hlatest.keyed, fun d' y hlt hy hykey => ?_⟩
  obtain ⟨y', hy', hkey'⟩ := hs.exists_delivery h hy
  exact hlatest.last d' y' hlt hy' (hkey'.trans hykey)

/-- **What is under way after a step is the latest delivery of its key**, if that was so before. -/
theorem InOrder.latest_of_isOpen (hs : s.InOrder setup) (ht : t.InOrder setup)
    (h : s.step? setup a = some (t, seen))
    (hlatest : ∀ (d : DeliveryId) (x : Delivery), s.deliveries[d]? = some x → x.isOpen = true →
      setup.keyOf x.current.tx = key → s.Latest setup key d x)
    (hx' : t.deliveries[d]? = some x') (hopen' : x'.isOpen = true)
    (hkey' : setup.keyOf x'.current.tx = key) : t.Latest setup key d x' := by
  refine ⟨hx', hkey', fun d' y' hlt hy' hykey' => ?_⟩
  cases hs.precedes h hy' with
  | started _ hopen =>
    -- Two deliveries of the key would be under way.
    exact Nat.ne_of_lt hlt (eq_of_isOpen (ht.sound key) hx' hy' hopen' hopen hkey' hykey')
  | still hy hkeyy | ended hy hkeyy =>
    cases hs.precedes h hx' with
    | started hd =>
      have hlt' : d' < s.deliveries.length := (List.getElem?_eq_some_iff.mp hy).1
      exact Nat.lt_asymm hlt' (hd ▸ hlt)
    | still hx hkeyx hopen =>
      have hx'' := hlatest d _ hx (hopen ▸ hopen') (hkeyx.symm.trans hkey')
      exact hx''.last d' _ hlt hy (hkeyy.symm.trans hykey')
    | ended _ _ hclosed =>
      rw [hopen'] at hclosed
      contradiction

/-- Whatever publishes an outcome is the end of a delivery. -/
theorem InOrder.concludes (hs : s.InOrder setup) (h : s.step? setup a = some (t, seen))
    {outcome : Outcome} (hseen : seen.filterMap Observation.anyOutcome? = [outcome]) :
    Concludes setup s t seen outcome := by
  have hquiet (hnone : seen.filterMap Observation.anyOutcome? = []) : False := by
    rw [hnone] at hseen
    contradiction
  cases step_of_step? h with
  | operation h => exact (hquiet (anyOutcome?_of_operationStep h)).elim
  | delivery h =>
    rcases hs.concludes_of_deliveryStep h with ⟨-, hnone⟩ | ⟨outcome', hconcludes⟩
    · exact (hquiet hnone).elim
    · obtain rfl : outcome = outcome' := by simpa using hseen.symm.trans hconcludes.seen
      exact hconcludes
  | bookkeeper h => exact (hquiet (anyOutcome?_of_bookkeeperStep h)).elim
  | outside h => exact (hquiet (anyOutcome?_of_outsideStep h)).elim

/-- A key with deliveries under way has one that is. -/
theorem exists_isOpen_of_running (hpos : 0 < (s.ledger setup key).running) :
    ∃ (d : DeliveryId) (x : Delivery), s.deliveries[d]? = some x ∧ x.isOpen = true ∧
      setup.keyOf x.current.tx = key := by
  obtain ⟨n, hn, hne⟩ := List.exists_mem_ne_zero_of_sum_ne_zero (Nat.ne_of_gt hpos)
  obtain ⟨x, hx, rfl⟩ := List.mem_map.mp hn
  obtain ⟨d, hd⟩ := List.getElem?_of_mem hx
  have hruns : x.isOpen ∧ setup.keyOf x.current.tx = key := by
    by_contra hnot
    exact hne (if_neg hnot)
  exact ⟨d, x, hd, hruns⟩

/-! ### Keys that are accounted for -/

/-- **A key stays accounted for** in a step after which its ledger is not lost. -/
theorem Accounted.step (hacc : s.Accounted setup key) (hs : s.InOrder setup) (ht : t.InOrder setup)
    (h : s.step? setup a = some (t, seen)) {n : Nat}
    (hmove : (s.ledger setup key).Move n (t.ledger setup key))
    (hfound : ¬ (t.ledger setup key).Lost)
    (hroom : (⟨s, a, seen, t⟩ : Transition κ).HasRoom) : t.Accounted setup key := by
  have hlatest {d : DeliveryId} {x' : Delivery} (hx' : t.deliveries[d]? = some x')
      (hopen' : x'.isOpen = true) (hkey' : setup.keyOf x'.current.tx = key) :
      t.Latest setup key d x' := hs.latest_of_isOpen ht h hacc.latest hx' hopen' hkey'
  have hclosed {x' : Delivery} {outcome : Outcome} (houtcome : x'.outcome? = some outcome)
      (hopen : x'.isOpen = true) : False := by
    rw [Delivery.outcome?_of_isOpen hopen] at houtcome
    contradiction
  refine ⟨hfound, fun d x' event hx' houtcome => ?_, fun d x' event hx' houtcome => ?_,
    fun d x' => hlatest⟩
  · cases hs.precedes h hx'.delivery with
    | started _ hopen => exact (hclosed houtcome hopen).elim
    | still hx hkey _ hsame =>
      have hbefore := hacc.confirmed d _ event (hx'.of_step hs h hx hkey) (hsame ▸ houtcome)
      exact (hs.sound key).confirmed_move hmove hfound hbefore
    | @ended x outcome hx hkey _ hended hokey hseen =>
      -- The confirmation was published in this step.
      obtain rfl := Option.some.inj (hended.symm.trans houtcome)
      obtain ⟨hc, -⟩ := (hs.concludes h hseen).ledger_of_room hs hroom key
      have hevent : setup.keyOf event.tx.tx = key := hokey.trans (hkey.symm.trans hx'.keyed)
      refine .inl ?_
      simp [hc, Outcome.confirmations, hevent]
  · cases hs.precedes h hx'.delivery with
    | started _ hopen => exact (hclosed houtcome hopen).elim
    | still hx hkey _ hsame =>
      have hbefore := hacc.failed d _ event (hx'.of_step hs h hx hkey) (hsame ▸ houtcome)
      rcases (hs.sound key).failed_move hmove hfound hbefore with hpos | hshown | hrunning
      · exact .inl hpos
      · exact .inr hshown
      · -- A delivery started in this step would be the latest.
        obtain ⟨d', y, hy, hopen, hykey⟩ := exists_isOpen_of_running hrunning
        obtain rfl := (hlatest hy hopen hykey).unique hx'
        exact (hclosed houtcome hopen).elim
    | @ended x outcome hx hkey _ hended hokey hseen =>
      obtain rfl := Option.some.inj (hended.symm.trans houtcome)
      obtain ⟨-, hf⟩ := (hs.concludes h hseen).ledger_of_room hs hroom key
      have hevent : setup.keyOf event.tx.tx = key := hokey.trans (hkey.symm.trans hx'.keyed)
      refine .inl ?_
      simp [hf, Outcome.failures, hevent]

/-- **At every moment every key is accounted for**, if all that was published found room. -/
theorem History.accounted (h : History setup .start tr s) (hserved : Served setup tr)
    (hroom : ∀ e ∈ tr, e.HasRoom) (key : κ) : s.Accounted setup key := by
  induction h with
  | nil =>
    have hnone {d : DeliveryId} {x : Delivery}
        (hx : (start : Service κ).deliveries[d]? = some x) : False := by
      simp [start] at hx
    refine ⟨fun hlost => ?_, fun d x event hx => (hnone hx.delivery).elim,
      fun d x event hx => (hnone hx.delivery).elim, fun d x hx => (hnone hx).elim⟩
    have hstatus : (start : Service κ).statuses.get key = .pending := hlost.status
    simp [start, StatusTable.get] at hstatus
  | @snoc tr t u a seen h hstep ih =>
    have hlast : (⟨t, a, seen, u⟩ : Transition κ) ∈ tr ++ [⟨t, a, seen, u⟩] := by simp
    have hacc := ih hserved.of_append fun e he => hroom e (List.mem_append_left _ he)
    have ht := h.inOrder hserved.of_append
    have hu := (h.snoc hstep).inOrder hserved
    have hmove := h.ledgerMove hstep hserved.toQueueAlone key
    have hkept := ht.kept hu (hserved.orderly _ hlast) hstep
      (hroom _ hlast) key
    exact hacc.step ht hu hstep hmove (hmove.not_lost hkept hacc.found) (hroom _ hlast)

/-- **What is lost stays lost** in every continuation. -/
theorem History.lost (h : History setup .start tr u) (h' : History setup u tr' s)
    (hserved : Served setup (tr ++ tr')) (hlost : (u.ledger setup key).Lost) :
    (s.ledger setup key).Lost := by
  induction h' with
  | nil => exact hlost
  | snoc h' hstep ih =>
    rw [← List.append_assoc] at hserved
    exact (ih hserved.of_append).move ((h.append h').ledgerMove hstep hserved.toQueueAlone key)

/-- **What finds no room leaves a key lost** in every continuation. -/
theorem History.exists_lost (h : History setup .start tr s) (hserved : Served setup tr)
    {e : Transition κ} (he : e ∈ tr) (hfull : ¬ e.HasRoom) : ∃ key, (s.ledger setup key).Lost := by
  obtain ⟨pre, post, rfl⟩ := List.append_of_mem he
  obtain ⟨hpre, hstep, hpost⟩ := h.around
  obtain ⟨key, hlost⟩ := (hpre.inOrder hserved.of_append).exists_lost hstep hfull
  rw [List.append_cons] at hserved
  exact ⟨key, (hpre.snoc hstep).lost hpost hserved hlost⟩

/-! ### Up to date -/

/-- Nothing is to be entered once the bookkeeper has caught up. -/
theorem CaughtUp.ledger (hs : s.CaughtUp) (setup : Setup κ) (key : κ) :
    (s.ledger setup key).confirming = 0 ∧ (s.ledger setup key).failing = 0 := by
  refine ⟨List.sum_eq_zero fun n hn => ?_, List.sum_eq_zero fun n hn => ?_⟩
  · obtain ⟨k, hk, rfl⟩ := List.mem_map.mp hn
    obtain ⟨hidle, hc, -⟩ := hs k hk
    simp [Bookkeeper.confirming, hidle, hc]
  · obtain ⟨k, hk, rfl⟩ := List.mem_map.mp hn
    obtain ⟨hidle, -, hf⟩ := hs k hk
    simp [Bookkeeper.failing, hidle, hf]

/-- **Statuses are up to date exactly if what was published found room.** Let the queue be served,
by a bookkeeper that is started before the first send and never stopped, and let it have the service
to itself. Whenever the bookkeeper has caught up the following two are the same:

* every key whose latest delivery was confirmed is finished, every key whose latest delivery was
  given up is failed, and a key is pending only while its latest delivery is under way;
* whenever an outcome was published, fewer events were waiting for the bookkeeper on its feed than
  a feed keeps. -/
theorem History.upToDate_iff (h : History setup .start tr s) (hserved : Served setup tr)
    (hidle : s.CaughtUp) : s.UpToDate setup tr ↔ ∀ e ∈ tr, e.HasRoom := by
  have hs := h.inOrder hserved
  constructor
  · intro hup e he
    by_contra hfull
    -- A key that is lost is shown as pending, while nothing of it is under way.
    obtain ⟨key, hlost⟩ := h.exists_lost hserved he hfull
    obtain ⟨d, x, hx, hopen⟩ := hup.pending key hlost.shown
    have hpos := running_pos hx.delivery hopen hx.keyed
    have hrunning := (Ledger.underWay_eq_zero_iff.mp hlost.idle).2.1
    omega
  · intro hroom
    have hacc (key : κ) : s.Accounted setup key := h.accounted hserved hroom key
    have houtcome {key : κ} {d : DeliveryId} {x : Delivery} {outcome : Outcome}
        (hx : s.Latest setup key d x) (hmem : outcome ∈ outcomesOf d tr) :
        x.outcome? = some outcome := by
      rw [h.outcomesOf_eq, outcome?_eq hx.delivery] at hmem
      simpa using hmem
    refine ⟨fun key d x event hx hmem => ?_, fun key d x event hx hmem => ?_, fun key hshown => ?_⟩
    · obtain ⟨hc, -⟩ := hidle.ledger setup key
      have hstatus := ((hacc key).confirmed d x event hx (houtcome hx hmem)).resolve_left (by omega)
      exact (hs.sound key).shown_eq_finished_iff.mpr hstatus
    · obtain ⟨-, hf⟩ := hidle.ledger setup key
      exact ((hacc key).failed d x event hx (houtcome hx hmem)).resolve_left (by omega)
    · obtain ⟨hc, hf⟩ := hidle.ledger setup key
      obtain ⟨hheld, hstatus⟩ := (hs.sound key).of_shown_pending hshown
      -- Nothing is to be entered any more, so that only a delivery can be under way.
      have hrunning : 0 < (s.ledger setup key).running := by
        by_contra hzero
        exact (hacc key).found ⟨hstatus,
          Ledger.underWay_eq_zero_iff.mpr ⟨hheld, by omega, hc, hf⟩⟩
      obtain ⟨d, x, hx, hopen, hkey⟩ := exists_isOpen_of_running hrunning
      exact ⟨d, x, (hacc key).latest d x hx hopen hkey, hopen⟩

/-! ### A crowded queue -/

/-- A service that looks at prices every five seconds and tells transfers apart by their amounts. -/
def transferSetup : Setup Amount := ⟨{ changeIntervalSecs := 5 }, 7, fun tx => tx.value⟩

/-- The transfer of an amount, signed with the same number as its nonce. -/
def signedNumber (i : Nat) : SignedTx := signedTransfer (BitVec.ofNat 256 i) (UInt64.ofNat i)

/-- A transfer is sent, with a limit that its price has reached. -/
def enters (i : Nat) : List (Action Amount) :=
  [.begin (.enqueue (transfer (BitVec.ofNat 256 i)) { priceLimit := some 5 }), .resume i, .resume i]

/-- Its first broadcast is accepted. -/
def launches (i : Nat) : List (Action Amount) :=
  [.reply (.operation i) (.signed (signedNumber i)), .reply (.operation i) (.accepted 0),
    .receive i]

/-- Its delivery is given up, as the market price is above the limit. -/
def givesUp (d : Nat) : List (Action Amount) := [.tick d, .reply (.supervisor d) (.price 6)]

/-- **A run in which many deliveries end while one send holds the status lock.** The bookkeeper has
taken the first failure and waits for the lock, until the send gets its answer; the failures of `n`
other deliveries wait on the feed meanwhile. In the end the bookkeeper takes all there are. -/
def crowdedRun (n : Nat) : List (Action Amount) :=
  [.startBookkeeper] ++ enters 0 ++ [.reply (.operation 0) (.nonce 0)] ++ launches 0
    ++ (List.range n).flatMap (fun i => enters (i + 1) ++ launches (i + 1))
    ++ enters (n + 1) ++ [.wait 5000] ++ givesUp 0 ++ [.takeError 0]
    ++ (List.range n).flatMap (fun i => givesUp (i + 1)) ++ launches (n + 1) ++ [.mark 0]
    ++ (List.replicate (min n Feed.defaultCapacity) [.takeError 0, .mark 0]).flatten

/-- Whether every step of a run is one of a queue that is served. -/
def isServed (tr : List (Transition Amount)) : Bool :=
  (tr.all fun e => decide (ThroughQueue transferSetup e.before e.action) &&
    e.before.isOrderly e.action) &&
  decide (tr.countP (fun e => e.action = .startBookkeeper) ≤ 1)

theorem served_of_isServed {tr : List (Transition Amount)} (h : isServed tr = true) :
    Served transferSetup tr := by
  simp only [isServed, Bool.and_eq_true, List.all_eq_true, decide_eq_true_eq] at h
  obtain ⟨hsteps, hcount⟩ := h
  exact ⟨⟨fun _ _ hsame => hsame.value, fun e he => (hsteps e he).1, hcount⟩,
    fun e he => (hsteps e he).2⟩

/-- Three failures wait while the bookkeeper does, and the statuses are up to date in the end. -/
theorem upToDate_iff_crowdedRun :
    ∃ tr s, History transferSetup .start tr s ∧ tr.map (·.action) = crowdedRun 3 ∧
      Served transferSetup tr ∧ s.CaughtUp ∧ (∀ e ∈ tr, e.HasRoom) ∧
      s.UpToDate transferSetup tr := by
  have hrun : (start.trace? transferSetup (crowdedRun 3)).map (fun r =>
      (isServed r.1, decide r.2.CaughtUp, decide (∀ e ∈ r.1, e.HasRoom))) =
      some (true, true, true) := by decide +kernel
  obtain ⟨tr, s, h, has, hb⟩ := exists_history hrun
  simp only [Prod.mk.injEq, decide_eq_true_eq] at hb
  obtain ⟨hsteps, hidle, hroom⟩ := hb
  have hserved := served_of_isServed hsteps
  exact ⟨tr, s, h, has, hserved, hidle, hroom, (h.upToDate_iff hserved hidle).mpr hroom⟩

/-- **A lost failure**: sixty-five failures wait while the bookkeeper does, which is one more than
the feed keeps. The delivery of the transfer of amount 1 was given up, the bookkeeper has caught up,
and the transfer is still shown to be pending. -/
theorem not_upToDate_crowdedRun :
    ∃ tr s x event, History transferSetup .start tr s ∧ tr.map (·.action) = crowdedRun 65 ∧
      Served transferSetup tr ∧ s.CaughtUp ∧ s.Latest transferSetup 1 1 x ∧
      .failed event ∈ outcomesOf 1 tr ∧ s.shownStatus 1 = .pending := by
  have hrun : (start.trace? transferSetup (crowdedRun 65)).map (fun r =>
      (isServed r.1, decide r.2.CaughtUp, outcomesOf 1 r.1, r.2.shownStatus 1,
        r.2.deliveries.map fun x => x.current.tx.value)) =
      some (true, true, [.failed ⟨signedNumber 1, .overPriceLimit 5 6⟩], .pending,
        (List.range 67).map (BitVec.ofNat 256)) := by decide +kernel
  obtain ⟨tr, s, h, has, hb⟩ := exists_history hrun
  simp only [Prod.mk.injEq, decide_eq_true_eq] at hb
  obtain ⟨hsteps, hidle, houtcomes, hshown, hkeys⟩ := hb
  have hlength : s.deliveries.length = 67 := by
    rw [← List.length_map (fun x : Delivery => x.current.tx.value), hkeys, List.length_map,
      List.length_range]
  have hkey {d : DeliveryId} {x : Delivery} (hx : s.deliveries[d]? = some x) :
      transferSetup.keyOf x.current.tx = BitVec.ofNat 256 d := by
    have hget := congrArg (·[d]?) hkeys
    have hlt : d < 67 := hlength ▸ (List.getElem?_eq_some_iff.mp hx).1
    simpa [hx, List.getElem?_range hlt, transferSetup] using hget
  obtain ⟨x, hx⟩ : ∃ x, s.deliveries[1]? = some x :=
    ⟨_, List.getElem?_eq_getElem (by omega)⟩
  refine ⟨tr, s, x, _, h, has, served_of_isServed hsteps, hidle, ⟨hx, hkey hx, ?_⟩,
    houtcomes ▸ List.mem_singleton_self _, hshown⟩
  intro d x' hd hx' hsame
  have hlt : d < 67 := hlength ▸ (List.getElem?_eq_some_iff.mp hx').1
  rw [hkey hx'] at hsame
  have hnat := congrArg BitVec.toNat hsame
  rw [BitVec.toNat_ofNat, Nat.mod_eq_of_lt (Nat.lt_trans hlt (by decide))] at hnat
  exact Nat.ne_of_gt hd hnat

end Service

end TxDelivery
