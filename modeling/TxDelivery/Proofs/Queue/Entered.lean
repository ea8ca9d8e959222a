import TxDelivery.Proofs.Delivery.Commission
import TxDelivery.Proofs.Queue.Send
import TxDelivery.Proofs.Queue.Table

/-!
# The key of an event

A send marks the key of the caller's transaction as pending, a bookkeeper marks the key of the
transaction it finds in an event. The two transactions differ. **They have the same key exactly if
the signer's account and chain make no difference to the key of the caller's transaction**
(`TxDelivery.Service.History.entered_keys`), whatever the key is read off besides; only gas price,
gas limit and nonce it must not depend on (`TxDelivery.Setup.IgnoresPricing`). A key that is read
off the sender of a transaction shows that this is no mere formality
(`TxDelivery.Service.not_entered_repricedRun`).

What a bookkeeper marks is found in the last event it took (`TxDelivery.Service.taken`), and what it
takes was published before.

## The way of a key

It leads from a caller to the status table and, if the broadcast is accepted, through a delivery and
a feed back to the table. Three invariants make the connection.

* When the broadcast of a send is accepted the key of the caller's transaction is pending, and
  nothing else was done to the statuses since the send took the lock
  (`TxDelivery.Service.History.marked_of_launches`). This is part of the story of the send.
* What is on a feed was published for a delivery (`TxDelivery.Service.History.published_of_keeps`).
  A feed can only lose what it keeps; so it is enough to look at the step that publishes.
* What a bookkeeper is about to mark is the outcome it took last
  (`TxDelivery.Service.History.taken_of_marking`). Between taking and marking it waits for the lock,
  and the outcome it has in mind is not kept by it. It keeps the key and the status, which are to be
  traced back.

In between there is the delivery. The transaction of its outcome is one of its variants, and these
agree with each other in all but price, gas limit and nonce. The first of them is what was signed
for the caller, and here account and chain come in.
-/

namespace TxDelivery

variable {κ : Type}

/-- **Keys do not depend on gas price, gas limit and nonce**, which change as a transaction is
delivered. -/
def Setup.IgnoresPricing (setup : Setup κ) : Prop :=
  ∀ tx tx' : Transaction, tx.Agrees tx' → setup.keyOf tx = setup.keyOf tx'

/-- The status of a key once an outcome is entered for it. -/
def Outcome.status : Outcome → TxStatus
  | .confirmed _ => .finished
  | .failed _ => .error

namespace Service

/-- A feed keeps an outcome. -/
def Keeps (s : Service κ) : Outcome → Prop
  | .confirmed event => event ∈ s.confirms.retained
  | .failed event => event ∈ s.errors.retained

/-- The outcome a bookkeeper takes from its feed in a step, if it takes one. -/
def Transition.taken? (b : BookkeeperId) (e : Transition κ) : Option Outcome :=
  match e.action with
  | .takeConfirm b' =>
    if b' = b then e.before.bookkeepers[b]?.bind fun k =>
      (e.before.confirms.receive k.confirms).1.map .confirmed else none
  | .takeError b' =>
    if b' = b then e.before.bookkeepers[b]?.bind fun k =>
      (e.before.errors.receive k.errors).1.map .failed else none
  | _ => none

/-- **The outcomes a bookkeeper took** in a run, in order. -/
def taken (b : BookkeeperId) (tr : List (Transition κ)) : List Outcome :=
  tr.filterMap (Transition.taken? b)

variable {setup : Setup κ} {s t : Service κ} {tr pre post : List (Transition κ)} {e : Transition κ}
  {a : Action κ} {seen : List Observation} {i : OperationId} {d : DeliveryId} {b : BookkeeperId}
  {k : Bookkeeper κ} {key : κ} {status : TxStatus} {outcome : Outcome} {account : Address}
  {chain : UInt64} {tx : Transaction} {options : DeliveryOptions}

theorem taken_concat : taken b (tr ++ [e]) = taken b tr ++ (e.taken? b).toList := by
  cases h : e.taken? b <;> simp [taken, h]

/-! ### What is on the feeds -/

/-- A feed keeps nothing new but what is published. -/
theorem mem_retained_publish {α : Type} {f : Feed α} {event event' : α}
    (h : event ∈ (f.publish event').retained) : event ∈ f.retained ∨ event = event' := by
  unfold Feed.publish at h
  split at h
  · exact .inl h
  · simpa using List.mem_of_mem_drop h

/-- What a subscriber takes is on the feed. -/
theorem mem_retained_of_receive {α : Type} {f g : Feed α} {id : SubscriptionId} {event : α}
    (h : f.receive id = (some event, g)) : event ∈ f.retained := by
  unfold Feed.receive at h
  split at h
  · simp at h
  · dsimp only at h
    split at h
    case h_1 hget =>
      obtain ⟨rfl, -⟩ : _ = event ∧ _ = g := by simpa using h
      exact List.mem_of_getElem? hget
    case h_2 => simp at h

/-- **What is taken is on its feed.** -/
theorem Transition.keeps_of_taken? (h : e.taken? b = some outcome) : e.before.Keeps outcome := by
  unfold taken? at h
  split at h
  case h_3 => contradiction
  all_goals
    obtain ⟨-, h⟩ := Option.ite_none_right_eq_some.mp h
    obtain ⟨k, -, h⟩ := Option.bind_eq_some_iff.mp h
    obtain ⟨event, hevent, rfl⟩ := Option.map_eq_some_iff.mp h
    exact mem_retained_of_receive (Prod.ext hevent rfl)

variable [DecidableEq κ]

/-- **What is on a feed was there before, or is published by the step.** -/
theorem keeps_of_step? (h : s.step? setup a = some (t, seen)) (hkeeps : t.Keeps outcome) :
    s.Keeps outcome ∨ ∃ d, .published d outcome ∈ seen := by
  rcases feeds_of_step? h with ⟨outcome', hseen, hconfirms, herrors⟩ | ⟨-, hconfirms, herrors⟩
  · have hpublished : ∃ d, .published d outcome' ∈ seen := by
      obtain ⟨o, ho, hout⟩ := List.mem_filterMap.mp (hseen ▸ List.mem_singleton_self outcome')
      cases o with
      | published d outcome =>
        obtain rfl := Option.some.inj hout
        exact ⟨d, ho⟩
      | _ => contradiction
    cases outcome <;> cases outcome' <;>
      simp only [Keeps, hconfirms, herrors, publish] at hkeeps ⊢
    case confirmed.confirmed | failed.failed =>
      rcases mem_retained_publish hkeeps with hold | rfl
      · exact .inl hold
      · exact .inr hpublished
    all_goals exact .inl hkeeps
  · refine .inl ?_
    cases outcome with
    | confirmed event =>
      rw [Keeps, ← hconfirms.2]
      exact hkeeps
    | failed event =>
      rw [Keeps, ← herrors.2]
      exact hkeeps

/-- **What is on a feed was published** for some delivery. -/
theorem History.published_of_keeps (h : History setup .start tr s) (hkeeps : s.Keeps outcome) :
    ∃ d, outcome ∈ outcomesOf d tr := by
  induction h with
  | nil => cases outcome <;> simp [Keeps, start, Feed.empty] at hkeeps
  | @snoc tr t u a seen h hstep ih =>
    rcases keeps_of_step? hstep hkeeps with hold | ⟨d, hpublished⟩
    · obtain ⟨d, ho⟩ := ih hold
      exact ⟨d, by rw [outcomesOf_append]; exact List.mem_append_left _ ho⟩
    · exact ⟨d, mem_outcomesOf (List.mem_append_right _ (List.mem_singleton_self _)) hpublished⟩

/-! ### What bookkeepers mark -/

/-- **Whoever is about to mark a key** was so before, or has just taken an outcome with this key. -/
theorem taken?_of_step? (h : s.step? setup a = some (t, seen)) (hk : t.bookkeepers[b]? = some k)
    (hs : k.stage = .marking key status) :
    ((⟨s, a, seen, t⟩ : Transition κ).taken? b = none ∧
      ∃ k', s.bookkeepers[b]? = some k' ∧ k'.stage = .marking key status) ∨
    ∃ outcome, (⟨s, a, seen, t⟩ : Transition κ).taken? b = some outcome ∧
      key = setup.keyOf outcome.tx.tx ∧ status = outcome.status := by
  -- A step that puts one bookkeeper into a stage, seen from another one.
  have hother {b' : BookkeeperId} {k' : Bookkeeper κ} (hb : b' ≠ b)
      (ht : t.bookkeepers = s.bookkeepers.set b' k') : s.bookkeepers[b]? = some k := by
    rw [← hk, ht, List.getElem?_set_ne hb]
  have hself {k' : Bookkeeper κ} (hlt : b < s.bookkeepers.length)
      (ht : t.bookkeepers = s.bookkeepers.set b k') : k' = k := by
    rw [ht, List.getElem?_set_self hlt] at hk
    exact Option.some.inj hk
  cases step_of_step? h with
  | operation h =>
    rw [(feeds_of_operationStep h).2.2] at hk
    refine .inl ⟨?_, k, hk, hs⟩
    cases h with
    | refuse _ _ href | refuseQueued _ _ href => cases href <;> rfl
    | _ => rfl
  | delivery h =>
    cases h with
    | conclude _ hends => cases hends <;> exact .inl ⟨rfl, k, hk, hs⟩
    | proceed _ hproceeds => cases hproceeds <;> exact .inl ⟨rfl, k, hk, hs⟩
  | outside h => cases h <;> exact .inl ⟨rfl, k, hk, hs⟩
  | bookkeeper h =>
    cases h with
    | start =>
      refine .inl ⟨rfl, k, ?_, hs⟩
      rw [getElem?_append_singleton] at hk
      split at hk
      · obtain rfl := Option.some.inj hk
        contradiction
      · exact hk
    | @mark b' k' _ _ hk' | @stop b' k' hk' =>
      by_cases hb : b' = b
      · subst hb
        obtain rfl := hself (List.getElem?_eq_some_iff.mp hk').1 rfl
        contradiction
      · exact .inl ⟨rfl, k, hother hb rfl, hs⟩
    | @takeConfirm b' k' event feed _ hk' _ hreceive =>
      by_cases hb : b' = b
      · subst hb
        obtain rfl := hself (List.getElem?_eq_some_iff.mp hk').1 rfl
        obtain ⟨rfl, rfl⟩ := Bookkeeper.Stage.marking.inj hs
        refine .inr ⟨.confirmed event, ?_, rfl, rfl⟩
        simp [Transition.taken?, hk', hreceive]
      · exact .inl ⟨if_neg hb, k, hother hb rfl, hs⟩
    | @takeError b' k' event feed _ hk' _ hreceive =>
      by_cases hb : b' = b
      · subst hb
        obtain rfl := hself (List.getElem?_eq_some_iff.mp hk').1 rfl
        obtain ⟨rfl, rfl⟩ := Bookkeeper.Stage.marking.inj hs
        refine .inr ⟨.failed event, ?_, rfl, rfl⟩
        simp [Transition.taken?, hk', hreceive]
      · exact .inl ⟨if_neg hb, k, hother hb rfl, hs⟩

/-- **A bookkeeper is about to mark what it took last**, and that was published before. -/
theorem History.taken_of_marking (h : History setup .start tr s) (hk : s.bookkeepers[b]? = some k)
    (hs : k.stage = .marking key status) :
    ∃ d outcome, outcome ∈ outcomesOf d tr ∧ (taken b tr).getLast? = some outcome ∧
      key = setup.keyOf outcome.tx.tx ∧ status = outcome.status := by
  induction h generalizing k with
  | nil => simp [start] at hk
  | @snoc tr t u a seen h hstep ih =>
    have hlater {d : DeliveryId} {outcome : Outcome} (ho : outcome ∈ outcomesOf d tr) :
        outcome ∈ outcomesOf d (tr ++ [⟨t, a, seen, u⟩]) := by
      rw [outcomesOf_append]
      exact List.mem_append_left _ ho
    rcases taken?_of_step? hstep hk hs with ⟨hnone, k', hk', hs'⟩ | ⟨outcome, htaken, hkey, hstatus⟩
    · obtain ⟨d, outcome, ho, hlast, hkey, hstatus⟩ := ih hk' hs'
      refine ⟨d, outcome, hlater ho, ?_, hkey, hstatus⟩
      rw [taken_concat, hnone, Option.toList_none, List.append_nil, hlast]
    · obtain ⟨d, ho⟩ := h.published_of_keeps (Transition.keeps_of_taken? htaken)
      refine ⟨d, outcome, hlater ho, ?_, hkey, hstatus⟩
      rw [taken_concat, htaken, Option.toList_some, List.getLast?_concat]

/-- **To mark a key is to set its status and no other.** -/
theorem History.entered_of_mark (h : History setup .start (pre ++ e :: post) s)
    (ha : e.action = .mark b) :
    ∃ d outcome, outcome ∈ outcomesOf d pre ∧ (taken b pre).getLast? = some outcome ∧
      ∀ key, e.after.statuses.get key =
        if key = setup.keyOf outcome.tx.tx then outcome.status else e.before.statuses.get key := by
  obtain ⟨hpre, hstep, -⟩ := h.around
  obtain ⟨before, action, seen, after⟩ := e
  subst ha
  have hmark : BookkeeperStep setup before (.mark b) (after, seen) := bookkeeperStep_of_mark? hstep
  cases hmark with
  | mark hk hs =>
    obtain ⟨d, outcome, ho, hlast, rfl, rfl⟩ := hpre.taken_of_marking hk hs
    exact ⟨d, outcome, ho, hlast, fun key => StatusTable.get_set _ _ _ _⟩

/-! ### What sends mark -/

/-- **When the broadcast of a send is accepted the key of the caller's transaction is pending**, and
nothing else has happened to the statuses since the send took the lock. -/
theorem History.marked_of_launches (h : History setup .start (pre ++ e :: post) s)
    (hlaunch : e.Launches i d) (hr : s.request? i = some (.enqueue tx options)) :
    ∃ e' ∈ pre, e'.Takes i ∧ ∀ key, e.before.statuses.get key =
      if key = setup.keyOf tx then .pending else e'.before.statuses.get key := by
  obtain ⟨-, ⟨sub, signed, deadline, hst, -⟩, -⟩ := hlaunch
  have hr' : e.before.request? i = some (.enqueue tx options) := by
    obtain ⟨r, hr'⟩ := exists_request? hst
    rw [hr', ← h.request?_of_before hr', hr]
  have hother {st : Operation.Stage κ} (hst' : e.before.stage? i = some st) :
      st = .submitting sub := Option.some.inj (hst'.symm.trans hst)
  cases h.around.1.sendStory hr' with
  | waiting hst' => exact absurd (hother hst') (by simp)
  | done hst' hactive =>
    obtain rfl := hother hst'
    contradiction
  | @holding pre mid e' htr hheld =>
    subst htr
    refine ⟨e', List.mem_append_right _ List.mem_cons_self, hheld.takes, fun key => ?_⟩
    rw [hheld.statuses]
    exact StatusTable.get_set _ _ _ _

/-- **The keys of events.** Let keys not depend on gas price, gas limit and nonce, and let the
signer sign what it is given, filling in its own account and chain. Whatever happens in a run,

* when the broadcast of a send through the queue is accepted the key of the caller's transaction has
  been marked as pending, and no other;
* the transaction in every event of the delivery that starts then is the caller's, with the account
  and the chain of the signer, on all but gas price, gas limit and nonce; so that the event has the
  key that was marked exactly if account and chain of the signer make no difference to it;
* whenever a bookkeeper marks a key it is the key of the event it took last, which was published
  before; it gets the status of the event, and no other key changes. -/
theorem History.entered_keys (h : History setup .start tr s)
    (hsigns : ∀ e ∈ tr, SignsFor setup account chain e) (hkeyed : setup.IgnoresPricing) :
    (∀ pre e post i d tx options, tr = pre ++ e :: post → e.Launches i d →
      s.request? i = some (.enqueue tx options) →
      (∃ e' ∈ pre, e'.Takes i ∧ ∀ key, e.before.statuses.get key =
        if key = setup.keyOf tx then .pending else e'.before.statuses.get key) ∧
      ∀ outcome ∈ outcomesOf d tr,
        (tx.forSigner account chain).Agrees outcome.tx.tx ∧
        setup.keyOf outcome.tx.tx = setup.keyOf (tx.forSigner account chain) ∧
        (setup.keyOf outcome.tx.tx = setup.keyOf tx ↔
          setup.keyOf (tx.forSigner account chain) = setup.keyOf tx)) ∧
    ∀ pre e post b, tr = pre ++ e :: post → e.action = .mark b →
      ∃ d outcome, outcome ∈ outcomesOf d pre ∧ (taken b pre).getLast? = some outcome ∧
        ∀ key, e.after.statuses.get key =
          if key = setup.keyOf outcome.tx.tx then outcome.status
          else e.before.statuses.get key := by
  refine ⟨?_, fun pre e post b htr ha => (htr ▸ h).entered_of_mark ha⟩
  intro pre e post i d tx options htr hlaunch hr
  refine ⟨(htr ▸ h).marked_of_launches hlaunch hr, fun outcome ho => ?_⟩
  have he : e ∈ tr := htr ▸ List.mem_append_right _ List.mem_cons_self
  have htx : (s.request? i).bind Request.tx? = some tx := by rw [hr]; rfl
  have hagrees := h.agrees_of_outcome hsigns he hlaunch htx ho
  have hkey : setup.keyOf outcome.tx.tx = setup.keyOf (tx.forSigner account chain) :=
    (hkeyed _ _ hagrees).symm
  exact ⟨hagrees, hkey, by rw [hkey]⟩

/-! ### A transaction without its sender -/

/-- The sample service, with keys of its own. -/
def keyedBy (keyOf : Transaction → κ) : Setup κ := ⟨{}, 7, keyOf⟩

/-- A run in which a caller leaves the sender open, the transaction is replaced at the first tick,
the replacement is confirmed, and the bookkeeper marks its key. -/
def repricedRun : List (Action κ) :=
  [.startBookkeeper, .begin (.enqueue sampleTx {}), .resume 0, .resume 0,
    .reply (.operation 0) (.nonce 4), .reply (.operation 0) (.signed (sampleSigned 4)),
    .reply (.operation 0) (.accepted 4), .receive 0, .wait 10000, .poll 0,
    .reply (.listener 0) (.receipt none), .wait 10000, .poll 0,
    .reply (.listener 0) (.receipt none), .wait 5000, .tick 0, .reply (.supervisor 0) (.price 20),
    .reply (.supervisor 0) (.signed sampleReplacement), .reply (.supervisor 0) (.accepted 20),
    .receive 0, .wait 5000, .poll 0, .reply (.listener 0) (.receipt none),
    .reply (.listener 0) (.receipt (some ⟨20, 10, true⟩)), .reply (.listener 0) (.head 13),
    .join 0, .takeConfirm 0, .mark 0]

/-- With keys that are read off the amount, the key that was pending is finished in the end. -/
theorem entered_keys_repricedRun :
    ∃ (pre post : List (Transition Amount)) (e : Transition Amount) (s : Service Amount),
      History (keyedBy (·.value)) .start (pre ++ e :: post) s ∧
      (pre ++ e :: post).map (·.action) = repricedRun ∧
      (∀ e' ∈ pre ++ e :: post, SignsFor (keyedBy (·.value)) 7 0 e') ∧
      (keyedBy (·.value)).IgnoresPricing ∧ e.Launches 0 0 ∧
      s.request? 0 = some (.enqueue sampleTx {}) ∧
      .confirmed ⟨sampleReplacement, ""⟩ ∈ outcomesOf 0 (pre ++ e :: post) ∧
      (sampleTx.forSigner 7 0).Agrees sampleReplacement.tx ∧
      sampleReplacement.tx.value = sampleTx.value ∧ s.statuses.get sampleTx.value = .finished := by
  have hrun : (start.trace? (keyedBy (·.value)) repricedRun).bind (fun r => r.1[6]?.map fun e =>
      (r.1.all fun e' => decide (SignsFor (keyedBy (·.value)) 7 0 e'),
        startsFirst (keyedBy (·.value)) e, decide (r.2.request? 0 = some (.enqueue sampleTx {})),
        outcomesOf 0 r.1, r.2.statuses.get sampleTx.value)) =
      some (true, true, true, [.confirmed ⟨sampleReplacement, ""⟩], .finished) := by decide
  obtain ⟨pre, e, post, s, h, has, hb⟩ := exists_history_at hrun
  simp only [Prod.mk.injEq, List.all_eq_true, decide_eq_true_eq] at hb
  obtain ⟨hsigns, hfirst, hr, houtcomes, hstatus⟩ := hb
  have hkeyed : (keyedBy (·.value)).IgnoresPricing := fun tx tx' h => by
    rw [h]
    rfl
  have hlaunch := launches_of_startsFirst hfirst
  have hmem : .confirmed ⟨sampleReplacement, ""⟩ ∈ outcomesOf 0 (pre ++ e :: post) :=
    houtcomes ▸ List.mem_singleton_self _
  obtain ⟨-, hevents⟩ := (h.entered_keys hsigns hkeyed).1 pre e post 0 0 sampleTx {} rfl hlaunch hr
  obtain ⟨hagrees, -, hsame⟩ := hevents _ hmem
  exact ⟨pre, post, e, s, h, has, hsigns, hkeyed, hlaunch, hr, hmem, hagrees, hsame.mpr rfl,
    hstatus⟩

/-- **With keys that are read off the sender the run goes wrong**: the signer fills in the sender,
the key of the event is another one than the key that was marked, and the key that was marked stays
pending while the other is finished. -/
theorem not_entered_repricedRun :
    ∃ (pre post : List (Transition Address)) (e : Transition Address) (s : Service Address),
      History (keyedBy (·.sender)) .start (pre ++ e :: post) s ∧
      (pre ++ e :: post).map (·.action) = repricedRun ∧
      (∀ e' ∈ pre ++ e :: post, SignsFor (keyedBy (·.sender)) 7 0 e') ∧
      (keyedBy (·.sender)).IgnoresPricing ∧ e.Launches 0 0 ∧
      s.request? 0 = some (.enqueue sampleTx {}) ∧
      .confirmed ⟨sampleReplacement, ""⟩ ∈ outcomesOf 0 (pre ++ e :: post) ∧
      ¬ sampleTx.Agrees sampleReplacement.tx ∧
      sampleReplacement.tx.sender ≠ sampleTx.sender ∧
      s.statuses.get sampleTx.sender = .pending ∧
      s.statuses.get sampleReplacement.tx.sender = .finished := by
  have hrun : (start.trace? (keyedBy (·.sender)) repricedRun).bind (fun r => r.1[6]?.map fun e =>
      (r.1.all fun e' => decide (SignsFor (keyedBy (·.sender)) 7 0 e'),
        startsFirst (keyedBy (·.sender)) e, decide (r.2.request? 0 = some (.enqueue sampleTx {})),
        outcomesOf 0 r.1,
        [sampleTx, sampleReplacement.tx].map fun tx => r.2.statuses.get tx.sender)) =
      some (true, true, true, [.confirmed ⟨sampleReplacement, ""⟩], [.pending, .finished]) := by
    decide
  obtain ⟨pre, e, post, s, h, has, hb⟩ := exists_history_at hrun
  simp only [Prod.mk.injEq, List.all_eq_true, decide_eq_true_eq] at hb
  obtain ⟨hsigns, hfirst, hr, houtcomes, hstatuses⟩ := hb
  obtain ⟨hpending, hfinished⟩ : _ = TxStatus.pending ∧ _ = TxStatus.finished := by
    simpa using hstatuses
  have hkeyed : (keyedBy (·.sender)).IgnoresPricing := fun tx tx' h => by
    rw [h]
    rfl
  exact ⟨pre, post, e, s, h, has, hsigns, hkeyed, launches_of_startsFirst hfirst, hr,
    houtcomes ▸ List.mem_singleton_self _, by decide, by decide, hpending, hfinished⟩

end Service

end TxDelivery
