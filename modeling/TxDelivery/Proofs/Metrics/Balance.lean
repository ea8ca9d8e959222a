import TxDelivery.Binary64
import TxDelivery.Proofs.Metrics.Posted

/-!
# The metrics balance

**The metrics of a service agree with what happened** at every moment of every run
(`TxDelivery.Service.History.metrics_balance`): with what the node accepted, with the outcomes that
were published, with the deliveries that are under way or were dropped, with the resets of the nonce
and with the sends through the queue.

The balance of the accounts has nearly all of this. What is on one side of it are counters; on the
other are lengths of lists read off the run, and numbers of operations and deliveries that have come
to a certain point. Two things are added here, which say of such a number what it means for the run.

* Every reply by which the node accepts something accepts what was broadcast
  (`TxDelivery.Service.exists_admitted`). So the transactions accepted are all that the node
  answered as accepted, and none was answered without having been asked.
* The sends that are counted as having reset the nonce are those whose first broadcast was refused
  for its nonce (`TxDelivery.Service.History.stale_iff`). A caller can drop such a send before it
  has come to its reset, and then there is none; so the statement is about operations that were not
  dropped, at any moment, and covers those that still wait for the lock.

The second is an induction on the run for one operation. In a step its broadcast is refused for its
nonce, and then it waits to reset it; or it is not, and whether it is one of those sends stays as it
was (`TxDelivery.Service.StaleMove`). Being dropped is final, which is why the induction can be
about operations that are not dropped at the end.

The gauge is shown as a double, and is the price rounded to one.
-/

namespace TxDelivery

variable {κ : Type}

/-- Whether the first broadcast of an operation was refused for its nonce, as far as can be told
from its stage: the nonce is about to be reset, or was. -/
def Operation.isStale (o : Operation κ) : Bool :=
  match o.stage with
  | .submitting ⟨_, _, _, .resetting _⟩ => true
  | _ => o.isOutrun

/-- The gauge as it is shown to operators, a double. -/
def Metrics.gauge (m : Metrics) : Option UInt64 := m.gasPrice.map fun p => Binary64.ofNat p.toNat

namespace Service

open Operation

/-- **The node refuses the first broadcast of an operation for its nonce.** -/
def Outruns (setup : Setup κ) (s : Service κ) (i : OperationId) (a : Action κ) : Prop :=
  ∃ error, a = .reply (.operation i) (.failed error) ∧ error.isNonceTooLow = true ∧
    ∃ signed, s.broadcasting? setup (.operation i) = some signed

/-- Whether the first broadcast of an operation was refused for its nonce. -/
def stale (s : Service κ) (i : OperationId) : Bool := s.operations[i]?.any isStale

variable {setup : Setup κ} {s t : Service κ} {tr : List (Transition κ)} {a : Action κ}
  {seen : List Observation} {i j : OperationId} {r : Request κ} {st st' : Operation.Stage κ}

/-! ### Nonces that were too low -/

theorem stale_eq (hst : s.stage? i = some st) (hr : s.request? i = some r) :
    s.stale i = isStale ⟨r, st⟩ := by
  obtain ⟨⟨r, st⟩, ho, rfl⟩ := Option.map_eq_some_iff.mp hst
  obtain rfl : r = _ := by simpa [request?, ho] using hr
  simp [stale, ho]

theorem isStale_submitting {sub : Submission κ} :
    isStale ⟨r, .submitting sub⟩ = true ↔ ∃ e, sub.stage = .resetting e := by
  obtain ⟨origin, tx, options, stage⟩ := sub
  cases stage <;> simp [isStale, isOutrun]

theorem not_stale_of_ne {sub : Submission κ} (h : ∀ e, sub.stage ≠ .resetting e) :
    isStale ⟨r, .submitting sub⟩ = false :=
  Bool.eq_false_iff.mpr fun hstale => by
    obtain ⟨e, he⟩ := isStale_submitting.mp hstale
    exact h e he

/-- A step that is no failure of a call refuses nothing. -/
theorem not_outruns_of_ne (ha : ∀ i error, a ≠ .reply (.operation i) (.failed error))
    (j : OperationId) : ¬ s.Outruns setup j a :=
  fun ⟨error, heq, _⟩ => ha j error heq

/-- Only a submission that is broadcast is refused for its nonce. -/
theorem not_outruns_reply (hst : s.stage? i = some st) (hs : ∀ sub signed deadline,
    st = .submitting sub → sub.stage ≠ .broadcasting signed deadline) (reply : Reply)
    (j : OperationId) : ¬ s.Outruns setup j (.reply (.operation i) reply) := by
  rintro ⟨error, ha, -, signed, hsigned⟩
  obtain rfl : i = j := by simpa using (Action.reply.inj ha).1
  obtain ⟨sub, deadline, hsub, hstage⟩ := broadcasting?_operation_eq_some_iff.mp hsigned
  exact hs sub signed deadline (Option.some.inj (hst.symm.trans hsub)) hstage

/-- **A step seen from an operation that was not dropped**: its broadcast was refused for its nonce
in this step or before. -/
def StaleMove (setup : Setup κ) (s : Service κ) (a : Action κ) (t : Service κ) (j : OperationId) :
    Prop :=
  t.stage? j ≠ some .dropped →
    s.stage? j ≠ some .dropped ∧ (t.stale j = true ↔ s.stale j = true ∨ s.Outruns setup j a)

/-- A step that leaves an operation alone. -/
theorem staleMove_of_still (ht : t.operations[j]? = s.operations[j]?)
    (ha : ¬ s.Outruns setup j a) : StaleMove setup s a t j := by
  intro hdropped
  rw [stage?, ht, ← stage?] at hdropped
  refine ⟨hdropped, ?_⟩
  rw [stale, stale, ht]
  exact ⟨.inl, fun h => h.resolve_right ha⟩

/-- A step in which an operation begins. -/
theorem staleMove_of_append (ht : t.operations = s.operations ++ [⟨r, st⟩])
    (hnew : isStale ⟨r, st⟩ = false) : StaleMove setup s (.begin r) t j := by
  have hbegins : ¬ s.Outruns setup j (.begin r) := fun ⟨error, ha, _⟩ => by simp at ha
  by_cases hj : j = s.operations.length
  · subst hj
    refine fun _ => ⟨by simp [stage?_length], ?_⟩
    simp [stale, ht, hnew, hbegins]
  · refine staleMove_of_still ?_ hbegins
    rw [ht, getElem?_append_singleton, if_neg hj]

/-- A step in which an operation goes on. -/
theorem staleMove_of_put (hst : s.stage? i = some st) (hr : s.request? i = some r)
    (hnot : st ≠ .dropped) (ht : t.operations = put s.operations i st')
    (ha : ∀ j, i ≠ j → ¬ s.Outruns setup j a)
    (hself : isStale ⟨r, st'⟩ = true ↔ isStale ⟨r, st⟩ = true ∨ s.Outruns setup i a) :
    StaleMove setup s a t j := by
  by_cases hij : i = j
  · subst hij
    intro _
    rw [stale_eq hst hr, stale_eq (stage?_put_self ht hst) ((request?_of_put ht i).trans hr)]
    exact ⟨fun hdropped => hnot (Option.some.inj (hst.symm.trans hdropped)), hself⟩
  · refine staleMove_of_still ?_ (ha j hij)
    rw [ht, put, List.getElem?_modify]
    simp [hij]

/-- A step in which an operation goes on that has nothing to do with nonces that were too low. -/
theorem staleMove_of_other (hst : s.stage? i = some st) (hnot : st ≠ .dropped)
    (ht : t.operations = put s.operations i st') (ha : ∀ j, ¬ s.Outruns setup j a)
    (hold : ∀ r, isStale ⟨r, st⟩ = false)
    (hnew : ∀ r, s.request? i = some r → isStale ⟨r, st'⟩ = false) : StaleMove setup s a t j := by
  obtain ⟨r, hr⟩ := exists_request? hst
  refine staleMove_of_put hst hr hnot ht (fun j _ => ha j) ?_
  simp [hold r, hnew r hr, ha i]

/-- A step in which an operation is dropped. -/
theorem staleMove_of_drop (hst : s.stage? i = some st)
    (ht : t.operations = put s.operations i .dropped) : StaleMove setup s (.drop i) t j := by
  by_cases hij : i = j
  · subst hij
    exact fun hdropped => absurd (stage?_put_self ht hst) hdropped
  · refine staleMove_of_still ?_ (not_outruns_of_ne (by simp) j)
    rw [ht, put, List.getElem?_modify]
    simp [hij]

/-- A step in which a submission is refused. -/
theorem staleMove_of_refusal {sub : Submission κ} {e : DeliveryError} {n : NonceState}
    {lock : FairLock OperationId} {m : Metrics} (hst : s.stage? i = some (.submitting sub))
    (hsuits : s.Suited) (href : Submission.Refusal s i sub a e n lock m seen)
    (ht : t.operations = put s.operations i (.ended (.failed e))) : StaleMove setup s a t j := by
  cases href with
  | price hs | gas hs | nonce hs | sign hs =>
    refine staleMove_of_other hst (by simp) ht (not_outruns_reply hst ?_ _)
      (fun _ => not_stale_of_ne (by simp [hs])) fun _ _ => rfl
    rintro _ signed deadline ⟨rfl⟩
    simp [hs]
  | broadcast hs hfine =>
    refine staleMove_of_other hst (by simp) ht ?_ (fun _ => not_stale_of_ne (by simp [hs])) ?_
    · rintro j ⟨error, ha, hlow, -⟩
      obtain ⟨-, rfl⟩ : _ ∧ _ = error := by simpa using ha
      rw [hfine] at hlow
      contradiction
    · intro r _
      rw [isStale, isOutrun_broadcast, hfine, Bool.and_false]
  | @forgotten e hs =>
    obtain ⟨r, hr⟩ := exists_request? hst
    cases hsuits hr hst with
    | submitting hmakes hlow =>
      have hbroadcasts := (kinds_of_makes hmakes (.failed (.broadcast e))).1
      refine staleMove_of_put hst hr (by simp) ht (fun j _ => not_outruns_of_ne (by simp) j) ?_
      have hbefore : isStale ⟨r, .submitting sub⟩ = true := isStale_submitting.mpr ⟨_, hs⟩
      have hafter := isOutrun_broadcast r e
      rw [hbroadcasts, hlow _ hs] at hafter
      exact iff_of_true hafter (.inl hbefore)

variable [DecidableEq κ]

theorem staleMove_of_operationStep (hsuits : s.Suited) (h : OperationStep setup s a (t, seen)) :
    StaleMove setup s a t j := by
  cases h with
  | submit _ _ hopen => exact staleMove_of_append rfl (not_stale_of_ne hopen.ne_resetting)
  | enter | estimate | replace | forget => exact staleMove_of_append rfl rfl
  | duplicate hst | mark hst | read hst | forgotten hst =>
    exact staleMove_of_other hst (by simp) rfl (not_outruns_of_ne (by simp)) (fun _ => rfl)
      fun _ _ => rfl
  | enqueue hst _ _ _ _ _ hopen =>
    exact staleMove_of_other hst (by simp) rfl (not_outruns_of_ne (by simp)) (fun _ => rfl)
      fun _ _ => not_stale_of_ne hopen.ne_resetting
  | fetch hst hs | sign hst hs | gas hst hs | nonce hst hs | signed hst hs =>
    exact staleMove_of_other hst (by simp) rfl (not_outruns_of_ne (by simp))
      (fun _ => not_stale_of_ne (by simp [hs])) fun _ _ => not_stale_of_ne (by simp)
  | price hst hs _ _ hopen =>
    exact staleMove_of_other hst (by simp) rfl (not_outruns_of_ne (by simp))
      (fun _ => not_stale_of_ne (by simp [hs])) fun _ _ => not_stale_of_ne hopen.ne_resetting
  | @tooLow i sub signed deadline e hst hs hlow =>
    obtain ⟨r, hr⟩ := exists_request? hst
    refine staleMove_of_put hst hr (by simp) rfl ?_ ?_
    · rintro j hij ⟨error, ha, -⟩
      exact hij (by simpa using (Action.reply.inj ha).1)
    · have hrefused : s.Outruns setup i (.reply (.operation i) (.failed e)) :=
        ⟨e, rfl, hlow, signed, broadcasting?_operation_eq_some_iff.mpr ⟨sub, deadline, hst, hs⟩⟩
      exact iff_of_true (isStale_submitting.mpr ⟨e, rfl⟩) (.inr hrefused)
  | refuse hst _ href | refuseQueued hst _ href => exact staleMove_of_refusal hst hsuits href rfl
  | launchDetached hst hs | launchQueued hst hs | launchAttached hst hs =>
    exact staleMove_of_other hst (by simp) rfl (not_outruns_of_ne (by simp))
      (fun _ => not_stale_of_ne (by simp [hs])) fun _ _ => rfl
  | @answer i st reply answer log hst hs =>
    refine staleMove_of_other hst ?_ rfl (not_outruns_reply hst ?_ _) ?_ fun r hr => ?_
    · rcases hs with rfl | ⟨e, rfl⟩ <;> simp
    · rcases hs with rfl | ⟨e, rfl⟩ <;> simp
    · rcases hs with rfl | ⟨e, rfl⟩ <;> exact fun _ => rfl
    · exact (kinds_of_other (hsuits hr hst) hs answer).2.1
  | escalate hst =>
    exact staleMove_of_other hst (by simp) rfl (not_outruns_reply hst (by simp) _) (fun _ => rfl)
      fun _ _ => rfl
  | drop hst | dropWaiting hst => exact staleMove_of_drop hst rfl

/-- **Every step, seen from an operation that was not dropped.** -/
theorem staleMove_of_step? (hsuits : s.Suited) (howned : s.Owned)
    (h : s.step? setup a = some (t, seen)) : StaleMove setup s a t j := by
  cases step_of_step? h with
  | operation h => exact staleMove_of_operationStep hsuits h
  | delivery h =>
    cases h with
    | proceed _ hproceeds =>
      refine staleMove_of_still rfl (not_outruns_of_ne ?_ j)
      cases hproceeds <;> simp
    | @conclude d x _ outcome hx hends =>
      have ha : ∀ i error, a ≠ .reply (.operation i) (.failed error) := by
        cases hends <;> simp
      rcases handOver_eq s.operations x.owner outcome with ⟨-, hops⟩ | ⟨i, howner, hops⟩
      · rw [hops]
        exact staleMove_of_still rfl (not_outruns_of_ne ha j)
      · have hst := howned.owner_of_isOpen hx hends.isOpen i howner
        exact staleMove_of_other hst (by simp) hops (not_outruns_of_ne ha) (fun _ => rfl)
          fun _ _ => rfl
  | bookkeeper h => cases h <;> exact staleMove_of_still rfl (not_outruns_of_ne (by simp) j)
  | outside h => cases h <;> exact staleMove_of_still rfl (not_outruns_of_ne (by simp) j)

/-- **An operation that was not dropped is stale exactly if its first broadcast was refused for its
nonce.** -/
theorem History.stale_iff (h : History setup .start tr s) (hi : s.stage? i ≠ some .dropped) :
    s.stale i = true ↔ ∃ e ∈ tr, e.before.Outruns setup i e.action := by
  induction h with
  | nil => simp [stale, Service.start]
  | @snoc tr t u a seen h hstep ih =>
    obtain ⟨hbefore, hmove⟩ := staleMove_of_step? h.suits h.owned hstep (j := i) hi
    rw [hmove, ih hbefore]
    simp [or_and_right, exists_or]

/-! ### What is accepted -/

/-- **Only what is broadcast is accepted.** -/
theorem exists_admitted {who : Party} {hash : Hash} {m : Move κ}
    (h : s.step? setup (.reply who (.accepted hash)) = some m) :
    ∃ signed, s.broadcasting? setup who = some signed := by
  have hescalation (e : Escalation) (percent : UInt64) :
      e.advance? percent (.accepted hash) = none := by
    cases hs : e.stage <;> simp [Escalation.advance?, hs]
  have hlistener (l : Listener) (depth : UInt64) : l.advance? depth (.accepted hash) = none := by
    cases hs : l.stage <;> simp [Listener.advance?, hs]
  cases who with
  | operation i =>
    obtain ⟨o, ho, h⟩ := Option.bind_eq_some_iff.mp h
    have hst : s.stage? i = some o.stage := by simp [stage?, ho]
    cases hos : o.stage with
    | submitting sub =>
      cases hs : sub.stage with
      | broadcasting signed deadline =>
        exact ⟨signed, broadcasting?_operation_eq_some_iff.mpr ⟨sub, deadline, hos ▸ hst, hs⟩⟩
      | _ => simp [hos, replySubmission, hs] at h
    | replacing e => simp [hos, hescalation] at h
    | _ => simp [hos] at h
  | supervisor d =>
    obtain ⟨x, hx, h⟩ := Option.bind_eq_some_iff.mp h
    cases hs : x.stage with
    | rebroadcasting replacement =>
      exact ⟨replacement, broadcasting?_supervisor_eq_some_iff.mpr ⟨x, hx, hs⟩⟩
    | replacing e => simp [hs, hescalation] at h
    | _ => simp [hs] at h
  | listener d =>
    obtain ⟨x, hx, h⟩ := Option.bind_eq_some_iff.mp h
    simp [hlistener] at h
  | bookkeeper b => contradiction

/-- The node accepts what it answers as accepted. -/
theorem History.admitted_of_accepted {e : Transition κ} {who : Party} {hash : Hash}
    (h : History setup .start tr s) (he : e ∈ tr) (ha : e.action = .reply who (.accepted hash)) :
    ∃ signed, e.admitted? setup = some signed := by
  obtain ⟨pre, post, rfl⟩ := List.append_of_mem he
  obtain ⟨-, hstep, -⟩ := h.around
  rw [ha] at hstep
  obtain ⟨signed, hsigned⟩ := exists_admitted hstep
  exact ⟨signed, by rw [Transition.admitted?, ha]; exact hsigned⟩

/-! ### The balance -/

/-- **The metrics balance** at every moment of every run:

* the broadcasts counted as successful, first ones and replacements, are the transactions the node
  accepted, which are all that it answered as accepted;
* the successful first broadcasts are the outcomes counted, the deliveries under way and the
  deliveries dropped with their caller;
* the confirmations counted are those published, and the failures counted, of whatever kind, are
  those published;
* the resets counted are the operations that wanted one and have ended, and the sends that ended
  after their first broadcast was refused for its nonce;
* the sends through the queue that are counted, whatever became of them, are those that ended;
* the gauge shows the price of the replacement accepted last, of whatever delivery. -/
theorem History.metrics_balance (h : History setup .start tr s) :
    (s.metrics.count (.initialBroadcast true) + s.metrics.count (.rebroadcast true) =
        (admitted setup tr).length ∧
      ∀ e ∈ tr, ∀ who hash, e.action = .reply who (.accepted hash) →
        ∃ signed, e.admitted? setup = some signed) ∧
    s.metrics.count (.initialBroadcast true) =
      s.metrics.total Counter.isOutcome + s.deliveries.countP Delivery.isOpen +
        s.deliveries.countP Delivery.isDropped ∧
    (s.metrics.count (.outcome "confirmed") = (outcomes tr).countP Outcome.isConfirmed ∧
      s.metrics.total Counter.isFailure = (outcomes tr).countP fun o => !o.isConfirmed) ∧
    (s.metrics.count .nonceReset =
        s.operations.countP isReset + s.operations.countP isOutrun ∧
      ∀ i o answer, s.operations[i]? = some o → o.stage = .ended answer →
        (o.isOutrun = true ↔ ∃ e ∈ tr, e.before.Outruns setup i e.action)) ∧
    s.metrics.total Counter.isQueueSend = s.operations.countP isQueued ∧
    s.metrics.gauge = (replaced setup tr).getLast?.map fun signed =>
      Binary64.ofNat signed.tx.gasPrice.toNat := by
  obtain ⟨hbroadcasts, hdeliveries, hconfirmations, hfailures, hresets, hsends, hprice⟩ :=
    h.balanced
  have haccepted : ∀ e ∈ tr, ∀ who hash, e.action = .reply who (.accepted hash) →
      ∃ signed, e.admitted? setup = some signed :=
    fun e he who hash ha => h.admitted_of_accepted he ha
  refine ⟨⟨hbroadcasts, haccepted⟩, hdeliveries, ⟨hconfirmations, hfailures⟩, ⟨hresets, ?_⟩, hsends,
    ?_⟩
  · intro i o answer ho hended
    have hst : s.stage? i = some (.ended answer) := by simp [stage?, ho, hended]
    have hstale : s.stale i = o.isOutrun := by
      simp [stale, ho, isStale, hended]
    rw [← hstale]
    exact h.stale_iff (by simp [hst])
  · have hgauge : s.metrics.gasPrice = _ := hprice
    rw [Metrics.gauge, hgauge, accounts, Option.map_map]
    rfl

/-- A send through the queue that is replaced and confirmed, a send whose caller drops it, one whose
nonce is too low, a reset of the nonce, and a send through the queue that is not needed. -/
def busyRun : List (Action Unit) :=
  [.begin (.enqueue sampleTx {}), .resume 0, .resume 0, .reply (.operation 0) (.nonce 4),
    .reply (.operation 0) (.signed (sampleSigned 4)), .reply (.operation 0) (.accepted 4),
    .receive 0, .begin (.sendAndWait sampleTx {}), .resume 1,
    .reply (.operation 1) (.signed (sampleSigned 5)), .reply (.operation 1) (.accepted 5), .drop 1,
    .begin (.send sampleTx {}), .resume 2, .reply (.operation 2) (.signed (sampleSigned 6)),
    .reply (.operation 2) (.failed (.nonceTooLow "nonce too low")), .resume 2, .begin .resetNonce,
    .resume 3, .wait 10000, .poll 0, .reply (.listener 0) (.receipt none), .wait 10000, .poll 0,
    .reply (.listener 0) (.receipt none), .wait 5000, .tick 0, .reply (.supervisor 0) (.price 20),
    .reply (.supervisor 0) (.signed sampleReplacement), .reply (.supervisor 0) (.accepted 20),
    .receive 0, .wait 5000, .poll 0, .reply (.listener 0) (.receipt none),
    .reply (.listener 0) (.receipt (some ⟨20, 10, true⟩)), .reply (.listener 0) (.head 13), .join 0,
    .begin (.enqueue sampleTx {}), .resume 4]

/-- What the metrics are after this run. -/
theorem metrics_balance_busyRun :
    ∃ (tr : List (Transition Unit)) (s : Service Unit), History sampleSetup .start tr s ∧
      tr.map (·.action) = busyRun ∧
      s.metrics.count (.initialBroadcast true) + s.metrics.count (.rebroadcast true) = 3 ∧
      s.metrics.count (.initialBroadcast true) = s.metrics.total Counter.isOutcome + 0 + 1 ∧
      s.metrics.count (.outcome "confirmed") = 1 ∧ s.metrics.total Counter.isFailure = 0 ∧
      s.metrics.count .nonceReset = 1 + 1 ∧ s.metrics.total Counter.isQueueSend = 2 ∧
      s.metrics.gauge = some (Binary64.ofNat 20) := by
  have hrun : (start.trace? sampleSetup busyRun).map (fun r => decide (
      (admitted sampleSetup r.1).length = 3 ∧ r.2.deliveries.countP Delivery.isOpen = 0 ∧
        r.2.deliveries.countP Delivery.isDropped = 1 ∧
        outcomes r.1 = [.confirmed ⟨sampleReplacement, ""⟩] ∧ r.2.operations.countP isReset = 1 ∧
        r.2.operations.countP isOutrun = 1 ∧ r.2.operations.countP isQueued = 2 ∧
        replaced sampleSetup r.1 = [sampleReplacement])) = some true := by decide
  obtain ⟨tr, s, h, has, hb⟩ := exists_history hrun
  obtain ⟨hadmitted, hrunning, hdropped, houtcomes, hreset, houtrun, hqueued, hreplaced⟩ :=
    of_decide_eq_true hb
  obtain ⟨⟨hbroadcasts, -⟩, hdeliveries, ⟨hconfirmed, hfailed⟩, ⟨hresets, -⟩, hsends, hgauge⟩ :=
    h.metrics_balance
  rw [hadmitted] at hbroadcasts
  rw [hrunning, hdropped] at hdeliveries
  rw [houtcomes] at hconfirmed hfailed
  rw [hreset, houtrun] at hresets
  rw [hqueued] at hsends
  rw [hreplaced] at hgauge
  exact ⟨tr, s, h, has, hbroadcasts, hdeliveries, hconfirmed, hfailed, hresets, hsends, hgauge⟩

end Service

end TxDelivery
