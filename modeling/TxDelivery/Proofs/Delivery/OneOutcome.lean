import TxDelivery.Proofs.Veil.Run

/-!
# One outcome

What is published of a delivery over a whole run is a list
(`TxDelivery.Service.outcomesOf`), read off what was seen. That it has one element at most is not
proved by counting. **The list is a function of the state reached**: the outcomes published for a
delivery are the one its supervisor has returned with, and none before
(`TxDelivery.Service.History.outcomesOf_eq`). A supervisor has at most one outcome, so there is
nothing left to show.

The equation is an induction on the run with an equation for its step
(`TxDelivery.Service.outcome?_of_step?`): the outcome a delivery has, and behind it what the step
publishes for it, is the outcome it has afterwards. A step that ends the delivery adds on both
sides; all others add nothing. It takes that a delivery that is over does not end again, and that a
caller who drops a delivery drops one that is under way, which is where the belonging together of
callers and deliveries comes in.

## Feeds and callers

Publishing is what puts events on the two feeds, and nothing else does
(`TxDelivery.Service.feeds_of_step?`): subscribers come, go and take events without changing what
was published (`TxDelivery.Service.SameEvents`). An outcome goes to the feed of its kind.

A delivery comes from one accepted broadcast (`TxDelivery.Service.Transition.Launches`), and the
operation that made the broadcast does not end with an error
(`TxDelivery.Service.History.isAccepted`). So a send that failed has no delivery, publishes nothing
and never will.

After the end there is silence. Neither supervisor nor listener has anything to go on with, and by
`TxDelivery.Service.History.over` that is how it stays in every continuation.
-/

namespace TxDelivery

variable {κ : Type} {setup : Setup κ}

/-- The outcome an observation publishes for a delivery, if it publishes one. -/
def Observation.outcome? (d : DeliveryId) : Observation → Option Outcome
  | .published d' outcome => if d' = d then some outcome else none
  | .called _ _ | .logged _ => none

/-- The outcome an observation publishes, of whatever delivery. -/
def Observation.anyOutcome? : Observation → Option Outcome
  | .published _ outcome => some outcome
  | .called _ _ | .logged _ => none

/-- The outcome the supervisor of a delivery returned with, if it has. -/
def Delivery.outcome? (x : Delivery) : Option Outcome :=
  match x.stage with
  | .ended outcome => some outcome
  | .waiting | .replacing _ | .rebroadcasting _ | .dropped => none

/-- What is seen of other deliveries publishes no outcome of this one. -/
theorem outcome?_of_delivery? {o : Observation} {d : DeliveryId} (h : o.delivery? ≠ some d) :
    o.outcome? d = none := by
  cases o with
  | published d' outcome =>
    have hd : d' ≠ d := fun hd => h (congrArg some hd)
    rw [Observation.outcome?, if_neg hd]
  | _ => rfl

namespace Delivery

variable {now : Nat} {d : DeliveryId} {x x' : Delivery} {m m' : Metrics} {a : Action κ}
  {seen : List Observation} {outcome : Outcome}

/-- Who is under way has not returned. -/
theorem outcome?_of_isOpen (h : x.isOpen = true) : x.outcome? = none := by
  cases hs : x.stage <;> simp [isOpen, outcome?, hs] at h ⊢

/-- Proceeding publishes nothing. -/
theorem Proceeds.anyOutcome? (h : x.Proceeds setup now d m a x' m' seen) :
    seen.filterMap Observation.anyOutcome? = [] := by
  refine List.filterMap_eq_nil_iff.mpr fun o ho => ?_
  have hcalls {call : Option Call} {party : Party}
      (ho : o ∈ call.toList.map (Observation.called party)) : o.anyOutcome? = none := by
    obtain ⟨call, -, rfl⟩ := List.mem_map.mp ho
    rfl
  have hlog {log : List LogEvent} (ho : o ∈ log.map Observation.logged) :
      o.anyOutcome? = none := by
    obtain ⟨event, -, rfl⟩ := List.mem_map.mp ho
    rfl
  cases h with
  | tick | noteStopped | ask | broadcast | keep | retry | adopt | reject =>
    obtain rfl := List.mem_singleton.mp ho
    rfl
  | note | crash => exact absurd ho List.not_mem_nil
  | receive | poll => exact hcalls ho
  | lapse =>
    rcases List.mem_cons.mp ho with rfl | ho
    · rfl
    · exact hcalls ho
  | answer =>
    rcases List.mem_append.mp ho with ho | ho
    · exact hlog ho
    · exact hcalls ho

/-- Who proceeds has not returned more or less than before. -/
theorem Proceeds.outcome?_eq (h : x.Proceeds setup now d m a x' m' seen) :
    x'.outcome? = x.outcome? := by
  rcases h.cases_open with ⟨hopen, hopen', -⟩ | ⟨-, hstage⟩
  · rw [outcome?_of_isOpen hopen, outcome?_of_isOpen hopen']
  · simp only [outcome?, hstage]

end Delivery

namespace Service

variable [DecidableEq κ] {s t u : Service κ} {tr tr' : List (Transition κ)} {d : DeliveryId}
  {x : Delivery} {a : Action κ} {seen : List Observation} {i : OperationId} {outcome : Outcome}

/-- **The outcomes published for a delivery** in a run, in order. -/
def outcomesOf (d : DeliveryId) (tr : List (Transition κ)) : List Outcome :=
  (tr.flatMap (·.seen)).filterMap (Observation.outcome? d)

omit [DecidableEq κ] in
theorem outcomesOf_append :
    outcomesOf d (tr ++ tr') = outcomesOf d tr ++ outcomesOf d tr' := by
  simp [outcomesOf]

/-- The outcome a delivery has, if it is there and has one. -/
def outcome? (s : Service κ) (d : DeliveryId) : Option Outcome :=
  s.deliveries[d]?.bind Delivery.outcome?

omit [DecidableEq κ] in
theorem outcome?_eq (hx : s.deliveries[d]? = some x) : s.outcome? d = x.outcome? := by
  rw [outcome?, hx]
  rfl

/-- A step that publishes nothing at all publishes nothing for a delivery. -/
theorem filterMap_outcome?_of_anyOutcome? (h : seen.filterMap Observation.anyOutcome? = [])
    (d : DeliveryId) : seen.filterMap (Observation.outcome? d) = [] := by
  refine List.filterMap_eq_nil_iff.mpr fun o ho => ?_
  have hany := List.filterMap_eq_nil_iff.mp h o ho
  cases o with
  | published d' outcome => simp [Observation.anyOutcome?] at hany
  | _ => rfl

/-- **What a step publishes for a delivery** is the outcome the delivery gets by it. -/
theorem outcome?_of_step? (hs : s.Owned) (h : s.step? setup a = some (t, seen)) :
    (s.outcome? d).toList ++ seen.filterMap (Observation.outcome? d) = (t.outcome? d).toList := by
  cases deliveryMove_of_step? h (d := d) with
  | still ht hseen =>
    have hquiet : seen.filterMap (Observation.outcome? d) = [] :=
      List.filterMap_eq_nil_iff.mpr fun o ho => outcome?_of_delivery? (hseen o ho)
    rw [hquiet, List.append_nil, outcome?, outcome?, ht]
  | launched hd _ _ _ ht _ _ hseen =>
    have hnone : s.outcome? d = none := by simp [outcome?, hd]
    rw [hnone, outcome?_eq ht, hseen]
    rfl
  | concluded hx hends ht _ _ _ hseen =>
    rw [outcome?_eq hx, outcome?_eq ht, Delivery.outcome?_of_isOpen hends.isOpen, hseen]
    simp [List.filterMap, Observation.outcome?, Delivery.outcome?]
  | proceeded hx hproceeds ht =>
    rw [outcome?_eq hx, outcome?_eq ht, hproceeds.outcome?_eq,
      filterMap_outcome?_of_anyOutcome? hproceeds.anyOutcome?, List.append_nil]
  | @abandoned x i hx _ hst ht _ hseen =>
    obtain ⟨x', hx', howner⟩ := hs.waits hst
    obtain rfl := Option.some.inj (hx'.symm.trans hx)
    have hopen := (hs.eq_of_supervising hx howner hst).2
    rw [outcome?_eq hx, outcome?_eq ht, Delivery.outcome?_of_isOpen hopen, hseen]
    rfl

/-- **The outcomes published for a delivery** are the one it has, or none. -/
theorem History.outcomesOf_eq (h : History setup .start tr s) (d : DeliveryId) :
    outcomesOf d tr = (s.outcome? d).toList := by
  induction h with
  | nil => rfl
  | snoc h hstep ih =>
    rw [outcomesOf_append, ih, ← outcome?_of_step? h.owned hstep]
    simp [outcomesOf]

/-! ### The feeds -/

/-- **What publishes an outcome is the end of its delivery.** -/
theorem ends_of_published (h : s.step? setup a = some (t, seen))
    (hmem : .published d outcome ∈ seen) :
    (∃ x, s.deliveries[d]? = some x ∧ x.Ends setup s.now d a outcome) ∧
      seen = [.logged (outcomeLog outcome), .published d outcome] ∧
      t.confirms = (s.publish outcome).confirms ∧ t.errors = (s.publish outcome).errors := by
  cases deliveryMove_of_step? h (d := d) with
  | still _ hseen => exact absurd rfl (hseen _ hmem)
  | launched _ _ _ _ _ _ _ hseen => simp [hseen] at hmem
  | @concluded x outcome' hx hends _ _ hconfirms herrors hseen =>
    obtain rfl : outcome = outcome' := by simpa [hseen] using hmem
    exact ⟨⟨x, hx, hends⟩, hseen, hconfirms, herrors⟩
  | proceeded _ hproceeds =>
    have hnone := List.filterMap_eq_nil_iff.mp hproceeds.anyOutcome? _ hmem
    contradiction
  | abandoned _ _ _ _ _ hseen => simp [hseen] at hmem

/-- Two feeds that the same events went through. -/
def SameEvents {α : Type} (f g : Feed α) : Prop :=
  f.published = g.published ∧ f.retained = g.retained

theorem sameEvents_receive {α : Type} {f g : Feed α} {id : SubscriptionId} {event : Option α}
    (h : f.receive id = (event, g)) : SameEvents g f := by
  obtain rfl : (f.receive id).2 = g := congrArg Prod.snd h
  unfold Feed.receive
  split
  · exact ⟨rfl, rfl⟩
  · dsimp only
    split <;> exact ⟨rfl, rfl⟩

theorem sameEvents_drain {α : Type} (f : Feed α) (id : SubscriptionId) :
    SameEvents (f.drain id).2 f := by
  unfold Feed.drain
  split <;> exact ⟨rfl, rfl⟩

/-- **Events reach the feeds by being published**: a step publishes one outcome, which goes to the
feed of its kind, or none, and then both feeds hold what they held. -/
theorem feeds_of_step? (h : s.step? setup a = some (t, seen)) :
    (∃ outcome, seen.filterMap Observation.anyOutcome? = [outcome] ∧
      t.confirms = (s.publish outcome).confirms ∧ t.errors = (s.publish outcome).errors) ∨
    seen.filterMap Observation.anyOutcome? = [] ∧
      SameEvents t.confirms s.confirms ∧ SameEvents t.errors s.errors := by
  by_cases hpub : ∃ d outcome, Observation.published d outcome ∈ seen
  · obtain ⟨d, outcome, hmem⟩ := hpub
    obtain ⟨-, hseen, hconfirms, herrors⟩ := ends_of_published h hmem
    refine .inl ⟨outcome, ?_, hconfirms, herrors⟩
    simp [hseen, List.filterMap, Observation.anyOutcome?]
  · refine .inr ⟨List.filterMap_eq_nil_iff.mpr fun o ho => ?_, ?_⟩
    · cases o with
      | published d outcome => exact absurd ⟨d, outcome, ho⟩ hpub
      | _ => rfl
    · have hsame {α : Type} (f : Feed α) : SameEvents f f := ⟨rfl, rfl⟩
      cases step_of_step? h with
      | operation h => cases h <;> exact ⟨hsame _, hsame _⟩
      | delivery h =>
        cases h with
        | conclude => exact absurd ⟨_, _, List.mem_cons_of_mem _ (List.mem_singleton_self _)⟩ hpub
        | proceed => exact ⟨hsame _, hsame _⟩
      | bookkeeper h =>
        cases h with
        | takeConfirm _ _ hreceive => exact ⟨sameEvents_receive hreceive, hsame _⟩
        | takeError _ _ hreceive => exact ⟨hsame _, sameEvents_receive hreceive⟩
        | start => exact ⟨⟨rfl, rfl⟩, ⟨rfl, rfl⟩⟩
        | mark => exact ⟨hsame _, hsame _⟩
        | stop => exact ⟨⟨rfl, rfl⟩, ⟨rfl, rfl⟩⟩
      | outside h =>
        cases h with
        | drainConfirms => exact ⟨sameEvents_drain _ _, hsame _⟩
        | drainErrors => exact ⟨hsame _, sameEvents_drain _ _⟩
        | _ => exact ⟨⟨rfl, rfl⟩, ⟨rfl, rfl⟩⟩

/-! ### Where deliveries come from -/

/-- **A step that starts a delivery**: the node accepts the first broadcast of an operation. -/
def Transition.Launches (e : Transition κ) (i : OperationId) (d : DeliveryId) : Prop :=
  (∃ hash, e.action = .reply (.operation i) (.accepted hash)) ∧
    (∃ sub signed deadline, e.before.stage? i = some (.submitting sub) ∧
      sub.stage = .broadcasting signed deadline) ∧
    d = e.before.deliveries.length

omit [DecidableEq κ] in
/-- What is accepted is not at work any more. -/
theorem isActive_of_isAccepted {st : Operation.Stage κ} (h : st.isAccepted = true) :
    st.isActive = false := by
  cases st <;> simp [Operation.Stage.isAccepted, Operation.Stage.isActive] at h ⊢

/-- **An operation whose broadcast was accepted keeps to that.** -/
theorem isAccepted_of_step? (h : s.step? setup a = some (t, seen)) {st : Operation.Stage κ}
    (hst : s.stage? i = some st) (haccepted : st.isAccepted = true) :
    ∃ st', t.stage? i = some st' ∧ st'.isAccepted = true := by
  have hinactive := isActive_of_isAccepted haccepted
  cases operationMove_of_step? h (j := i) with
  | still ht => exact ⟨st, ht.trans hst, haccepted⟩
  | begun hj =>
    rw [hj, stage?_length] at hst
    contradiction
  | moved _ hst' hactive =>
    obtain rfl := Option.some.inj (hst'.symm.trans hst)
    rw [hinactive] at hactive
    contradiction
  | waits _ hst' =>
    obtain rfl := Option.some.inj (hst'.symm.trans hst)
    contradiction
  | delivered _ _ _ _ ht => exact ⟨_, by rw [ht, hst]; rfl, rfl⟩
  | dropped _ _ _ _ ht => exact ⟨_, ht, rfl⟩

/-- Once its first broadcast is accepted the service is done with an operation. -/
theorem isAccepted_of_accepted {sub : Submission κ} {hash : Hash}
    (h : s.step? setup (.reply (.operation i) (.accepted hash)) = some (t, seen))
    (hst : s.stage? i = some (.submitting sub)) :
    ∃ st, t.stage? i = some st ∧ st.isAccepted = true := by
  cases operationStep_of_replyOperation? h with
  | refuse _ _ href | refuseQueued _ _ href => cases href
  | launchDetached hst | launchAttached hst | launchQueued hst =>
    exact ⟨_, stage?_put_self rfl hst, rfl⟩
  | answer hst' hs' =>
    obtain rfl := Option.some.inj (hst'.symm.trans hst)
    simp at hs'
  | escalate hst' =>
    have hcontra := hst'.symm.trans hst
    simp at hcontra

/-- **An operation that started a delivery was accepted**, ever since. -/
theorem History.isAccepted (h : History setup .start tr s) :
    ∀ e ∈ tr, e.Launches i d → ∃ st, s.stage? i = some st ∧ st.isAccepted = true := by
  induction h with
  | nil => exact fun e he => absurd he List.not_mem_nil
  | snoc h hstep ih =>
    intro e he hlaunch
    rcases List.mem_append.mp he with he | he
    · obtain ⟨st, hst, haccepted⟩ := ih e he hlaunch
      exact isAccepted_of_step? hstep hst haccepted
    · obtain rfl := List.mem_singleton.mp he
      obtain ⟨⟨hash, ha⟩, ⟨sub, signed, deadline, hst, -⟩, -⟩ := hlaunch
      subst ha
      exact isAccepted_of_accepted hstep hst

/-- **Every delivery was started** by the broadcast of an operation. -/
theorem History.exists_launches (h : History setup .start tr s) (hd : d < s.deliveries.length) :
    ∃ i, ∃ e ∈ tr, e.Launches i d := by
  induction h with
  | nil => exact absurd hd (Nat.not_lt_zero d)
  | @snoc tr t u a seen h hstep ih =>
    have hold (hlt : d < t.deliveries.length) : ∃ i, ∃ e ∈ tr ++ [⟨t, a, seen, u⟩],
        e.Launches i d := by
      obtain ⟨i, e, he, hlaunch⟩ := ih hlt
      exact ⟨i, e, List.mem_append_left _ he, hlaunch⟩
    have hlt {x : Delivery} (hx : t.deliveries[d]? = some x) : d < t.deliveries.length :=
      (List.getElem?_eq_some_iff.mp hx).1
    cases deliveryMove_of_step? hstep (d := d) with
    | still ht =>
      refine hold ?_
      rw [List.getElem?_eq_getElem hd] at ht
      exact hlt ht.symm
    | @launched i sub signed deadline hash hlen ha hst hs =>
      exact ⟨i, _, List.mem_append_right _ (List.mem_singleton_self _), ⟨hash, ha⟩,
        ⟨sub, signed, deadline, hst, hs⟩, hlen⟩
    | concluded hx | proceeded hx | abandoned hx => exact hold (hlt hx)

/-! ### One outcome -/

/-- A delivery that is over is over in every continuation. -/
theorem History.over (h : History setup s tr' t) (hs : s.Owned) (hx : s.deliveries[d]? = some x)
    (hclosed : x.isOpen = false) (hover : x.listener.isOver = true) :
    t.Owned ∧ t.deliveries[d]? = some x ∧ ∀ e ∈ tr', ∀ o ∈ e.seen, o.delivery? ≠ some d := by
  induction h with
  | nil => exact ⟨hs, hx, fun e he => absurd he List.not_mem_nil⟩
  | snoc _ hstep ih =>
    obtain ⟨howned, hx', hseen⟩ := ih
    obtain ⟨hx'', hlast⟩ := over_of_step? hstep hx' hclosed hover fun i =>
      howned.not_supervising hx' hclosed
    refine ⟨howned.step hstep, hx'', fun e he => ?_⟩
    rcases List.mem_append.mp he with he | he
    · exact hseen e he
    · obtain rfl := List.mem_singleton.mp he
      exact hlast

/-- **Exactly one outcome.** Whatever the order of steps in a run:

* a supervisor that has returned has published one outcome, the one it returned with; neither it
  nor its listener is waiting for a reply, and however the run goes on neither asks or publishes
  anything more for this delivery;
* as long as the supervisor has not returned, nothing is published for the delivery;
* an outcome that is published goes to the feed of its kind, and nothing else reaches the feeds;
* a call that waits for the outcome and ends without an error gets the outcome of its delivery;
* a send that fails starts no delivery, and nothing is published but for deliveries that started;
* with some of the sends made by the other kind of call, the run is the same in everything that is
  asked, broadcast, counted and published, unless a caller dropped a call that waited. -/
theorem History.one_outcome (h : History setup .start tr s) :
    (∀ (d : DeliveryId) (x : Delivery) outcome, s.deliveries[d]? = some x →
      x.stage = .ended outcome → outcomesOf d tr = [outcome] ∧
      s.pending? setup (.supervisor d) = none ∧ s.pending? setup (.listener d) = none ∧
      ∀ tr' t, History setup s tr' t →
        outcomesOf d (tr ++ tr') = [outcome] ∧ ∀ e ∈ tr', ∀ o ∈ e.seen, o.delivery? ≠ some d) ∧
    (∀ d : DeliveryId, (∀ x outcome, s.deliveries[d]? = some x → x.stage ≠ .ended outcome) →
      outcomesOf d tr = []) ∧
    (∀ e ∈ tr, (∃ outcome, e.seen.filterMap Observation.anyOutcome? = [outcome] ∧
        e.after.confirms = (e.before.publish outcome).confirms ∧
        e.after.errors = (e.before.publish outcome).errors) ∨
      e.seen.filterMap Observation.anyOutcome? = [] ∧
        SameEvents e.after.confirms e.before.confirms ∧
        SameEvents e.after.errors e.before.errors) ∧
    (∀ i tx options answer, s.request? i = some (.sendAndWait tx options) →
      s.stage? i = some (.ended answer) → (∃ err, answer = .failed err) ∨
        ∃ (d : DeliveryId) (x : Delivery) (outcome : Outcome), answer = .delivered outcome ∧
          s.deliveries[d]? = some x ∧ x.owner = some i ∧ x.stage = .ended outcome) ∧
    (∀ i err, s.stage? i = some (.ended (.failed err)) → ∀ e ∈ tr, ∀ d, ¬ e.Launches i d) ∧
    (∀ d, outcomesOf d tr ≠ [] → ∃ i, ∃ e ∈ tr, e.Launches i d) ∧
    ∀ who : OperationId → Bool,
      (∀ e ∈ tr, ∀ i d, e.action = .drop i → who i = true →
        e.before.stage? i ≠ some (.supervising d)) →
      ∃ tr' s', History setup .start tr' s' ∧ List.Forall₂ (Transition.Alike who) tr tr' := by
  have hstep : ∀ e ∈ tr, e.before.step? setup e.action = some (e.after, e.seen) := by
    intro e he
    obtain ⟨pre, post, rfl⟩ := List.append_of_mem he
    exact h.around.2.1
  refine ⟨?_, ?_, fun e he => feeds_of_step? (hstep e he), ?_, ?_, ?_, ?_⟩
  · intro d x outcome hx hstage
    have hclosed : x.isOpen = false := by simp [Delivery.isOpen, hstage]
    have hover := h.delivery Delivery.quiet_invariant hx hclosed
    have hout : s.outcome? d = some outcome := by
      rw [outcome?_eq hx, Delivery.outcome?, hstage]
    refine ⟨by rw [h.outcomesOf_eq, hout]; rfl, ?_, ?_, fun tr' t h' => ?_⟩
    · simp [pending?, hx, Delivery.call?, hstage]
    · simp [pending?, hx, Listener.call?_of_isOver hover]
    · obtain ⟨-, hx', hseen⟩ := h'.over h.owned hx hclosed hover
      refine ⟨?_, hseen⟩
      rw [(h.append h').outcomesOf_eq, outcome?_eq hx', ← outcome?_eq hx, hout]
      rfl
  · intro d hd
    have hnone : s.outcome? d = none := by
      cases hx : s.deliveries[d]? with
      | none => simp [outcome?, hx]
      | some x =>
        rw [outcome?_eq hx]
        cases hstage : x.stage with
        | ended outcome => exact absurd hstage (hd x outcome hx)
        | _ => simp [Delivery.outcome?, hstage]
    rw [h.outcomesOf_eq, hnone]
    rfl
  · intro i tx options answer hr hst
    cases h.waiting hr with
    | failed hst' => exact .inl ⟨_, by simpa using hst.symm.trans hst'⟩
    | delivered hst' hx howner hstage =>
      exact .inr ⟨_, _, _, by simpa using hst.symm.trans hst', hx, howner, hstage⟩
    | submitting hst' | supervising hst' | dropped hst' =>
      exact absurd (hst.symm.trans hst') (by simp)
  · intro i err hst e he d hlaunch
    obtain ⟨st, hst', haccepted⟩ := h.isAccepted e he hlaunch
    obtain rfl := Option.some.inj (hst'.symm.trans hst)
    contradiction
  · intro d hd
    refine h.exists_launches ?_
    by_contra hlen
    refine hd ?_
    rw [h.outcomesOf_eq, outcome?, List.getElem?_eq_none (Nat.le_of_not_lt hlen)]
    rfl
  · intro who hwait
    obtain ⟨tr', s', h', -, halike⟩ := h.exchange who hwait
    exact ⟨tr', s', h', halike⟩

/-- A run in which a delivery is confirmed. -/
def confirmedRun : List (Action Unit) :=
  [.begin (.sendAndWait sampleTx {}), .resume 0, .reply (.operation 0) (.nonce 4),
    .reply (.operation 0) (.signed (sampleSigned 4)), .reply (.operation 0) (.accepted 4),
    .receive 0, .wait 10000, .poll 0, .reply (.listener 0) (.receipt (some ⟨4, 10, true⟩)),
    .reply (.listener 0) (.head 13), .join 0]

/-- One confirmation is published in this run. -/
theorem one_outcome_confirmedRun :
    ∃ tr s, History sampleSetup .start tr s ∧ tr.map (·.action) = confirmedRun ∧
      outcomesOf 0 tr = [.confirmed ⟨sampleSigned 4, ""⟩] := by
  have hrun : (start.trace? sampleSetup confirmedRun).map
      (fun r => r.2.deliveries[0]?.map (·.stage)) =
      some (some (.ended (.confirmed ⟨sampleSigned 4, ""⟩))) := by decide
  obtain ⟨tr, s, h, has, hx⟩ := exists_history hrun
  obtain ⟨x, hx, hstage⟩ := Option.map_eq_some_iff.mp hx
  exact ⟨tr, s, h, has, (h.one_outcome.1 0 x _ hx hstage).1⟩

end Service

end TxDelivery
