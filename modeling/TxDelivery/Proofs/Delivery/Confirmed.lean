import TxDelivery.Proofs.Delivery.OneOutcome
import TxDelivery.Proofs.Progress

/-!
# Confirmed deliveries and what is reported of them

The listener of a delivery may find a final variant while its supervisor is at work on a
replacement. The supervisor does not look up from that work, and so **a delivery that is confirmed
may still be replaced, and be reported as failed**: it is reported as confirmed for certain exactly
when the supervisor was waiting, and no tick was due, once the listener was done
(`TxDelivery.Service.History.reported_confirmed_iff`).

The two directions of the equivalence are of different kinds.

## The supervisor that waits

It can do nothing but learn of the confirmation, and no time passes until it has: a service does not
let time pass while somebody can go on without a reply
(`TxDelivery.Service.mayWait_of_returned`). So its tick does not become due meanwhile. The invariant
is where the delivery can be (`TxDelivery.Service.Attends`): where it was, with the clock standing
still, or confirmed, or dropped by its caller. It is kept by every step
(`TxDelivery.Service.Attends.step`), whatever the rest of the service does, and none of the three
places asks for a broadcast or publishes anything else.

## The supervisor that is at work

Here a run has to be exhibited in which the confirmation is not reported. Any call can fail, which
brings the supervisor back to waiting (`TxDelivery.Service.exists_step_of_busy`), but then it might
learn of the confirmation next. So the run goes another way: time is let pass *while the call is
under way*, up to the deadline, and only then the call fails
(`TxDelivery.Service.History.exists_timeout_of_busy`). A supervisor that finds both its deadline
passed and its listener done may take either. If a tick is due the supervisor may serve it first,
and is at work then (`TxDelivery.Service.History.exists_timeout`).

That what is reported as confirmed is what the listener found holds in any case, and is an invariant
of every delivery (`TxDelivery.Delivery.confirmed_invariant`).
-/

namespace TxDelivery

variable {κ : Type} {setup : Setup κ}

namespace Listener

variable {l : Listener} {mined : Option SignedTx}

/-- A listener that is done is not stopped any more. -/
theorem stop_of_returned (h : l.stage = .returned mined) : l.stop = l := by
  simp only [stop, h]

/-- Whether a watch ended without a final variant: at the deadline, or stopped. -/
def Fruitless (l : Listener) : Prop := l.stage = .returned none ∨ l.stage = .stopped

theorem Fruitless.stop (h : l.Fruitless) : l.stop = l := by
  rcases h with h | h
  · exact stop_of_returned h
  · obtain ⟨_, _, _, stage⟩ := l
    obtain rfl : stage = .stopped := h
    rfl

theorem Fruitless.isOver (h : l.Fruitless) : l.isOver = true := by
  rcases h with h | h <;> simp only [Listener.isOver, h]

end Listener

namespace Delivery

variable {now : Nat} {d : DeliveryId} {x x' : Delivery} {m m' : Metrics} {a : Action κ}
  {seen : List Observation} {outcome : Outcome} {mined : Option SignedTx}

/-- **A listener that is done stays so**, whatever the supervisor does. -/
theorem Proceeds.returned (h : x.Proceeds setup now d m a x' m' seen)
    (hl : x.listener.stage = .returned mined) : x'.listener.stage = .returned mined :=
  (h.stage_of_isOver (by simp only [Listener.isOver, hl])).trans hl

/-- **A waiting supervisor whose listener has found a variant can only serve a tick** instead of
learning of it. -/
theorem Proceeds.due {mined : SignedTx} (h : x.Proceeds setup now d m a x' m' seen)
    (hs : x.stage = .waiting) (hl : x.listener.stage = .returned (some mined)) :
    x.ticker.due ≤ now := by
  cases h with
  | tick _ hdue => exact hdue
  | note _ _ hl' | noteStopped _ _ hl' => exact absurd (hl.symm.trans hl') (by simp)
  | crash hover => simp [Listener.isOver, hl] at hover
  | ask hs' | keep hs' | broadcast hs' | retry hs' | adopt hs' | reject hs' =>
    exact absurd (hs.symm.trans hs') (by simp)
  | receive hl' | poll hl' | lapse hl' | answer hl' =>
    simp [Listener.receive?, Listener.poll?, Listener.lapse?, Listener.advance?,
      Listener.isWaiting, hl] at hl'

/-- A supervisor that has seen its listener done had nothing to report. -/
theorem joined_invariant : Invariant setup fun x => x.joined = true → x.listener.Fruitless where
  start _ _ _ _ _ h := by simp [Delivery.start] at h
  ends _ ih h := by
    have hl := ih h
    rw [close, hl.stop]
    exact hl
  proceeds h ih := by
    have hstage := h.stage_of_isOver
    cases h with
    | note _ _ hl => exact fun _ => .inl hl
    | noteStopped _ _ hl => exact fun _ => .inr hl
    | tick | ask | keep | broadcast | retry | reject | adopt => exact ih
    | receive | poll | lapse | crash | answer =>
      intro hjoined
      have hl := ih hjoined
      rwa [Listener.Fruitless, hstage hl.isOver]
  abandon ih h := by
    have hl := ih h
    rw [abandon, hl.stop]
    exact hl

/-- A delivery is confirmed with what the listener found. -/
theorem Ends.confirmed {event : ConfirmEvent} (h : x.Ends setup now d a (.confirmed event)) :
    x.listener.stage = .returned (some event.tx) ∧ event.info = x.options.info := by
  cases h with
  | join _ _ hl => exact ⟨hl, rfl⟩

/-- **What is confirmed is what the listener found.** -/
theorem confirmed_invariant :
    Invariant setup fun x => ∀ event, x.stage = .ended (.confirmed event) →
      x.listener.stage = .returned (some event.tx) ∧ event.info = x.options.info where
  start _ _ _ _ _ _ h := by simp [Delivery.start] at h
  ends hends _ event h := by
    obtain rfl : _ = Outcome.confirmed event := by simpa [close] using h
    obtain ⟨hl, hinfo⟩ := hends.confirmed
    rw [close, Listener.stop_of_returned hl]
    exact ⟨hl, hinfo⟩
  proceeds h ih event hx' := by
    rcases h.cases_open with ⟨-, hopen, -⟩ | ⟨-, hstage⟩
    · simp [isOpen, hx'] at hopen
    · obtain ⟨hl, hinfo⟩ := ih event (hstage.symm.trans hx')
      exact ⟨h.returned hl, hinfo.trans (by rw [h.fixed.2.1])⟩
  abandon _ _ h := by simp [abandon] at h

end Delivery

namespace Service

variable [DecidableEq κ] {s t u : Service κ} {tr tr' : List (Transition κ)} {d : DeliveryId}
  {x y : Delivery} {a : Action κ} {seen : List Observation} {mined : SignedTx}
  {event : ConfirmEvent}

/-- What the listener of a delivery returned stays, and so does what was asked for. -/
theorem returned_of_step? (h : s.step? setup a = some (t, seen)) (hx : s.deliveries[d]? = some x)
    (hl : x.listener.stage = .returned (some mined)) :
    ∃ y, t.deliveries[d]? = some y ∧ y.listener.stage = .returned (some mined) ∧
      y.options = x.options := by
  have hsame {x' : Delivery} (hx' : s.deliveries[d]? = some x') : x' = x :=
    Option.some.inj (hx'.symm.trans hx)
  cases deliveryMove_of_step? h (d := d) with
  | still ht => exact ⟨x, ht.trans hx, hl, rfl⟩
  | launched hd =>
    rw [hd] at hx
    simp at hx
  | concluded hx' _ ht =>
    obtain rfl := hsame hx'
    rw [Listener.stop_of_returned hl] at ht
    exact ⟨_, ht, hl, rfl⟩
  | proceeded hx' hproceeds ht =>
    obtain rfl := hsame hx'
    exact ⟨_, ht, hproceeds.returned hl, hproceeds.fixed.2.1⟩
  | abandoned hx' _ _ ht =>
    obtain rfl := hsame hx'
    rw [Delivery.abandon, Listener.stop_of_returned hl] at ht
    exact ⟨_, ht, hl, rfl⟩

/-- What the listener of a delivery returned stays however a run goes on. -/
theorem History.returned (h : History setup s tr t) (hx : s.deliveries[d]? = some x)
    (hl : x.listener.stage = .returned (some mined)) :
    ∃ y, t.deliveries[d]? = some y ∧ y.listener.stage = .returned (some mined) ∧
      y.options = x.options := by
  induction h with
  | nil => exact ⟨x, hx, hl, rfl⟩
  | snoc _ hstep ih =>
    obtain ⟨y, hy, hly, hoptions⟩ := ih
    obtain ⟨z, hz, hlz, hoptions'⟩ := returned_of_step? hstep hy hly
    exact ⟨z, hz, hlz, hoptions'.trans hoptions⟩

/-- **The outcomes published from now on** of a delivery under way. -/
theorem History.outcomesOf_of_isOpen (h : History setup .start tr s)
    (hx : s.deliveries[d]? = some x) (hopen : x.isOpen = true) (h' : History setup s tr' t) :
    outcomesOf d tr' = (t.outcome? d).toList := by
  have hbefore : outcomesOf d tr = [] := by
    rw [h.outcomesOf_eq, outcome?_eq hx, Delivery.outcome?_of_isOpen hopen]
    rfl
  rw [← (h.append h').outcomesOf_eq, outcomesOf_append, hbefore, List.nil_append]

/-! ### The supervisor that waits -/

/-- Time passes only in steps that say so. -/
theorem now_of_step? (h : s.step? setup a = some (t, seen)) :
    t.now = s.now ∨ ∃ ms, a = .wait ms ∧ s.mayWait setup ms = true := by
  cases step_of_step? h with
  | operation h => cases h <;> exact .inl rfl
  | delivery h => cases h <;> exact .inl rfl
  | bookkeeper h => cases h <;> exact .inl rfl
  | outside h =>
    cases h with
    | wait hwait => exact .inr ⟨_, rfl, hwait⟩
    | _ => exact .inl rfl

/-- **No time passes while a supervisor can learn of a confirmation.** -/
theorem mayWait_of_returned {ms : Nat} (hx : s.deliveries[d]? = some x) (hs : x.stage = .waiting)
    (hjoined : x.joined = false) (hl : x.listener.stage = .returned (some mined)) :
    s.mayWait setup ms = false := by
  refine Bool.eq_false_iff.mpr fun hwait => ?_
  have hlt : d < s.deliveries.length := (List.getElem?_eq_some_iff.mp hx).1
  have hmem : Action.join d ∈ s.ownActions := by
    refine List.mem_append_left _ (List.mem_append_right _ ?_)
    exact List.mem_flatMap.mpr ⟨d, List.mem_range.mpr hlt, by simp⟩
  have hnone := List.all_eq_true.mp (Bool.and_eq_true_iff.mp hwait).1 _ hmem
  have hsome : (s.join? d).isSome = true := by
    simp [join?, hx, Delivery.isWaiting_iff.mpr hs, hjoined, Listener.result?, hl]
  rw [act?, Option.isNone_iff_eq_none] at hnone
  rw [hnone] at hsome
  contradiction

/-- Where a delivery is whose supervisor had nothing else to do than to learn of a confirmation. -/
inductive Attends (s : Service κ) (d : DeliveryId) (x : Delivery) (event : ConfirmEvent)
    (t : Service κ) : Prop where
  /-- It has not moved yet, and no time has passed. -/
  | waiting (hx : t.deliveries[d]? = some x) (hnow : t.now = s.now)
  /-- It is confirmed. -/
  | confirmed (hx : t.deliveries[d]? = some (x.close (.confirmed event)))
  /-- Its caller dropped it. -/
  | dropped (hx : t.deliveries[d]? = some x.abandon)

/-- **A supervisor that has nothing else to do learns of the confirmation**, or is dropped; nothing
else is seen of it. -/
theorem Attends.step (htx : t.Owned) (h : t.step? setup a = some (u, seen))
    (hs : x.stage = .waiting) (hjoined : x.joined = false)
    (hl : x.listener.stage = .returned (some mined)) (hdue : s.now < x.ticker.due)
    (hdeadline : s.now < x.deadline) (ht : Attends s d x ⟨mined, x.options.info⟩ t) :
    Attends s d x ⟨mined, x.options.info⟩ u ∧
      ∀ tx, .called (.supervisor d) (.broadcast tx) ∉ seen := by
  have hquiet (hseen : ∀ o ∈ seen, o.delivery? ≠ some d) (tx : SignedTx) :
      .called (.supervisor d) (.broadcast tx) ∉ seen := fun ho => hseen _ ho rfl
  have hover {y : Delivery} (hy : t.deliveries[d]? = some y) (hclosed : y.isOpen = false)
      (hlistener : y.listener.isOver = true) :
      u.deliveries[d]? = some y ∧ ∀ tx, .called (.supervisor d) (.broadcast tx) ∉ seen := by
    obtain ⟨hu, hseen⟩ := over_of_step? h hy hclosed hlistener fun i =>
      htx.not_supervising hy hclosed
    exact ⟨hu, hquiet hseen⟩
  cases ht with
  | confirmed hx =>
    obtain ⟨hu, hseen⟩ := hover hx rfl (Listener.isOver_stop _)
    exact ⟨.confirmed hu, hseen⟩
  | dropped hx =>
    obtain ⟨hu, hseen⟩ := hover hx rfl (Listener.isOver_stop _)
    exact ⟨.dropped hu, hseen⟩
  | waiting hx hnow =>
    have hsame {y : Delivery} (hy : t.deliveries[d]? = some y) : y = x :=
      Option.some.inj (hy.symm.trans hx)
    cases deliveryMove_of_step? h (d := d) with
    | still hu hseen =>
      refine ⟨.waiting (hu.trans hx) ?_, hquiet hseen⟩
      rcases now_of_step? h with hnow' | ⟨ms, -, hwait⟩
      · exact hnow'.trans hnow
      · rw [mayWait_of_returned hx hs hjoined hl] at hwait
        contradiction
    | launched hd =>
      rw [hd] at hx
      simp at hx
    | concluded hy hends hu _ _ _ hseen =>
      -- Neither the deadline nor a tick is due, which leaves learning of the confirmation.
      obtain rfl := hsame hy
      refine ⟨?_, fun tx ho => by simp [hseen] at ho⟩
      cases hends with
      | expire _ hdue' =>
        rw [hnow] at hdue'
        exact absurd hdue' (Nat.not_le_of_lt hdeadline)
      | join _ _ hl' =>
        obtain rfl : _ = mined := by simpa [hl] using hl'.symm
        exact .confirmed hu
      | giveUp hs' => exact absurd (hs.symm.trans hs') (by simp)
    | proceeded hy hproceeds =>
      obtain rfl := hsame hy
      have hdue' := hproceeds.due hs hl
      rw [hnow] at hdue'
      exact absurd hdue' (Nat.not_le_of_lt hdue)
    | abandoned hy _ _ hu _ hseen =>
      obtain rfl := hsame hy
      exact ⟨.dropped hu, fun tx ho => by simp [hseen] at ho⟩

/-! ### The supervisor that is at work -/

omit [DecidableEq κ] in
/-- What is published in a run is among the outcomes of its delivery. -/
theorem mem_outcomesOf {outcome : Outcome} {e : Transition κ} (he : e ∈ tr)
    (ho : .published d outcome ∈ e.seen) : outcome ∈ outcomesOf d tr :=
  List.mem_filterMap.mpr ⟨_, List.mem_flatMap.mpr ⟨e, he, ho⟩, by simp [Observation.outcome?]⟩

/-- **Any call of a supervisor can fail**, and then the supervisor waits again. -/
theorem exists_step_of_busy (setup : Setup κ) (error : ChainError)
    (hx : s.deliveries[d]? = some x) (hopen : x.isOpen = true) (hbusy : x.stage ≠ .waiting) :
    ∃ t seen, s.step? setup (.reply (.supervisor d) (.failed error)) = some (t, seen) ∧
      t.deliveries[d]? = some { x with stage := .waiting } ∧ t.now = s.now := by
  have hlt : d < s.deliveries.length := (List.getElem?_eq_some_iff.mp hx).1
  cases hs : x.stage with
  | waiting => exact absurd hs hbusy
  | ended outcome | dropped => simp [Delivery.isOpen, hs] at hopen
  | replacing e =>
    obtain ⟨err, hadvance, herr⟩ : ∃ err,
        e.advance? setup.config.priceBumpPercent (.failed error) = some (.ended (.error err)) ∧
          err.isTerminal = false := by
      cases hstage : e.stage <;> simp [Escalation.advance?, hstage, DeliveryError.isTerminal]
    refine ⟨s.setDelivery d { x with stage := .waiting }, [.logged .replacementFailed], ?_, ?_, rfl⟩
    · simp [step?, act?, reply?, replySupervisor?, hx, hs, hadvance, escalate, herr]
    · exact List.getElem?_set_self hlt
  | rebroadcasting replacement =>
    refine ⟨(s.count (.rebroadcast false)).setDelivery d { x with stage := .waiting },
      [.logged .rebroadcastRejected], ?_, ?_, rfl⟩
    · simp [step?, act?, reply?, replySupervisor?, hx, hs]
    · exact List.getElem?_set_self hlt

/-- **While a supervisor is at work its deadline can pass**, whatever its listener has found. -/
theorem History.exists_timeout_of_busy (h : History setup .start tr s)
    (hx : s.deliveries[d]? = some x) (hl : x.listener.stage = .returned (some mined))
    (hopen : x.isOpen = true) (hbusy : x.stage ≠ .waiting) :
    ∃ tr' t, History setup s tr' t ∧
      .failed ⟨x.current, .timeout setup.config.period⟩ ∈ outcomesOf d tr' := by
  have hrest : x.effort = 0 := by
    simp [Delivery.effort, Delivery.isWaiting, hbusy, Listener.isWaiting, hl]
  obtain ⟨tr₁, t, h₁, hlate, ht⟩ := h.exists_later hx hrest x.deadline
  obtain ⟨u, seen, hfail, hu, hnow⟩ := exists_step_of_busy setup (.rpc "") ht hopen hbusy
  obtain ⟨m, hexpire⟩ := exists_expire? setup hu rfl (by rw [hnow]; exact hlate)
  have hstep : u.step? setup (.expire d) = some (m.1, m.2) := hexpire
  refine ⟨_, m.1, (h₁.snoc hfail).snoc hstep, ?_⟩
  refine mem_outcomesOf (List.mem_append_right _ (List.mem_singleton_self _)) ?_
  simp only [expire?, hu, Option.bind_eq_bind, Option.bind_some, Option.ite_none_right_eq_some,
    Option.some.injEq] at hexpire
  rw [← hexpire.2]
  exact List.mem_cons_of_mem _ (List.mem_singleton_self _)

/-- **Unless a supervisor waits and has no tick to serve its deadline can pass**, whatever its
listener has found. -/
theorem History.exists_timeout (h : History setup .start tr s)
    (hx : s.deliveries[d]? = some x) (hl : x.listener.stage = .returned (some mined))
    (hopen : x.isOpen = true) (hnot : ¬ (x.stage = .waiting ∧ s.now < x.ticker.due)) :
    ∃ tr' t, History setup s tr' t ∧
      .failed ⟨x.current, .timeout setup.config.period⟩ ∈ outcomesOf d tr' := by
  by_cases hs : x.stage = .waiting
  · -- A tick is due, and serving it keeps the supervisor busy.
    have hdue : x.ticker.due ≤ s.now := Nat.le_of_not_lt fun hlt => hnot ⟨hs, hlt⟩
    obtain ⟨m, hm⟩ := exists_tick? hx (Delivery.isWaiting_iff.mpr hs) hdue
    have hstep : s.step? setup (.tick d) = some (m.1, m.2) := hm
    have hlt : d < s.deliveries.length := (List.getElem?_eq_some_iff.mp hx).1
    have hy : m.1.deliveries[d]? = some { x with
        ticker := x.ticker.serve s.now
        stage := .replacing (.start x.current x.options) } := by
      simp only [tick?, hx, Option.bind_eq_bind, Option.bind_some, Option.ite_none_right_eq_some,
        Option.some.injEq] at hm
      rw [← hm.2]
      exact List.getElem?_set_self hlt
    obtain ⟨tr', t, h', ho⟩ := (h.snoc hstep).exists_timeout_of_busy hy hl rfl (by simp)
    refine ⟨_, t, (History.single hstep).append h', ?_⟩
    rw [outcomesOf_append]
    exact List.mem_append_right _ ho
  · exact h.exists_timeout_of_busy hx hl hopen hs

/-! ### What is reported -/

/-- **A confirmation is reported as such** while a run goes on. -/
structure Reports (s : Service κ) (d : DeliveryId) (event : ConfirmEvent)
    (tr : List (Transition κ)) (t : Service κ) : Prop where
  /-- No further replacement is broadcast. -/
  quiet : ∀ e ∈ tr, ∀ tx, .called (.supervisor d) (.broadcast tx) ∉ e.seen
  /-- Nothing but the confirmation is published. -/
  outcomes : ∀ outcome ∈ outcomesOf d tr, outcome = .confirmed event
  /-- It is published before any time passes, unless the caller dropped the delivery. -/
  prompt : s.now < t.now → outcomesOf d tr = [.confirmed event] ∨
    ∃ y, t.deliveries[d]? = some y ∧ y.stage = .dropped

/-- A supervisor that has nothing else to do reports the confirmation. -/
theorem History.reports (h : History setup .start tr s) (hx : s.deliveries[d]? = some x)
    (hl : x.listener.stage = .returned (some mined)) (hs : x.stage = .waiting)
    (hdue : s.now < x.ticker.due) (hdeadline : s.now < x.deadline) (h' : History setup s tr' t) :
    Reports s d ⟨mined, x.options.info⟩ tr' t := by
  have hjoined : x.joined = false := by
    refine Bool.eq_false_iff.mpr fun hjoined => ?_
    rcases h.delivery Delivery.joined_invariant hx hjoined with hcontra | hcontra
    · exact absurd (hl.symm.trans hcontra) (by simp)
    · exact absurd (hl.symm.trans hcontra) (by simp)
  have hopen : x.isOpen = true := by simp [Delivery.isOpen, hs]
  obtain ⟨hattends, hquiet⟩ : Attends s d x ⟨mined, x.options.info⟩ t ∧
      ∀ e ∈ tr', ∀ tx, .called (.supervisor d) (.broadcast tx) ∉ e.seen := by
    clear hopen
    induction h' with
    | nil => exact ⟨.waiting hx rfl, fun e he => absurd he List.not_mem_nil⟩
    | snoc h' hstep ih =>
      obtain ⟨hattends, hquiet⟩ := ih
      obtain ⟨hattends', hlast⟩ :=
        hattends.step (h.append h').owned hstep hs hjoined hl hdue hdeadline
      refine ⟨hattends', fun e he => ?_⟩
      rcases List.mem_append.mp he with he | he
      · exact hquiet e he
      · obtain rfl := List.mem_singleton.mp he
        exact hlast
  have houtcomes := h.outcomesOf_of_isOpen hx hopen h'
  cases hattends with
  | waiting hx' hnow =>
    have hnone : outcomesOf d tr' = [] := by
      rw [houtcomes, outcome?_eq hx', Delivery.outcome?_of_isOpen hopen]
      rfl
    exact ⟨hquiet, by simp [hnone], fun hlt => absurd hnow (Nat.ne_of_gt hlt)⟩
  | confirmed hx' =>
    have hone : outcomesOf d tr' = [.confirmed ⟨mined, x.options.info⟩] := by
      rw [houtcomes, outcome?_eq hx']
      rfl
    exact ⟨hquiet, by simp [hone], fun _ => .inl hone⟩
  | dropped hx' =>
    have hnone : outcomesOf d tr' = [] := by
      rw [houtcomes, outcome?_eq hx']
      rfl
    exact ⟨hquiet, by simp [hnone], fun _ => .inr ⟨_, hx', rfl⟩⟩

/-- **When a confirmation is reported as such.** The listener of a delivery under way has found a
final variant before the deadline. If the delivery is reported as confirmed, then with this variant
and no other; and it is reported as confirmed, without any further broadcast, however the run goes
on, exactly if the supervisor is waiting and no tick is due: a supervisor that serves a tick, or
still could, may as well broadcast a replacement, pass the price limit or pass the deadline. -/
theorem History.reported_confirmed_iff (h : History setup .start tr s)
    (hx : s.deliveries[d]? = some x) (hl : x.listener.stage = .returned (some mined))
    (hopen : x.isOpen = true) (hdeadline : s.now < x.deadline) :
    (∀ tr' t event, History setup s tr' t → .confirmed event ∈ outcomesOf d tr' →
      event = ⟨mined, x.options.info⟩) ∧
    ((∀ tr' t, History setup s tr' t → Reports s d ⟨mined, x.options.info⟩ tr' t) ↔
      x.stage = .waiting ∧ s.now < x.ticker.due) := by
  refine ⟨fun tr' t event h' ho => ?_, fun hall => ?_, fun hidle tr' t h' => ?_⟩
  · obtain ⟨y, hy, hly, hoptions⟩ := h'.returned hx hl
    rw [h.outcomesOf_of_isOpen hx hopen h', outcome?_eq hy] at ho
    have hstage : y.stage = .ended (.confirmed event) := by
      cases hs : y.stage <;> simp [Delivery.outcome?, hs] at ho
      rw [ho]
    obtain ⟨hlevent, hinfo⟩ := (h.append h').delivery Delivery.confirmed_invariant hy event hstage
    obtain rfl : mined = event.tx := by simpa using hly.symm.trans hlevent
    rw [← hoptions, ← hinfo]
  · by_contra hnot
    obtain ⟨tr', t, h', ho⟩ := h.exists_timeout hx hl hopen hnot
    exact absurd ((hall tr' t h').outcomes _ ho) (by simp)
  · exact h.reports hx hl hidle.1 hidle.2 hdeadline h'

/-- A run in which the listener finds the first variant while the supervisor waits. -/
def foundIdleRun : List (Action Unit) :=
  [.begin (.send sampleTx {}), .resume 0, .reply (.operation 0) (.nonce 4),
    .reply (.operation 0) (.signed (sampleSigned 4)), .reply (.operation 0) (.accepted 4),
    .receive 0, .wait 10000, .poll 0, .reply (.listener 0) (.receipt (some ⟨4, 10, true⟩)),
    .reply (.listener 0) (.head 13)]

/-- After this run nothing but the confirmation can be reported. -/
theorem reported_confirmed_iff_foundIdleRun :
    ∃ (tr : List (Transition Unit)) (s : Service Unit), tr.map (·.action) = foundIdleRun ∧
      History sampleSetup .start tr s ∧
      ∀ tr' t, History sampleSetup s tr' t → Reports s 0 ⟨sampleSigned 4, ""⟩ tr' t := by
  have hrun : (start.trace? sampleSetup foundIdleRun).map
      (fun r => (r.2.deliveries[0]?.map fun x => (x.listener.stage, x.stage, x.options.info),
        r.2.deliveries.all fun x => r.2.now < x.deadline && r.2.now < x.ticker.due)) =
      some (some (.returned (some (sampleSigned 4)), .waiting, ""), true) := by decide
  obtain ⟨tr, s, h, has, hf⟩ := exists_history hrun
  obtain ⟨hx, htimes⟩ := Prod.mk.inj hf
  obtain ⟨x, hx, hfields⟩ := Option.map_eq_some_iff.mp hx
  obtain ⟨hl, hs, hinfo⟩ : x.listener.stage = .returned (some (sampleSigned 4)) ∧
      x.stage = .waiting ∧ x.options.info = "" := by simpa using hfields
  have htime := List.all_eq_true.mp htimes x (List.mem_of_getElem? hx)
  simp only [Bool.and_eq_true, decide_eq_true_eq] at htime
  have hopen : x.isOpen = true := by simp [Delivery.isOpen, hs]
  refine ⟨tr, s, has, h, ?_⟩
  rw [← hinfo]
  exact (h.reported_confirmed_iff hx hl hopen htime.1).2.mpr ⟨hs, htime.2⟩

/-- A run in which the listener finds the first variant while the supervisor reads the price. -/
def foundBusyRun : List (Action Unit) :=
  [.begin (.send sampleTx { priceLimit := some 10 }), .resume 0, .reply (.operation 0) (.nonce 4),
    .reply (.operation 0) (.signed (sampleSigned 4)), .reply (.operation 0) (.accepted 4),
    .receive 0, .wait 10000, .poll 0, .reply (.listener 0) (.receipt none), .wait 10000, .poll 0,
    .reply (.listener 0) (.receipt none), .wait 5000, .tick 0, .wait 5000, .poll 0,
    .reply (.listener 0) (.receipt (some ⟨4, 10, true⟩)), .reply (.listener 0) (.head 13)]

/-- **A delivery that is confirmed and reported as failed**: after this run the price turns out to
be above the limit. -/
theorem reported_failed_foundBusyRun :
    ∃ (tr : List (Transition Unit)) (s : Service Unit) (x : Delivery)
      (tr' : List (Transition Unit)) (t : Service Unit), tr.map (·.action) = foundBusyRun ∧
      History sampleSetup .start tr s ∧ s.deliveries[0]? = some x ∧
      x.listener.stage = .returned (some (sampleSigned 4)) ∧ x.isOpen = true ∧
      s.now < x.deadline ∧ tr'.map (·.action) = [.reply (.supervisor 0) (.price 20)] ∧
      History sampleSetup s tr' t ∧
      outcomesOf 0 tr' = [.failed ⟨sampleSigned 4, .overPriceLimit 10 20⟩] := by
  have hrun : (start.trace? sampleSetup foundBusyRun).map
      (fun r => (r.2.deliveries[0]?.map fun x =>
          (x.listener.stage, x.isOpen, decide (r.2.now < x.deadline)),
        (r.2.trace? sampleSetup [.reply (.supervisor 0) (.price 20)]).map fun r' =>
          outcomesOf 0 r'.1)) =
      some (some (.returned (some (sampleSigned 4)), true, true),
        some [.failed ⟨sampleSigned 4, .overPriceLimit 10 20⟩]) := by decide
  obtain ⟨tr, s, h, has, hf⟩ := exists_history hrun
  obtain ⟨hx, hafter⟩ := Prod.mk.inj hf
  obtain ⟨x, hx, hfields⟩ := Option.map_eq_some_iff.mp hx
  obtain ⟨hl, hopen, hnow⟩ : x.listener.stage = .returned (some (sampleSigned 4)) ∧
      x.isOpen = true ∧ s.now < x.deadline := by simpa using hfields
  obtain ⟨tr', t, h', has', hout⟩ := exists_history hafter
  exact ⟨tr, s, x, tr', t, has, h, hx, hl, hopen, hnow, has', h', hout⟩

end Service

end TxDelivery
