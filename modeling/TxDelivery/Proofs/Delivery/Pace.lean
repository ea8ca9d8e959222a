import TxDelivery.Proofs.Delivery.Deadline
import TxDelivery.Proofs.Delivery.Round
import TxDelivery.Proofs.Nonce.Reuse

/-!
# The pace of a delivery

From its start on a delivery keeps its pace, whoever replies and whenever
(`TxDelivery.Service.History.kept`): its supervisor makes one attempt from tick to tick, its
listener takes one look, and neither tick comes before its time. With the first broadcast, which an
operation makes once, this bounds **how often a node is asked to broadcast for a delivery**
(`TxDelivery.Service.History.paced`).

## The invariant

What is kept is said for each of the two parties (`TxDelivery.Service.SupervisorKept`,
`TxDelivery.Service.ListenerKept`), and in two parts. The timer has served no tick too early and
does not have the next one due too early; what was asked since the last tick is the beginning of an
attempt, or a look at two variants at most, and the stage of the party says how far it has come.

Both parts are relative to a start, at which the two timers begin. So the induction is on the part
of the run behind the start (`TxDelivery.Service.kept_of_step?`), and what lies in front of it is
needed only to know that nothing was asked for a delivery before there was one
(`TxDelivery.Service.History.quiet_of_none`). The steps of others do not enter: neither party serves
a tick or asks anything in them (`TxDelivery.Service.quiet_of_other`), and the step that ends the
delivery is not different (`TxDelivery.Service.quiet_of_ends`).

## Counting

An attempt broadcasts once at most, so there are no more broadcasts than ticks. Ticks served are
ticks there was time for, because the `k`-th of them came after `k` intervals and not in the future
(`TxDelivery.Service.length_tickTimes_le`); a call that takes long makes them fewer. The broadcast
of the operation comes on top, once: before it the operation has committed a nonce, and it commits
one at most (`TxDelivery.Service.History.countP_first_broadcast_le`).
-/

namespace TxDelivery

variable {κ : Type} {setup : Setup κ}

/-- A delivery that ends does not proceed. -/
theorem Delivery.Ends.not_proceeds {now : Nat} {d : DeliveryId} {x x' : Delivery}
    {a : Action κ} {outcome : Outcome} {m m' : Metrics} {seen : List Observation}
    (h : x.Ends setup now d a outcome) : ¬ x.Proceeds setup now d m a x' m' seen := by
  intro h'
  cases h <;> cases h' <;> simp_all

/-- Intervals that are in order are positive. -/
theorem DeliveryConfig.changeIntervalMs_pos {c : DeliveryConfig} (h : c.offences = []) :
    0 < c.changeIntervalMs := by
  simp only [offences, List.append_eq_nil_iff] at h
  obtain ⟨⟨⟨-, hchange⟩, -⟩, -⟩ := h
  have hne : c.changeIntervalSecs ≠ 0 := by
    intro hzero
    simp [intervalOffences, hzero] at hchange
  have hpos : 0 < c.changeIntervalSecs.toNat :=
    Nat.pos_of_ne_zero fun hzero => hne (UInt64.toNat_inj.mp hzero)
  rw [changeIntervalMs]
  omega

namespace Service

variable {s t : Service κ} {tr : List (Transition κ)} {e : Transition κ} {who : Party}
  {calls : List Call} {d : DeliveryId} {start : Nat}

/-! ### The pace of a delivery under way -/

/-- **What a supervisor keeps to** since its start. -/
structure SupervisorKept (setup : Setup κ) (start : Nat) (d : DeliveryId)
    (tr : List (Transition κ)) (x : Delivery) : Prop where
  /-- Its ticks are at least an interval apart. -/
  paced : Ticker.Paced start setup.config.changeIntervalMs (tickTimes (.supervisor d) tr) x.ticker
  /-- Between them it makes one attempt. -/
  attempts : Supervisor.Attempts x.options (asked (.supervisor d) tr) x.stage
  /-- Before the first it asks nothing. -/
  silent : asked (.supervisor d) tr = none → callsOf (.supervisor d) tr = []

/-- **What a listener keeps to** since its start. -/
structure ListenerKept (setup : Setup κ) (start : Nat) (d : DeliveryId)
    (tr : List (Transition κ)) (l : Listener) : Prop where
  /-- Its ticks are at least an interval apart. -/
  paced : Ticker.Paced start setup.config.listenIntervalMs (tickTimes (.listener d) tr) l.ticker
  /-- Between them it takes one look. -/
  looks : ∀ calls, asked (.listener d) tr = some calls → Listener.Looks calls l.stage
  /-- Before the first it asks nothing. -/
  silent : asked (.listener d) tr = none → callsOf (.listener d) tr = [] ∧ l.call? = none

variable {x x' : Delivery} {l l' : Listener} {a : Action κ} {seen : List Observation}

/-- A step in which the supervisor neither serves a tick nor asks anything. -/
theorem SupervisorKept.quiet (h : SupervisorKept setup start d tr x)
    (hticks : e.action.ticks? ≠ some (.supervisor d)) (hcalls : e.calls (.supervisor d) = [])
    (hticker : x'.ticker = x.ticker)
    (hattempts : Supervisor.Attempts x.options (asked (.supervisor d) tr) x.stage →
      Supervisor.Attempts x'.options (asked (.supervisor d) tr) x'.stage) :
    SupervisorKept setup start d (tr ++ [e]) x' where
  paced := by
    rw [tickTimes_concat_of_not_ticks hticks, hticker]
    exact h.paced
  attempts := by
    rw [asked_concat_of_quiet hticks hcalls]
    exact hattempts h.attempts
  silent hnone := by
    rw [asked_concat_of_quiet hticks hcalls] at hnone
    rw [callsOf_concat, h.silent hnone, hcalls, List.append_nil]

/-- A step in which the supervisor asks something. -/
theorem SupervisorKept.ask (h : SupervisorKept setup start d tr x)
    (hticks : e.action.ticks? ≠ some (.supervisor d)) (hticker : x'.ticker = x.ticker)
    (hcalls : asked (.supervisor d) tr = some calls)
    (hattempts : Supervisor.Attempts x'.options (some (calls ++ e.calls (.supervisor d)))
      x'.stage) : SupervisorKept setup start d (tr ++ [e]) x' where
  paced := by
    rw [tickTimes_concat_of_not_ticks hticks, hticker]
    exact h.paced
  attempts := by
    rw [asked_concat_of_not_ticks hticks, hcalls]
    exact hattempts
  silent hnone := by
    rw [asked_concat_of_not_ticks hticks, hcalls] at hnone
    contradiction

/-- A step in which the listener neither serves a tick nor asks anything. -/
theorem ListenerKept.quiet (h : ListenerKept setup start d tr l)
    (hticks : e.action.ticks? ≠ some (.listener d)) (hcalls : e.calls (.listener d) = [])
    (hticker : l'.ticker = l.ticker)
    (hlooks : ∀ calls, Listener.Looks calls l.stage → Listener.Looks calls l'.stage)
    (hidle : l.call? = none → l'.call? = none) :
    ListenerKept setup start d (tr ++ [e]) l' where
  paced := by
    rw [tickTimes_concat_of_not_ticks hticks, hticker]
    exact h.paced
  looks calls hasked := by
    rw [asked_concat_of_quiet hticks hcalls] at hasked
    exact hlooks calls (h.looks calls hasked)
  silent hnone := by
    rw [asked_concat_of_quiet hticks hcalls] at hnone
    obtain ⟨hsilent, hcall⟩ := h.silent hnone
    exact ⟨by rw [callsOf_concat, hsilent, hcalls, List.append_nil], hidle hcall⟩

/-- A step in which the listener is stopped. -/
theorem ListenerKept.stop (h : ListenerKept setup start d tr l)
    (hticks : e.action.ticks? ≠ some (.listener d)) (hcalls : e.calls (.listener d) = []) :
    ListenerKept setup start d (tr ++ [e]) l.stop :=
  h.quiet hticks hcalls l.ticker_stop (fun _ hlooks => hlooks.stop) fun _ => l.call?_stop

/-- The attempts of a supervisor that gives up its replacement. -/
theorem attempts_idle {options : DeliveryOptions} {asked : Option (List Call)}
    {stage stage' : Supervisor.Stage} (h : Supervisor.Attempts options asked stage)
    (hstage : stage'.transactions = []) : Supervisor.Attempts options asked stage' :=
  .idle (fun _ hcalls => h.isAttempt hcalls) hstage

/-- A supervisor at work has asked something since its tick. -/
theorem SupervisorKept.of_replacing (h : SupervisorKept setup start d tr x) {esc : Escalation}
    (hs : x.stage = .replacing esc) : asked (.supervisor d) tr = some esc.asked ∧ esc.Thrifty ∧
      esc.options = x.options := by
  have hattempts := h.attempts
  rw [hs] at hattempts
  generalize hasked : asked (.supervisor d) tr = told at hattempts
  cases hattempts with
  | replacing he hoptions => exact ⟨rfl, he, hoptions⟩
  | idle _ hstage => contradiction

/-- **A delivery that proceeds keeps its supervisor's pace.** -/
theorem SupervisorKept.proceeds {m m' : Metrics} (hx : SupervisorKept setup start d tr x)
    (h : x.Proceeds setup s.now d m a x' m' seen) :
    SupervisorKept setup start d (tr ++ [⟨s, a, seen, t⟩]) x' := by
  cases h with
  | tick hs hdue =>
    refine ⟨?_, ?_, fun hnone => ?_⟩
    · rw [tickTimes_concat_of_ticks rfl]
      exact hx.paced.serve hdue
    · rw [asked_concat_of_ticks rfl]
      simp only [Transition.calls, Observation.call?, List.filterMap_cons, if_true,
        List.filterMap_nil]
      exact .replacing (e := .start x.current x.options) Escalation.thrifty_start rfl
    · rw [asked_concat_of_ticks rfl] at hnone
      contradiction
  | ask hs hp =>
    obtain ⟨hasked, he, hoptions⟩ := hx.of_replacing hs
    obtain ⟨he', hoptions', hcalls⟩ := Escalation.asked_of_asking he hp
    refine hx.ask (by simp [Action.ticks?]) rfl hasked ?_
    simp only [Transition.calls, Observation.call?, List.filterMap_cons, if_true,
      List.filterMap_nil, ← hcalls]
    exact .replacing he' (hoptions'.trans hoptions)
  | broadcast hs hp =>
    obtain ⟨hasked, he, hoptions⟩ := hx.of_replacing hs
    obtain ⟨tx, hcalls⟩ := Escalation.asked_concat_broadcast hp
    refine hx.ask (by simp [Action.ticks?]) rfl hasked ?_
    simp only [Transition.calls, Observation.call?, List.filterMap_cons, if_true,
      List.filterMap_nil, hcalls, hoptions]
    exact .rebroadcasting
  | keep | retry | adopt | reject =>
    -- The attempt is over, with a replacement or without one.
    exact hx.quiet (by simp [Action.ticks?]) (by simp [Transition.calls, Observation.call?]) rfl
      fun hattempts => attempts_idle hattempts rfl
  | note | crash =>
    exact hx.quiet (by simp [Action.ticks?]) (by simp [Transition.calls]) rfl id
  | noteStopped =>
    exact hx.quiet (by simp [Action.ticks?]) (by simp [Transition.calls, Observation.call?]) rfl id
  | receive | poll | lapse | answer =>
    -- What is asked now is asked by the listener.
    refine hx.quiet (by simp [Action.ticks?]) ?_ rfl id
    simp [Transition.calls, Observation.call?, List.filterMap_map]

/-- **A delivery that proceeds keeps its listener's pace.** -/
theorem ListenerKept.proceeds {m m' : Metrics} (hx : ListenerKept setup start d tr x.listener)
    (h : x.Proceeds setup s.now d m a x' m' seen) :
    ListenerKept setup start d (tr ++ [⟨s, a, seen, t⟩]) x'.listener := by
  have hcalls (log : List LogEvent) (l : Listener) :
      (log.map Observation.logged ++
        l.call?.toList.map (Observation.called (.listener d))).filterMap
          (Observation.call? (.listener d)) = l.call?.toList := by
    simp [Observation.call?, List.filterMap_map, Function.comp_def]
  cases h with
  | crash => exact hx.stop (by simp [Action.ticks?]) rfl
  | tick | ask | broadcast | keep | retry | reject | note | noteStopped =>
    exact hx.quiet (by simp [Action.ticks?]) (by simp [Transition.calls, Observation.call?]) rfl
      (fun _ => id) id
  | adopt =>
    exact hx.quiet (by simp [Action.ticks?]) (by simp [Transition.calls, Observation.call?]) rfl
      (fun _ => id) id
  | @receive l hl =>
    obtain ⟨tx, -, -, hs, hs'⟩ := Listener.of_receive? hl
    have hnone : l.call? = none := by simp [Listener.call?, hs']
    have hticker : l.ticker = x.listener.ticker := by
      unfold Listener.receive? at hl
      split at hl
      · rw [← Option.some.inj hl]
      · contradiction
    refine hx.quiet (by simp [Action.ticks?]) ?_ hticker (fun _ hlooks => ?_) fun _ => hnone
    · simp [Transition.calls, hnone]
    · rw [hs']
      exact hs ▸ hlooks
  | @poll l hl =>
    obtain ⟨hticker, hdue, hlooks⟩ := Listener.looks_of_poll? hl
    refine ⟨?_, fun calls hasked => ?_, fun hnone => ?_⟩
    · rw [tickTimes_concat_of_ticks rfl, hticker]
      exact hx.paced.serve hdue
    · rw [asked_concat_of_ticks rfl] at hasked
      have hcalls := hcalls [] l
      rw [List.map_nil, List.nil_append] at hcalls
      rw [← Option.some.inj hasked, Transition.calls, hcalls]
      exact hlooks
    · rw [asked_concat_of_ticks rfl] at hnone
      contradiction
  | @lapse l hl =>
    simp only [Listener.lapse?, Option.ite_none_right_eq_some, Option.some.injEq] at hl
    obtain ⟨-, rfl⟩ := hl
    refine hx.quiet (by simp [Action.ticks?]) ?_ rfl (fun _ hlooks => ?_) fun _ => rfl
    · simp [Transition.calls, Observation.call?, Listener.call?]
    · obtain ⟨hashes, hlen, hsub⟩ := hlooks.exists_look
      exact .returned hsub hlen
  | @answer l log reply hl =>
    obtain ⟨hticker, hcall⟩ := Listener.of_advance? hl
    have hticks : (Action.reply (.listener d) reply : Action κ).ticks? ≠ some (.listener d) := by
      simp [Action.ticks?]
    refine ⟨?_, fun calls hasked => ?_, fun hnone => ?_⟩
    · rw [tickTimes_concat_of_not_ticks hticks, hticker]
      exact hx.paced
    · rw [asked_concat_of_not_ticks hticks] at hasked
      obtain ⟨calls', hbefore, rfl⟩ := Option.map_eq_some_iff.mp hasked
      rw [Transition.calls, hcalls log l]
      exact (hx.looks calls' hbefore).advance hl
    · -- Before its first tick a listener waits for no reply.
      rw [asked_concat_of_not_ticks hticks, Option.map_eq_none_iff] at hnone
      exact absurd (hx.silent hnone).2 hcall

variable [DecidableEq κ] {u : Service κ} {pre post : List (Transition κ)} {i : OperationId}

/-! ### The pace along a run -/

/-- **Neither of the two asks anything** unless the delivery proceeds. -/
theorem calls_eq_nil (h : s.step? setup a = some (t, seen))
    (hnot : ∀ x x' m, s.deliveries[d]? = some x →
      ¬ x.Proceeds setup s.now d s.metrics a x' m seen)
    (hwho : who = .supervisor d ∨ who = .listener d) :
    Transition.calls who (⟨s, a, seen, t⟩ : Transition κ) = [] := by
  cases deliveryMove_of_step? h (d := d) with
  | still _ hseen =>
    refine List.filterMap_eq_nil_iff.mpr fun o ho => ?_
    unfold Observation.call?
    split
    case h_1 who' call =>
      refine if_neg ?_
      rintro rfl
      rcases hwho with rfl | rfl <;> exact hseen _ ho rfl
    all_goals rfl
  | launched _ _ _ _ _ _ _ hseen | abandoned _ _ _ _ _ hseen | concluded _ _ _ _ _ _ hseen =>
    simp [Transition.calls, hseen, Observation.call?]
  | proceeded hx hproceeds => exact absurd hproceeds (hnot _ _ _ hx)

/-- **In the steps of others** neither of the two serves a tick or asks anything. -/
theorem quiet_of_other (h : s.step? setup a = some (t, seen)) (ha : a.delivery? ≠ some d)
    (hwho : who = .supervisor d ∨ who = .listener d) :
    a.ticks? ≠ some who ∧ Transition.calls who (⟨s, a, seen, t⟩ : Transition κ) = [] := by
  refine ⟨fun hticks => ?_,
    calls_eq_nil h (fun _ _ _ _ hproceeds => ha hproceeds.delivery?_action) hwho⟩
  cases a with
  | tick d' | poll d' =>
    obtain rfl := Option.some.inj hticks
    rcases hwho with hwho | hwho <;> cases hwho
    exact ha rfl
  | _ => contradiction

/-- **In the step that ends a delivery** neither of the two serves a tick or asks anything. -/
theorem quiet_of_ends {outcome : Outcome} (h : s.step? setup a = some (t, seen))
    (hx : s.deliveries[d]? = some x) (hends : x.Ends setup s.now d a outcome)
    (hwho : who = .supervisor d ∨ who = .listener d) :
    a.ticks? ≠ some who ∧ Transition.calls who (⟨s, a, seen, t⟩ : Transition κ) = [] := by
  refine ⟨by cases hends <;> simp [Action.ticks?], calls_eq_nil h (fun y x' m hy => ?_) hwho⟩
  obtain rfl := Option.some.inj (hy.symm.trans hx)
  exact hends.not_proceeds

/-- Before a delivery starts nothing is asked for it. -/
theorem History.quiet_of_none (h : History setup .start tr s) (hx : s.deliveries[d]? = none)
    (hwho : who = .supervisor d ∨ who = .listener d) :
    tickTimes who tr = [] ∧ callsOf who tr = [] := by
  induction h with
  | nil => exact ⟨rfl, rfl⟩
  | @snoc tr t u a seen h hstep ih =>
    have hnone : t.deliveries[d]? = none := by
      by_contra hsome
      obtain ⟨y, hy⟩ := Option.ne_none_iff_exists'.mp hsome
      obtain ⟨z, hz, -⟩ := (History.single hstep).fixed hy
      rw [hx] at hz
      contradiction
    have ha : a.delivery? ≠ some d := by
      intro ha
      cases deliveryTurn_of_delivery? hstep ha with
      | other ha' | launched ha' | abandoned ha' => exact ha' ha
      | ended hy | proceeded hy =>
        rw [hnone] at hy
        contradiction
    obtain ⟨hticks, hcalls⟩ := quiet_of_other hstep ha hwho
    obtain ⟨hticks', hcalls'⟩ := ih hnone
    exact ⟨(tickTimes_concat_of_not_ticks hticks).trans hticks',
      by rw [callsOf_concat, hcalls', hcalls]; rfl⟩

/-- **A delivery that starts** has both its timers started with it. -/
theorem Transition.Launches.started (h : e.Launches i d)
    (hstep : e.before.step? setup e.action = some (e.after, e.seen)) :
    ∃ owner options deadline first, e.after.deliveries[d]? =
      some (.start setup.config e.before.now owner options deadline first) := by
  obtain ⟨s, a, seen, t⟩ := e
  obtain ⟨⟨hash, rfl⟩, ⟨sub, signed, deadline, hst, -⟩, rfl⟩ := h
  dsimp only at hstep hst ⊢
  cases operationStep_of_replyOperation? hstep with
  | launchDetached | launchAttached | launchQueued =>
    exact ⟨_, _, _, _, List.getElem?_concat_length⟩
  | refuse _ _ href | refuseQueued _ _ href => cases href
  | answer hst' hs' =>
    obtain rfl := Option.some.inj (hst'.symm.trans hst)
    simp at hs'
  | escalate hst' =>
    have hcontra := hst'.symm.trans hst
    simp at hcontra

/-- **One step keeps the pace of a delivery.** -/
theorem kept_of_step? (h : s.step? setup a = some (t, seen)) (hx : s.deliveries[d]? = some x)
    (hsup : SupervisorKept setup start d tr x) (hlis : ListenerKept setup start d tr x.listener) :
    ∃ y, t.deliveries[d]? = some y ∧ SupervisorKept setup start d (tr ++ [⟨s, a, seen, t⟩]) y ∧
      ListenerKept setup start d (tr ++ [⟨s, a, seen, t⟩]) y.listener := by
  have hsame {y : Delivery} (hy : s.deliveries[d]? = some y) : y = x :=
    Option.some.inj (hy.symm.trans hx)
  cases deliveryTurn_of_step? h d with
  | other ha ht =>
    obtain ⟨hticks, hcalls⟩ := quiet_of_other h ha (.inl rfl)
    obtain ⟨hticks', hcalls'⟩ := quiet_of_other h ha (.inr rfl)
    exact ⟨x, ht.trans hx, hsup.quiet hticks hcalls rfl id,
      hlis.quiet hticks' hcalls' rfl (fun _ => id) id⟩
  | launched _ hd =>
    rw [hd] at hx
    simp at hx
  | ended hy hends ht =>
    obtain rfl := hsame hy
    obtain ⟨hticks, hcalls⟩ := quiet_of_ends h hx hends (.inl rfl)
    obtain ⟨hticks', hcalls'⟩ := quiet_of_ends h hx hends (.inr rfl)
    exact ⟨_, ht, hsup.quiet hticks hcalls rfl fun hattempts => attempts_idle hattempts rfl,
      hlis.stop hticks' hcalls'⟩
  | proceeded hy hproceeds ht =>
    obtain rfl := hsame hy
    exact ⟨_, ht, hsup.proceeds hproceeds, hlis.proceeds hproceeds⟩
  | abandoned ha hy ht =>
    obtain rfl := hsame hy
    obtain ⟨hticks, hcalls⟩ := quiet_of_other h ha (.inl rfl)
    obtain ⟨hticks', hcalls'⟩ := quiet_of_other h ha (.inr rfl)
    exact ⟨_, ht, hsup.quiet hticks hcalls rfl fun hattempts => attempts_idle hattempts rfl,
      hlis.stop hticks' hcalls'⟩

/-- **A delivery keeps its pace from its start on.** -/
theorem History.kept (h : History setup .start (pre ++ e :: post) s) (hlaunch : e.Launches i d) :
    ∃ x, s.deliveries[d]? = some x ∧
      SupervisorKept setup e.before.now d (pre ++ e :: post) x ∧
      ListenerKept setup e.before.now d (pre ++ e :: post) x.listener := by
  induction post using List.reverseRecOn generalizing s with
  | nil =>
    -- The delivery has only started: it has served no tick, and asked nothing.
    obtain ⟨hpre, hstep, rfl⟩ := h.of_snoc
    obtain ⟨owner, options, deadline, first, hx⟩ := hlaunch.started hstep
    have hnone : e.before.deliveries[d]? = none :=
      List.getElem?_eq_none (Nat.le_of_eq hlaunch.2.2.symm)
    have ha : e.action.delivery? ≠ some d := by
      obtain ⟨⟨hash, ha⟩, -⟩ := hlaunch
      simp [ha, Action.delivery?]
    have hquiet {who : Party} (hwho : who = .supervisor d ∨ who = .listener d) :
        tickTimes who (pre ++ [e]) = [] ∧ callsOf who (pre ++ [e]) = [] := by
      obtain ⟨hticks, hcalls⟩ := quiet_of_other hstep ha hwho
      obtain ⟨hticks', hcalls'⟩ := hpre.quiet_of_none hnone hwho
      exact ⟨(tickTimes_concat_of_not_ticks hticks).trans hticks',
        callsOf_concat.trans (by rw [hcalls']; exact hcalls)⟩
    obtain ⟨hticks, hcalls⟩ := hquiet (.inl rfl)
    obtain ⟨hticks', hcalls'⟩ := hquiet (.inr rfl)
    refine ⟨_, hx, ⟨hticks ▸ Ticker.paced_start _ _, ?_, fun _ => hcalls⟩,
      ⟨hticks' ▸ Ticker.paced_start _ _, ?_, fun _ => ⟨hcalls', rfl⟩⟩⟩
    · rw [asked_eq_none_iff.mpr hticks]
      exact .idle (by simp) rfl
    · rw [asked_eq_none_iff.mpr hticks']
      simp
  | append_singleton post f ih =>
    rw [← List.cons_append, ← List.append_assoc] at h ⊢
    obtain ⟨hbefore, hstep, rfl⟩ := h.of_snoc
    obtain ⟨x, hx, hsup, hlis⟩ := ih hbefore
    exact kept_of_step? hstep hx hsup hlis

/-- **At every moment a delivery has kept its pace.** -/
theorem History.exists_kept (h : History setup .start tr s) (hx : s.deliveries[d]? = some x) :
    ∃ start, SupervisorKept setup start d tr x ∧ ListenerKept setup start d tr x.listener := by
  obtain ⟨i, e, he, hlaunch⟩ := h.exists_launches (List.getElem?_eq_some_iff.mp hx).1
  obtain ⟨pre, post, rfl⟩ := List.append_of_mem he
  obtain ⟨y, hy, hkept⟩ := h.kept hlaunch
  obtain rfl := Option.some.inj (hy.symm.trans hx)
  exact ⟨_, hkept⟩

/-- Who asked for something since a tick has started. -/
theorem History.exists_of_asked (h : History setup .start tr s)
    (hwho : who = .supervisor d ∨ who = .listener d) (hasked : asked who tr = some calls) :
    ∃ x, s.deliveries[d]? = some x := by
  refine Option.ne_none_iff_exists'.mp fun hnone => ?_
  rw [asked_eq_none_iff.mpr (h.quiet_of_none hnone hwho).1] at hasked
  contradiction

/-- **Before its first tick** a party of a delivery asks nothing. -/
theorem History.silent (h : History setup .start tr s)
    (hwho : who = .supervisor d ∨ who = .listener d) (hasked : asked who tr = none) :
    callsOf who tr = [] := by
  cases hx : s.deliveries[d]? with
  | none => exact (h.quiet_of_none hx hwho).2
  | some x =>
    obtain ⟨start, hsup, hlis⟩ := h.exists_kept hx
    rcases hwho with rfl | rfl
    · exact hsup.silent hasked
    · exact (hlis.silent hasked).1

/-- **Between two ticks a supervisor makes one attempt.** -/
theorem History.isAttempt (h : History setup .start tr s) (hx : s.deliveries[d]? = some x)
    (hasked : asked (.supervisor d) tr = some calls) :
    Escalation.IsAttempt x.options.recalcGas calls := by
  obtain ⟨start, hsup, -⟩ := h.exists_kept hx
  exact hsup.attempts.isAttempt hasked

/-- **Between two ticks a listener looks at two variants at most.** -/
theorem History.exists_look (h : History setup .start tr s)
    (hasked : asked (.listener d) tr = some calls) :
    ∃ hashes : List Hash, hashes.length ≤ 2 ∧ calls.Sublist (Listener.look hashes) := by
  obtain ⟨x, hx⟩ := h.exists_of_asked (.inr rfl) hasked
  obtain ⟨start, -, hlis⟩ := h.exists_kept hx
  exact (hlis.looks calls hasked).exists_look

/-! ### How often a node is asked to broadcast -/

/-- Time does not go back. -/
theorem now_le_of_step? (h : s.step? setup a = some (t, seen)) : s.now ≤ t.now := by
  rcases now_of_step? h with hnow | ⟨ms, rfl, hwait⟩
  · exact Nat.le_of_eq hnow.symm
  · obtain ⟨rfl, -⟩ : { s with now := s.now + ms } = t ∧ _ := by simpa [step?, hwait] using h
    exact Nat.le_add_right _ _

/-- Ticks are not served in the future. -/
theorem History.le_now_of_mem_tickTimes (h : History setup s tr t) {time : Nat}
    (hmem : time ∈ tickTimes who tr) : time ≤ t.now := by
  induction h with
  | nil => simp [tickTimes] at hmem
  | snoc _ hstep ih =>
    have hle := now_le_of_step? hstep
    rw [tickTimes_append] at hmem
    rcases List.mem_append.mp hmem with hmem | hmem
    · exact Nat.le_trans (ih hmem) hle
    · obtain ⟨e, he, htime⟩ := List.mem_filterMap.mp hmem
      obtain rfl := List.mem_singleton.mp he
      obtain ⟨-, htime⟩ := Option.ite_none_right_eq_some.mp htime
      obtain rfl := Option.some.inj htime
      exact hle

omit [DecidableEq κ] in
/-- **As many ticks as there was time for.** -/
theorem length_tickTimes_le {interval : Nat} {ticker : Ticker} (hpos : 0 < interval)
    (hpaced : Ticker.Paced start interval (tickTimes who tr) ticker)
    (hnow : ∀ time ∈ tickTimes who tr, time ≤ s.now) :
    (tickTimes who tr).length ≤ (s.now - start) / interval := by
  rw [Nat.le_div_iff_mul_le hpos]
  cases hlen : (tickTimes who tr).length with
  | zero => simp
  | succ n =>
    have hlast := List.getElem?_eq_getElem (l := tickTimes who tr) (i := n) (by omega)
    have hle := hpaced.le_served n _ hlast
    have hle' := hnow _ (List.mem_of_getElem? hlast)
    omega

/-- **An operation broadcasts once at most.** -/
theorem History.countP_first_broadcast_le (h : History setup .start tr s) (i : OperationId) :
    (callsOf (.operation i) tr).countP Call.isBroadcast ≤ 1 ∧
      (0 < (callsOf (.operation i) tr).countP Call.isBroadcast → ∃ n, (i, n) ∈ commits tr) := by
  induction h with
  | nil => simp [callsOf]
  | @snoc tr t u a seen h hstep ih =>
    obtain ⟨hone, hcommit⟩ := ih
    rw [callsOf_concat, List.countP_append, commits_concat]
    by_cases hb : ∃ tx, .called (.operation i) (.broadcast tx) ∈ seen
    · -- The nonce is committed in this step, and was not before.
      obtain ⟨tx, htx⟩ := hb
      obtain ⟨n, hn⟩ := commits_of_firstBroadcast hstep htx
      obtain ⟨-, _, signed, -, -, -, hseen⟩ := signed_of_commits hstep hn
      have hcommitted : (⟨t, a, seen, u⟩ : Transition κ).commit? = some (i, n) :=
        commit?_eq_some_iff.mpr hn
      have hzero : (callsOf (.operation i) tr).countP Call.isBroadcast = 0 := by
        refine Nat.eq_zero_of_not_pos fun hpos => ?_
        obtain ⟨m, hm⟩ := hcommit hpos
        exact (h.snoc hstep).commits_once hm n (by simp [commits, hcommitted])
      refine ⟨?_, fun _ => ⟨n, List.mem_append_right _ (by simp [hcommitted])⟩⟩
      rw [hzero]
      simp [Transition.calls, hseen, Observation.call?, Call.isBroadcast]
    · have hzero : (Transition.calls (.operation i) (⟨t, a, seen, u⟩ : Transition κ)).countP
          Call.isBroadcast = 0 := by
        refine List.countP_eq_zero.mpr fun call hcall hbroadcast => ?_
        obtain ⟨o, ho, hocall⟩ := List.mem_filterMap.mp hcall
        unfold Observation.call? at hocall
        split at hocall
        case h_1 who call' =>
          obtain ⟨rfl, hsome⟩ := Option.ite_none_right_eq_some.mp hocall
          obtain rfl := Option.some.inj hsome
          cases call' with
          | broadcast tx => exact hb ⟨tx, ho⟩
          | _ => contradiction
        all_goals contradiction
      rw [hzero, Nat.add_zero]
      exact ⟨hone, fun hpos => (hcommit hpos).imp fun _ hm => List.mem_append_left _ hm⟩

/-- **The pace of a delivery.** Let a delivery start at some moment of a run, with settings that are
in order. However long the calls take, and however late its ticks are served,

* the `k`-th tick of its supervisor, and of its listener, comes no earlier than `k` intervals later;
* from one tick of the supervisor to the next it makes one attempt: it asks for the price, for the
  gas if the caller wants it estimated anew, for one signature and one broadcast, in this order and
  possibly not to the end;
* from one tick of the listener to the next it looks at two variants at most, and asks for the
  receipt of each and the height of the chain at most;
* before their first ticks they ask nothing.

So the delivery is broadcast once at first, and once for every interval gone by at most. -/
theorem History.paced (h : History setup .start tr s) (he : e ∈ tr) (hlaunch : e.Launches i d)
    (hx : s.deliveries[d]? = some x) (hconfig : setup.config.offences = []) :
    (∀ k time, (tickTimes (.supervisor d) tr)[k]? = some time →
      e.before.now + (k + 1) * setup.config.changeIntervalMs ≤ time) ∧
    (∀ k time, (tickTimes (.listener d) tr)[k]? = some time →
      e.before.now + (k + 1) * setup.config.listenIntervalMs ≤ time) ∧
    (∀ pre f mid post, tr = pre ++ f :: mid ++ post → f.action = .tick d →
      (∀ f' ∈ mid, f'.action ≠ .tick d) →
      Escalation.IsAttempt x.options.recalcGas (callsOf (.supervisor d) (f :: mid))) ∧
    (∀ pre f mid post, tr = pre ++ f :: mid ++ post → f.action = .poll d →
      (∀ f' ∈ mid, f'.action ≠ .poll d) →
      ∃ hashes : List Hash, hashes.length ≤ 2 ∧
        (callsOf (.listener d) (f :: mid)).Sublist (Listener.look hashes)) ∧
    (∀ pre post, tr = pre ++ post →
      ((∀ f ∈ pre, f.action ≠ .tick d) → callsOf (.supervisor d) pre = []) ∧
      ((∀ f ∈ pre, f.action ≠ .poll d) → callsOf (.listener d) pre = [])) ∧
    (callsOf (.operation i) tr).countP Call.isBroadcast +
        (callsOf (.supervisor d) tr).countP Call.isBroadcast ≤
      1 + (s.now - e.before.now) / setup.config.changeIntervalMs := by
  obtain ⟨pre, post, rfl⟩ := List.append_of_mem he
  obtain ⟨y, hy, hsup, hlis⟩ := h.kept hlaunch
  have htick {f : Transition κ} : f.action.ticks? = some (.supervisor d) ↔ f.action = .tick d := by
    cases f.action <;> simp [Action.ticks?]
  have hpoll {f : Transition κ} : f.action.ticks? = some (.listener d) ↔ f.action = .poll d := by
    cases f.action <;> simp [Action.ticks?]
  refine ⟨hsup.paced.le_served, hlis.paced.le_served, ?_, ?_, ?_, ?_⟩
  · intro pre' f mid post' htr hf hmid
    rw [htr] at h
    obtain ⟨t, hpre, hpost⟩ := h.split
    have hasked : asked (.supervisor d) (pre' ++ f :: mid) = _ :=
      asked_of_ticks (htick.mpr hf) fun f' hf' hticks => hmid f' hf' (htick.mp hticks)
    obtain ⟨z, hz⟩ := hpre.exists_of_asked (.inl rfl) hasked
    obtain ⟨w, hw, -, hoptions, -⟩ := hpost.fixed hz
    obtain rfl := Option.some.inj (hw.symm.trans hx)
    exact hoptions ▸ hpre.isAttempt hz hasked
  · intro pre' f mid post' htr hf hmid
    rw [htr] at h
    obtain ⟨t, hpre, -⟩ := h.split
    exact hpre.exists_look (asked_of_ticks (hpoll.mpr hf) fun f' hf' hticks =>
      hmid f' hf' (hpoll.mp hticks))
  · intro pre' post' htr
    rw [htr] at h
    obtain ⟨t, hpre, -⟩ := h.split
    have hnone {who : Party} (hquiet : ∀ f ∈ pre', f.action.ticks? ≠ some who) :
        asked who pre' = none := by
      refine asked_eq_none_iff.mpr (List.filterMap_eq_nil_iff.mpr fun f hf => ?_)
      exact if_neg (hquiet f hf)
    exact ⟨fun hquiet => hpre.silent (.inl rfl) (hnone fun f hf hticks =>
        hquiet f hf (htick.mp hticks)),
      fun hquiet => hpre.silent (.inr rfl) (hnone fun f hf hticks =>
        hquiet f hf (hpoll.mp hticks))⟩
  · -- Each broadcast but the first is paid for by a tick, and each tick by an interval.
    have hfirst := (h.countP_first_broadcast_le i).1
    have hticks := length_tickTimes_le (DeliveryConfig.changeIntervalMs_pos hconfig) hsup.paced
      fun time htime => h.le_now_of_mem_tickTimes htime
    have hattempts : (callsOf (.supervisor d) (pre ++ e :: post)).countP Call.isBroadcast ≤
        (tickTimes (.supervisor d) (pre ++ e :: post)).length := by
      refine countP_callsOf_le _ (fun pre' hpre' hnone => ?_) fun pre' calls hpre' hasked => ?_
      all_goals
        obtain ⟨post', htr⟩ := hpre'
        have hcut := h
        rw [← htr] at hcut
        obtain ⟨t, hpre, -⟩ := hcut.split
      · exact hpre.silent (.inl rfl) hnone
      · obtain ⟨z, hz⟩ := hpre.exists_of_asked (.inl rfl) hasked
        exact (hpre.isAttempt hz hasked).countP_isBroadcast_le
    omega

/-- A run in which the market price is told later than the next tick was due. The tick is served as
soon as the supervisor is back, and a whole interval passes before the one after it. -/
def lateRun : List (Action Unit) :=
  [.begin (.send sampleTx {}), .resume 0, .reply (.operation 0) (.nonce 4),
    .reply (.operation 0) (.signed (sampleSigned 4)), .reply (.operation 0) (.accepted 4),
    .receive 0, .wait 10000, .poll 0, .wait 15000, .tick 0, .wait 40000,
    .reply (.supervisor 0) (.price 5), .tick 0, .reply (.supervisor 0) (.price 20),
    .reply (.supervisor 0) (.signed sampleReplacement), .reply (.supervisor 0) (.accepted 20),
    .wait 25000, .tick 0]

/-- In this run three ticks are served, none of them early, and two variants broadcast. -/
theorem paced_lateRun :
    ∃ (pre post : List (Transition Unit)) (e : Transition Unit) (s : Service Unit),
      History sampleSetup .start (pre ++ e :: post) s ∧
      (pre ++ e :: post).map (·.action) = lateRun ∧ e.Launches 0 0 ∧ e.before.now = 0 ∧
      sampleSetup.config.offences = [] ∧ sampleSetup.config.changeIntervalMs = 25000 ∧
      tickTimes (.supervisor 0) (pre ++ e :: post) = [25000, 65000, 90000] ∧
      (∀ k time, [25000, 65000, 90000][k]? = some time → (k + 1) * 25000 ≤ time) ∧ s.now = 90000 ∧
      (callsOf (.operation 0) (pre ++ e :: post)).countP Call.isBroadcast +
        (callsOf (.supervisor 0) (pre ++ e :: post)).countP Call.isBroadcast ≤
          1 + 90000 / 25000 := by
  have hrun : (start.trace? sampleSetup lateRun).bind (fun r => r.1[4]?.map fun e =>
      (startsFirst sampleSetup e, e.before.now, r.2.now, r.2.deliveries.length,
        tickTimes (.supervisor 0) r.1)) =
      some (true, 0, 90000, 1, [25000, 65000, 90000]) := by decide
  obtain ⟨pre, e, post, s, h, has, hb⟩ := exists_history_at hrun
  simp only [Prod.mk.injEq] at hb
  obtain ⟨hfirst, hstart, hnow, hlength, htimes⟩ := hb
  have hlaunch := launches_of_startsFirst hfirst
  have hx : s.deliveries[0]? = some s.deliveries[0] := List.getElem?_eq_getElem (by omega)
  have hinterval : sampleSetup.config.changeIntervalMs = 25000 := by decide
  obtain ⟨hchange, -, -, -, -, hbroadcasts⟩ :=
    h.paced (List.mem_append_right _ List.mem_cons_self) hlaunch hx (by decide)
  rw [htimes, hstart, hinterval] at hchange
  rw [hnow, hstart, hinterval] at hbroadcasts
  refine ⟨pre, post, e, s, h, has, hlaunch, hstart, by decide, hinterval, htimes,
    fun k time htime => ?_, hnow, hbroadcasts⟩
  have hle := hchange k time htime
  omega

end Service

end TxDelivery
