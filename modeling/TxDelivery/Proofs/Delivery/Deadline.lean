import TxDelivery.Config.Validation
import TxDelivery.Proofs.Delivery.Confirmed
import TxDelivery.Proofs.Delivery.Dialogue
import TxDelivery.Proofs.Delivery.Variants

/-!
# The deadline

A delivery has a period, which begins with the signature of its first variant
(`TxDelivery.Service.History.exists_signature`). A supervisor that waits never lets the end of the
period pass, as it waits for that too (`TxDelivery.Service.le_of_mayWait`); a supervisor that asked
for something waits for nothing but the reply. So **the deadline is kept exactly as long as no call
made for the delivery is under way when it passes**
(`TxDelivery.Service.History.deadline_honoured_iff`), and a replacement that is begun in time may be
signed, accepted and followed by the end of the delivery as late as the replies come
(`TxDelivery.Service.deadline_missed_overrunRun`).

Both sides of the equivalence are about the steps of a run and their times, and name no state of the
supervisor: what a kept deadline is (`TxDelivery.Service.HonoursDeadline`), and that the calls are
answered in time (`TxDelivery.Service.AnsweredInTime`). State comes in between. As long as a
delivery is under way its deadline has not passed (`TxDelivery.Service.InTime`), and one step keeps
this unless the deadline passes in it while a call is under way
(`TxDelivery.Service.InTime.step`): time passes only in steps in which nothing else happens
(`TxDelivery.Service.of_now_lt`), so a step that makes a delivery late is one that waits.

For the other direction, a delivery under way after its deadline has already broken it: its outcome
is still to come (`TxDelivery.Service.HonoursDeadline.le_of_isOpen`). If a call was under way when
the deadline passed, its supervisor was under way with it, and so the deadline was not kept.

A first broadcast counts as a call made for the delivery, since its deadline is fixed before there
is a delivery. This is why a delivery can be late from its start on.
-/

namespace TxDelivery

variable {κ : Type} {setup : Setup κ}

namespace Delivery

/-- A supervisor under way that asks for nothing waits. -/
theorem stage_of_call?_eq_none {x : Delivery} (hopen : x.isOpen = true) (hcall : x.call? = none) :
    x.stage = .waiting := by
  cases hs : x.stage <;> simp [isOpen, call?, hs] at hopen hcall ⊢

/-- A supervisor that asks for something is under way. -/
theorem isOpen_of_call?_eq_some {x : Delivery} {call : Call} (h : x.call? = some call) :
    x.isOpen = true := by
  cases hs : x.stage <;> simp [isOpen, call?, hs] at h ⊢

end Delivery

namespace Service

variable [DecidableEq κ] {s t : Service κ} {tr pre post : List (Transition κ)} {d : DeliveryId}
  {x y : Delivery} {a : Action κ} {seen : List Observation} {i : OperationId} {e : Transition κ}
  {deadline : Nat}

/-! ### Where a deadline comes from -/

/-- **What is broadcast first was signed one period before its deadline.** -/
theorem History.signature_of_broadcasting (h : History setup .start tr s) {sub : Submission κ}
    {signed : SignedTx} (hst : s.stage? i = some (.submitting sub))
    (hs : sub.stage = .broadcasting signed deadline) :
    ∃ e ∈ tr, e.action = .reply (.operation i) (.signed signed) ∧
      deadline = e.before.now + setup.config.periodMs := by
  induction h generalizing sub with
  | nil => simp [Service.start, stage?] at hst
  | @snoc tr t u a seen h hstep ih =>
    cases submissionSource_of_step? hstep hst with
    | still hst' =>
      obtain ⟨e, he, hsigned⟩ := ih hst' hs
      exact ⟨e, List.mem_append_left _ he, hsigned⟩
    | opened _ _ hsigned => simp [hs, Submission.Stage.isSigned] at hsigned
    | moved _ _ _ hnone => exact absurd hs (hnone _ _)
    | signed _ _ ha hsub =>
      rw [hsub] at hs
      obtain ⟨rfl, rfl⟩ := Submission.Stage.broadcasting.inj hs
      exact ⟨_, List.mem_append_right _ (List.mem_singleton_self _), ha, rfl⟩

/-- **The deadline of a delivery** is one period after the signature of the variant with which it
starts. -/
theorem History.exists_signature (h : History setup .start tr s)
    (hx : s.deliveries[d]? = some x) : ∃ i signed, ∃ e ∈ tr, ∃ e' ∈ tr,
      e.action = .reply (.operation i) (.signed signed) ∧ e'.Launches i d ∧
      e'.accepted? setup d = some signed ∧
      x.deadline = e.before.now + setup.config.periodMs := by
  induction h generalizing x with
  | nil => simp [Service.start] at hx
  | @snoc tr t u a seen h hstep ih =>
    have hkept {y : Delivery} (hy : t.deliveries[d]? = some y) :
        ∃ i signed, ∃ e ∈ tr ++ [⟨t, a, seen, u⟩], ∃ e' ∈ tr ++ [⟨t, a, seen, u⟩],
          e.action = .reply (.operation i) (.signed signed) ∧ e'.Launches i d ∧
          e'.accepted? setup d = some signed ∧
          x.deadline = e.before.now + setup.config.periodMs := by
      obtain ⟨i, signed, e, he, e', he', ha, hlaunch, haccepted, hdeadline⟩ := ih hy
      obtain ⟨z, hz, -, -, hfixed⟩ := (History.single hstep).fixed hy
      obtain rfl := Option.some.inj (hz.symm.trans hx)
      exact ⟨i, signed, e, List.mem_append_left _ he, e', List.mem_append_left _ he', ha, hlaunch,
        haccepted, hfixed.trans hdeadline⟩
    cases deliveryMove_of_step? hstep (d := d) with
    | still ht => exact hkept (ht ▸ hx)
    | concluded hy | proceeded hy | abandoned hy => exact hkept hy
    | @launched i sub signed deadline hash hd ha hst hs ht =>
      obtain rfl := Option.some.inj (ht.symm.trans hx)
      obtain ⟨e, he, hsigned, hdeadline⟩ := h.signature_of_broadcasting hst hs
      have haccepted : (⟨t, a, seen, u⟩ : Transition κ).accepted? setup d = some signed :=
        accepted?_eq_some_iff.mpr (.inl ⟨i, hash, ha, hd.symm,
          broadcasting?_operation_eq_some_iff.mpr ⟨sub, deadline, hst, hs⟩⟩)
      exact ⟨i, signed, e, List.mem_append_left _ he, _,
        List.mem_append_right _ (List.mem_singleton_self _), hsigned,
        ⟨⟨hash, ha⟩, ⟨sub, signed, deadline, hst, hs⟩, hd⟩, haccepted, hdeadline⟩

/-! ### Time and the supervisor -/

/-- **Time does not pass what a supervisor waits for**: its next tick and its deadline. -/
theorem le_of_mayWait {ms : Nat} (h : s.mayWait setup ms = true) (hx : s.deliveries[d]? = some x)
    (hs : x.stage = .waiting) : s.now + ms ≤ x.ticker.due ∧ s.now + ms ≤ x.deadline := by
  have htimers (time : Nat) (htime : time ∈ [x.ticker.due, x.deadline]) : s.now + ms ≤ time := by
    have hmem : time ∈ s.timers := by
      refine List.mem_flatMap.mpr ⟨x, List.mem_of_getElem? hx, List.mem_append_left _ ?_⟩
      rwa [if_pos (Delivery.isWaiting_iff.mpr hs)]
    exact of_decide_eq_true (List.all_eq_true.mp (Bool.and_eq_true_iff.mp h).2 time hmem)
  exact ⟨htimers _ (by simp), htimers _ (by simp)⟩

/-- **When time passes nothing else happens**, and no supervisor that waits misses anything. -/
theorem of_now_lt (h : s.step? setup a = some (t, seen)) (hlt : s.now < t.now) :
    t.deliveries = s.deliveries ∧ ∀ (d : DeliveryId) x, s.deliveries[d]? = some x →
      x.stage = .waiting → t.now ≤ x.ticker.due ∧ t.now ≤ x.deadline := by
  rcases now_of_step? h with hnow | ⟨ms, rfl, hwait⟩
  · exact absurd hnow (Nat.ne_of_gt hlt)
  · obtain ⟨rfl, -⟩ : { s with now := s.now + ms } = t ∧ _ := by simpa [step?, hwait] using h
    exact ⟨rfl, fun d x hx hs => le_of_mayWait hwait hx hs⟩

omit [DecidableEq κ] in
/-- What a supervisor is asking. -/
theorem pending?_supervisor (hx : s.deliveries[d]? = some x) :
    s.pending? setup (.supervisor d) = x.call? := by
  simp only [pending?, hx, Option.bind_eq_bind, Option.bind_some]

/-- Whoever gets a reply for a delivery's supervisor is under way. -/
theorem isOpen_of_reply {reply : Reply}
    (h : s.step? setup (.reply (.supervisor d) reply) = some (t, seen)) :
    ∃ x, s.deliveries[d]? = some x ∧ x.isOpen = true := by
  cases deliveryTurn_of_delivery? h rfl with
  | other ha | launched ha | abandoned ha => exact absurd rfl ha
  | ended hx hends => exact ⟨_, hx, hends.isOpen⟩
  | proceeded hx hproceeds =>
    refine ⟨_, hx, ?_⟩
    cases hproceeds with
    | ask hs | keep hs | broadcast hs | retry hs | adopt hs | reject hs =>
      simp [Delivery.isOpen, hs]

/-- The delivery that starts in a step is under way, and waits. -/
theorem Transition.Launches.waiting (h : e.Launches i d)
    (hstep : e.before.step? setup e.action = some (e.after, e.seen)) :
    ∃ y, e.after.deliveries[d]? = some y ∧ y.stage = .waiting ∧ e.after.now = e.before.now := by
  obtain ⟨⟨hash, ha⟩, ⟨sub, signed, deadline, hst, hs⟩, rfl⟩ := h
  have hnow : e.after.now = e.before.now := by
    rcases now_of_step? hstep with hnow | ⟨ms, hwait, -⟩
    · exact hnow
    · rw [ha] at hwait
      contradiction
  have hnone : e.before.deliveries[e.before.deliveries.length]? = none :=
    List.getElem?_eq_none (Nat.le_refl _)
  rw [ha] at hstep
  cases deliveryMove_of_step? hstep (d := e.before.deliveries.length) with
  | launched _ _ _ _ ht => exact ⟨_, ht, rfl, hnow⟩
  | concluded hx | proceeded hx | abandoned hx =>
    rw [hnone] at hx
    contradiction
  | still ht =>
    obtain ⟨x, hx, -⟩ := deliveries_of_launch hstep
      (broadcasting?_operation_eq_some_iff.mpr ⟨sub, deadline, hst, hs⟩)
    rw [hx, List.getElem?_concat_length, hnone] at ht
    contradiction

/-! ### Keeping a deadline -/

/-- **A run keeps the deadline of a delivery.** -/
structure HonoursDeadline (setup : Setup κ) (d : DeliveryId) (deadline : Nat)
    (tr : List (Transition κ)) : Prop where
  /-- No replacement is signed later. -/
  signed : ∀ e ∈ tr, ∀ tx, e.action = .reply (.supervisor d) (.signed tx) →
    e.before.now ≤ deadline
  /-- No replacement is accepted later. -/
  accepted : ∀ e ∈ tr, ∀ hash, e.action = .reply (.supervisor d) (.accepted hash) →
    e.before.now ≤ deadline
  /-- Nothing is published later. -/
  published : ∀ e ∈ tr, ∀ outcome, .published d outcome ∈ e.seen → e.before.now ≤ deadline
  /-- Whenever it is later the outcome has been published, unless the caller dropped the
  delivery. -/
  prompt : ∀ pre post t y, tr = pre ++ post → History setup .start pre t →
    t.deliveries[d]? = some y → deadline < t.now →
    (∃ outcome, outcomesOf d pre = [outcome]) ∨ y.stage = .dropped

/-- **No call made for a delivery is under way when its deadline passes**: not the first broadcast,
and nothing its supervisor asks. -/
structure AnsweredInTime (setup : Setup κ) (d : DeliveryId) (deadline : Nat)
    (tr : List (Transition κ)) : Prop where
  /-- The first broadcast is accepted in time. -/
  first : ∀ e ∈ tr, ∀ i, e.Launches i d → e.before.now ≤ deadline
  /-- The supervisor waits for no reply when the deadline passes. -/
  asked : ∀ e ∈ tr, e.before.now ≤ deadline → deadline < e.after.now →
    e.before.pending? setup (.supervisor d) = none

/-- As long as a delivery is under way its deadline has not passed. -/
def InTime (s : Service κ) (d : DeliveryId) (deadline : Nat) : Prop :=
  ∀ x, s.deliveries[d]? = some x → x.isOpen = true → s.now ≤ deadline

/-- **One step keeps a delivery in time**, unless the deadline passes while it has a call under
way. -/
theorem InTime.step (hs : s.InTime d deadline) (h : s.step? setup a = some (t, seen))
    (hdeadline : ∀ x, s.deliveries[d]? = some x → x.deadline = deadline)
    (hlaunch : ∀ i, (⟨s, a, seen, t⟩ : Transition κ).Launches i d → s.now ≤ deadline)
    (hasked : s.now ≤ deadline → deadline < t.now → s.pending? setup (.supervisor d) = none) :
    t.InTime d deadline := by
  intro y hy hopen
  rcases Nat.lt_or_ge s.now t.now with hlt | hge
  · -- Time passes: no further than the deadline if the supervisor waits, and it waits for sure if
    -- the deadline would pass.
    obtain ⟨hsame, hwaits⟩ := of_now_lt h hlt
    rw [hsame] at hy
    by_contra hlate
    have hpending := hasked (hs y hy hopen) (Nat.lt_of_not_le hlate)
    rw [pending?_supervisor hy] at hpending
    have hwaiting := Delivery.stage_of_call?_eq_none hopen hpending
    exact hlate (hdeadline y hy ▸ (hwaits d y hy hwaiting).2)
  · refine Nat.le_trans hge ?_
    have hsame {y' : Delivery} (hy' : t.deliveries[d]? = some y') : y' = y :=
      Option.some.inj (hy'.symm.trans hy)
    cases deliveryMove_of_step? h (d := d) with
    | still ht => exact hs y (ht ▸ hy) hopen
    | launched hd ha hst hs' => exact hlaunch _ ⟨⟨_, ha⟩, ⟨_, _, _, hst, hs'⟩, hd⟩
    | concluded hx hends => exact hs _ hx hends.isOpen
    | proceeded hx hproceeds ht =>
      obtain rfl := hsame ht
      exact hs _ hx (hproceeds.isOpen_eq.symm.trans hopen)
    | abandoned hx _ _ ht =>
      obtain rfl := hsame ht
      contradiction

/-- **A delivery all of whose calls are answered in time stays in time.** -/
theorem History.inTime (h : History setup .start tr s)
    (hdeadline : ∀ e ∈ tr, ∀ x, e.before.deliveries[d]? = some x → x.deadline = deadline)
    (hanswered : AnsweredInTime setup d deadline tr) : s.InTime d deadline := by
  refine h.invariant (P := fun s => s.InTime d deadline) ?_ fun e he hstep ih => ?_
  · intro x hx
    simp [Service.start] at hx
  · exact ih.step hstep (hdeadline e he) (hanswered.first e he) (hanswered.asked e he)

omit [DecidableEq κ] in
/-- A part of a run has its calls answered in time if the run has. -/
theorem AnsweredInTime.of_append (h : AnsweredInTime setup d deadline (pre ++ post)) :
    AnsweredInTime setup d deadline pre :=
  ⟨fun e he => h.first e (List.mem_append_left _ he),
    fun e he => h.asked e (List.mem_append_left _ he)⟩

/-- The deadline of a delivery is the same all along a run. -/
theorem History.deadline_eq (h : History setup .start (pre ++ e :: post) s)
    (hx : s.deliveries[d]? = some x) (hy : e.before.deliveries[d]? = some y) :
    y.deadline = x.deadline := by
  obtain ⟨-, hstep, hpost⟩ := h.around
  obtain ⟨z, hz, -, -, hdeadline⟩ := ((History.single hstep).append hpost).fixed hy
  obtain rfl := Option.some.inj (hz.symm.trans hx)
  exact hdeadline.symm

/-- **Whose calls are answered in time keeps its deadline.** -/
theorem History.honoursDeadline (h : History setup .start tr s) (hx : s.deliveries[d]? = some x)
    (hanswered : AnsweredInTime setup d x.deadline tr) :
    HonoursDeadline setup d x.deadline tr := by
  have hbefore : ∀ e ∈ tr, ∀ y, e.before.deliveries[d]? = some y → y.deadline = x.deadline := by
    intro e he y hy
    obtain ⟨pre, post, rfl⟩ := List.append_of_mem he
    exact h.deadline_eq hx hy
  have hpart {pre post : List (Transition κ)} {t : Service κ} (htr : tr = pre ++ post)
      (hpre : History setup .start pre t) : t.InTime d x.deadline := by
    subst htr
    exact hpre.inTime (fun e he => hbefore e (List.mem_append_left _ he)) hanswered.of_append
  have hstep (e : Transition κ) (he : e ∈ tr) (y : Delivery)
      (hy : e.before.deliveries[d]? = some y) (hopen : y.isOpen = true) :
      e.before.now ≤ x.deadline := by
    obtain ⟨pre, post, rfl⟩ := List.append_of_mem he
    exact hpart rfl h.around.1 y hy hopen
  have htaken (e : Transition κ) (he : e ∈ tr) :
      e.before.step? setup e.action = some (e.after, e.seen) := by
    obtain ⟨pre, post, rfl⟩ := List.append_of_mem he
    exact h.around.2.1
  refine ⟨fun e he tx ha => ?_, fun e he hash ha => ?_, fun e he outcome ho => ?_,
    fun pre post t y htr hpre hy hlate => ?_⟩
  · obtain ⟨y, hy, hopen⟩ := isOpen_of_reply (ha ▸ htaken e he)
    exact hstep e he y hy hopen
  · obtain ⟨y, hy, hopen⟩ := isOpen_of_reply (ha ▸ htaken e he)
    exact hstep e he y hy hopen
  · obtain ⟨⟨y, hy, hends⟩, -⟩ := ends_of_published (htaken e he) ho
    exact hstep e he y hy hends.isOpen
  · have hclosed : y.isOpen = false := by
      refine Bool.eq_false_iff.mpr fun hopen => ?_
      exact Nat.not_le_of_lt hlate (hpart htr hpre y hy hopen)
    cases hs : y.stage with
    | ended outcome =>
      refine .inl ⟨outcome, ?_⟩
      rw [hpre.outcomesOf_eq, outcome?_eq hy, Delivery.outcome?, hs]
      rfl
    | dropped => exact .inr rfl
    | _ => simp [Delivery.isOpen, hs] at hclosed

/-- **A delivery under way that is late** breaks its deadline. -/
theorem HonoursDeadline.le_of_isOpen (hkept : HonoursDeadline setup d deadline (pre ++ post))
    (h : History setup .start pre t) (hy : t.deliveries[d]? = some y) (hopen : y.isOpen = true) :
    t.now ≤ deadline := by
  by_contra hlate
  rcases hkept.prompt pre post t y rfl h hy (Nat.lt_of_not_le hlate) with ⟨outcome, hout⟩ | hdropped
  · rw [h.outcomesOf_eq, outcome?_eq hy, Delivery.outcome?_of_isOpen hopen] at hout
    simp at hout
  · simp [Delivery.isOpen, hdropped] at hopen

/-- **When a deadline is kept.** The deadline of a delivery is one period after the signature of its
first variant. It is kept – no replacement signed or accepted, nothing published later, and the
outcome published by then unless the caller drops the delivery – exactly if no call made for the
delivery is under way when the deadline passes. Once it has passed, time goes on only while the
supervisor waits for a reply. -/
theorem History.deadline_honoured_iff (h : History setup .start tr s)
    (hx : s.deliveries[d]? = some x) :
    (∃ i signed, ∃ e ∈ tr, ∃ e' ∈ tr, e.action = .reply (.operation i) (.signed signed) ∧
      e'.Launches i d ∧ e'.accepted? setup d = some signed ∧
      x.deadline = e.before.now + setup.config.periodMs) ∧
    (HonoursDeadline setup d x.deadline tr ↔ AnsweredInTime setup d x.deadline tr) ∧
    ∀ e ∈ tr, ∀ y, e.before.deliveries[d]? = some y → y.isOpen = true →
      x.deadline ≤ e.before.now → e.before.now < e.after.now →
      (e.before.pending? setup (.supervisor d)).isSome = true := by
  refine ⟨h.exists_signature hx, ⟨fun hkept => ⟨fun e he i hlaunch => ?_,
    fun e he hearly hlate => ?_⟩, h.honoursDeadline hx⟩, fun e he y hy hopen hlate hlt => ?_⟩
  all_goals obtain ⟨pre, post, rfl⟩ := List.append_of_mem he
  all_goals obtain ⟨hpre, hstep, -⟩ := h.around
  · obtain ⟨y, hy, hs, hnow⟩ := hlaunch.waiting hstep
    rw [← hnow]
    rw [List.append_cons] at hkept
    exact hkept.le_of_isOpen (hpre.snoc hstep) hy (by simp [Delivery.isOpen, hs])
  · refine Option.eq_none_iff_forall_ne_some.mpr fun call hcall => ?_
    cases hy : e.before.deliveries[d]? with
    | none => simp [pending?, hy] at hcall
    | some y =>
      rw [pending?_supervisor hy] at hcall
      have hafter : e.after.deliveries[d]? = some y := by
        rw [(of_now_lt hstep (Nat.lt_of_le_of_lt hearly hlate)).1, hy]
      rw [List.append_cons] at hkept
      have hle := hkept.le_of_isOpen (hpre.snoc hstep) hafter
        (Delivery.isOpen_of_call?_eq_some hcall)
      exact Nat.not_le_of_lt hlate hle
  · rw [pending?_supervisor hy, Option.isSome_iff_ne_none]
    intro hcall
    -- A supervisor that waits would not have let time pass.
    have hwaiting := Delivery.stage_of_call?_eq_none hopen hcall
    have hle := ((of_now_lt hstep hlt).2 d y hy hwaiting).2
    rw [h.deadline_eq hx hy] at hle
    omega

/-- A service whose deliveries have forty seconds. -/
def briefSetup : Setup Unit :=
  ⟨{ periodSecs := 40, changeIntervalSecs := 30, listenIntervalSecs := 35 }, 7, fun _ => ()⟩

/-- A run in which the price is read in time, and time goes on after the deadline. -/
def punctualRun : List (Action Unit) :=
  [.begin (.send sampleTx {}), .resume 0, .reply (.operation 0) (.nonce 4),
    .reply (.operation 0) (.signed (sampleSigned 4)), .reply (.operation 0) (.accepted 4),
    .receive 0, .wait 30000, .tick 0, .reply (.supervisor 0) (.price 5), .wait 5000, .poll 0,
    .reply (.listener 0) (.receipt none), .wait 5000, .expire 0, .wait 10000]

/-- In this run the deadline is kept. -/
theorem deadline_honoured_iff_punctualRun :
    ∃ (tr : List (Transition Unit)) (s : Service Unit) (x : Delivery),
      History briefSetup .start tr s ∧ tr.map (·.action) = punctualRun ∧
      s.deliveries[0]? = some x ∧ x.deadline = 40000 ∧ s.now = 50000 ∧
      HonoursDeadline briefSetup 0 x.deadline tr := by
  have hrun : (start.trace? briefSetup punctualRun).map
      (fun r => (r.2.deliveries[0]?.map (·.deadline), r.2.now, r.1.all fun e =>
        decide ((0 = e.before.deliveries.length → e.before.now ≤ 40000) ∧
          (e.before.now ≤ 40000 → 40000 < e.after.now →
            e.before.pending? briefSetup (.supervisor 0) = none)))) =
      some (some 40000, 50000, true) := by decide
  obtain ⟨tr, s, h, has, hf⟩ := exists_history hrun
  obtain ⟨hx, hf⟩ := Prod.mk.inj hf
  obtain ⟨hnow, hall⟩ := Prod.mk.inj hf
  obtain ⟨x, hx, hdeadline⟩ := Option.map_eq_some_iff.mp hx
  have hchecked (e : Transition Unit) (he : e ∈ tr) :=
    of_decide_eq_true (List.all_eq_true.mp hall e he)
  refine ⟨tr, s, x, h, has, hx, hdeadline, hnow, ?_⟩
  refine (h.deadline_honoured_iff hx).2.1.mpr ⟨fun e he i hlaunch => ?_, fun e he => ?_⟩
  · rw [hdeadline]
    exact (hchecked e he).1 hlaunch.2.2
  · rw [hdeadline]
    exact (hchecked e he).2

/-- A run in which the price is asked for in time and told after the deadline. -/
def overrunRun : List (Action Unit) :=
  [.begin (.send sampleTx {}), .resume 0, .reply (.operation 0) (.nonce 4),
    .reply (.operation 0) (.signed (sampleSigned 4)), .reply (.operation 0) (.accepted 4),
    .receive 0, .wait 30000, .tick 0, .wait 5000, .poll 0, .reply (.listener 0) (.receipt none),
    .wait 5000, .lapse 0, .wait 5000, .reply (.supervisor 0) (.price 20),
    .reply (.supervisor 0) (.signed sampleReplacement), .reply (.supervisor 0) (.accepted 20),
    .expire 0]

/-- **A deadline that is missed**: with settings that are in order, a replacement is signed and
accepted five seconds after the deadline, and only then the delivery is given up. -/
theorem deadline_missed_overrunRun :
    briefSetup.config.offences = [] ∧
    ∃ (tr : List (Transition Unit)) (s : Service Unit) (x : Delivery),
      History briefSetup .start tr s ∧ tr.map (·.action) = overrunRun ∧
      s.deliveries[0]? = some x ∧ x.deadline = 40000 ∧
      (∃ e ∈ tr, e.before.now = 45000 ∧
        e.action = .reply (.supervisor 0) (.signed sampleReplacement)) ∧
      (∃ e ∈ tr, e.before.now = 45000 ∧ e.action = .reply (.supervisor 0) (.accepted 20)) ∧
      (∃ e ∈ tr, e.before.now = 45000 ∧ .published 0 (.failed ⟨sampleReplacement,
        .timeout briefSetup.config.period⟩) ∈ e.seen) ∧
      ¬ HonoursDeadline briefSetup 0 x.deadline tr := by
  refine ⟨by decide, ?_⟩
  have hrun : (start.trace? briefSetup overrunRun).map
      (fun r => (r.2.deliveries[0]?.map (·.deadline), (r.1.map Transition.moment).drop 15)) =
      some (some 40000,
        [⟨45000, .reply (.supervisor 0) (.signed sampleReplacement),
            [.called (.supervisor 0) (.broadcast sampleReplacement)]⟩,
          ⟨45000, .reply (.supervisor 0) (.accepted 20), [.logged .rebroadcast]⟩,
          ⟨45000, .expire 0, [.logged .failed, .published 0 (.failed ⟨sampleReplacement,
            .timeout briefSetup.config.period⟩)]⟩]) := by decide
  obtain ⟨tr, s, h, has, hf⟩ := exists_history hrun
  obtain ⟨hx, hmoments⟩ := Prod.mk.inj hf
  obtain ⟨x, hx, hdeadline⟩ := Option.map_eq_some_iff.mp hx
  have hlate {m : Moment Unit} (hm : m ∈ (tr.map Transition.moment).drop 15) :
      ∃ e ∈ tr, e.moment = m := List.mem_map.mp (List.mem_of_mem_drop hm)
  rw [hmoments] at hlate
  simp only [List.mem_cons, List.not_mem_nil, or_false] at hlate
  obtain ⟨e₁, he₁, hm₁⟩ := hlate (.inl rfl)
  obtain ⟨e₂, he₂, hm₂⟩ := hlate (.inr (.inl rfl))
  obtain ⟨e₃, he₃, hm₃⟩ := hlate (.inr (.inr rfl))
  simp only [Transition.moment, Moment.mk.injEq] at hm₁ hm₂ hm₃
  refine ⟨tr, s, x, h, has, hx, hdeadline, ⟨e₁, he₁, hm₁.1, hm₁.2.1⟩, ⟨e₂, he₂, hm₂.1, hm₂.2.1⟩,
    ⟨e₃, he₃, hm₃.1, by simp [hm₃.2.2]⟩, fun hkept => ?_⟩
  have hle := hkept.signed e₁ he₁ _ hm₁.2.1
  rw [hm₁.1, hdeadline] at hle
  omega

end Service

end TxDelivery
