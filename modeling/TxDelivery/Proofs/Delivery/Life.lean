import TxDelivery.Proofs.Delivery.Move
import TxDelivery.Proofs.History

/-!
# The life of a delivery

What holds of every delivery at all times (`TxDelivery.Delivery.Invariant`): it holds when a
delivery starts, and everything that can happen to a delivery keeps it. A property of that kind is
shown by looking at one delivery and the four things that can become of it; the service around it,
and the run, come in once and for all (`TxDelivery.Service.History.delivery`).

The first of these facts is that **a delivery that is over is over for good**
(`TxDelivery.Delivery.quiet_invariant`): its listener has stopped with it, so that neither of the
two can do anything any more (`TxDelivery.Delivery.not_proceeds_of_over`).

## Callers

The second is not of that kind, as it is about two parties: how a delivery and the caller who waits
for it belong together (`TxDelivery.Service.Owned`). **The caller waits exactly as long as the
delivery is under way, and ends with its outcome**: where the caller is, is a function of where the
delivery is (`TxDelivery.Service.ownerStage`). In one direction this says what a caller gets. In the
other it says that a caller who waits has a delivery to wait for, and that nobody waits for one that
is over, without which a delivery could end a second time in the step that drops its caller.

The induction is on the run, with the steps taken as what they are to the delivery; the step that
ends one changes both of the two at once, and the step in which a caller drops it does too. What is
new about a delivery that starts is that nobody could have waited for it before.

From there it follows what a call that waits for the outcome can be at
(`TxDelivery.Service.Waiting`), and that an operation that has ended keeps what it ended with
(`TxDelivery.Service.History.stage?_eq_of_ended`).
-/

namespace TxDelivery

variable {κ : Type} {setup : Setup κ}

namespace Delivery

variable {now : Nat} {d : DeliveryId} {x x' : Delivery} {m m' : Metrics} {a : Action κ}
  {seen : List Observation} {outcome : Outcome}

/-- The delivery after its end. -/
def close (x : Delivery) (outcome : Outcome) : Delivery :=
  { x with stage := .ended outcome, listener := x.listener.stop }

/-- **What every delivery keeps**, whatever happens to it. -/
structure Invariant (setup : Setup κ) (P : Delivery → Prop) : Prop where
  /-- It holds of a delivery that starts. -/
  start : ∀ now owner options deadline first,
    P (.start setup.config now owner options deadline first)
  /-- It is kept when the delivery ends. -/
  ends : ∀ {now d x a outcome}, x.Ends setup now d a outcome → P x → P (x.close outcome)
  /-- It is kept when the delivery proceeds. -/
  proceeds : ∀ {now d x m a x' m' seen}, x.Proceeds setup now d m a x' m' seen → P x → P x'
  /-- It is kept when the caller drops the delivery. -/
  abandon : ∀ {x}, P x → P x.abandon

/-- Only a delivery under way ends. -/
theorem Ends.isOpen (h : x.Ends setup now d a outcome) : x.isOpen = true := by
  cases h <;> simp [Delivery.isOpen, *]

/-- Who waits for a delivery, what was asked for and until when never changes. -/
theorem Proceeds.fixed (h : x.Proceeds setup now d m a x' m' seen) :
    x'.owner = x.owner ∧ x'.options = x.options ∧ x'.deadline = x.deadline := by
  cases h <;> exact ⟨rfl, rfl, rfl⟩

/-- **Whoever proceeds is not over**: the supervisor is at work and stays so, or the listener is.
Both leave it to the other what the other is doing. -/
theorem Proceeds.cases_open (h : x.Proceeds setup now d m a x' m' seen) :
    x.isOpen = true ∧ x'.isOpen = true ∧ x'.listener.stage = x.listener.stage ∨
      x.listener.isOver = false ∧ x'.stage = x.stage := by
  cases h with
  | tick hs | ask hs | keep hs | broadcast hs | retry hs | adopt hs | reject hs =>
    exact .inl ⟨by simp [Delivery.isOpen, hs], rfl, rfl⟩
  | note hs | noteStopped hs =>
    exact .inl ⟨by simp [Delivery.isOpen, hs], by simp [Delivery.isOpen, hs], rfl⟩
  | crash hl => exact .inr ⟨hl, rfl⟩
  | receive hl | poll hl | lapse hl | answer hl =>
    refine .inr ⟨?_, rfl⟩
    cases hstage : x.listener.stage <;>
      simp [Listener.isOver, Listener.receive?, Listener.poll?, Listener.lapse?,
        Listener.advance?, Listener.isWaiting, hstage] at hl ⊢

/-- A watch that is over stays as it ended. -/
theorem Proceeds.stage_of_isOver (h : x.Proceeds setup now d m a x' m' seen)
    (hl : x.listener.isOver = true) : x'.listener.stage = x.listener.stage := by
  rcases h.cases_open with ⟨-, -, hstage⟩ | ⟨hover, -⟩
  · exact hstage
  · rw [hl] at hover
    contradiction

/-- Who proceeds stays under way, or over. -/
theorem Proceeds.isOpen_eq (h : x.Proceeds setup now d m a x' m' seen) : x'.isOpen = x.isOpen := by
  rcases h.cases_open with ⟨hopen, hopen', -⟩ | ⟨-, hstage⟩
  · rw [hopen, hopen']
  · simp only [isOpen, hstage]

/-- **Nothing happens to a delivery that is over.** -/
theorem not_proceeds_of_over (hx : x.isOpen = false) (hl : x.listener.isOver = true) :
    ¬ x.Proceeds setup now d m a x' m' seen := by
  intro h
  rcases h.cases_open with ⟨hopen, -⟩ | ⟨hover, -⟩
  · rw [hx] at hopen
    contradiction
  · rw [hl] at hover
    contradiction

/-- **A delivery is over together with its watch.** -/
theorem quiet_invariant :
    Invariant setup fun x => x.isOpen = false → x.listener.isOver = true where
  start _ _ _ _ _ h := by simp [Delivery.start, Delivery.isOpen] at h
  ends _ _ _ := Listener.isOver_stop _
  proceeds h ih hx' := by
    rcases h.cases_open with ⟨-, hopen, -⟩ | ⟨hover, hstage⟩
    · rw [hx'] at hopen
      contradiction
    · simp only [isOpen, hstage] at hx'
      rw [ih hx'] at hover
      contradiction
  abandon _ _ := Listener.isOver_stop _

end Delivery

namespace Service

variable [DecidableEq κ] {s t u : Service κ} {tr tr' : List (Transition κ)} {d : DeliveryId}
  {x : Delivery} {a : Action κ} {seen : List Observation} {i : OperationId}

/-- What every delivery keeps holds of the deliveries after a step. -/
theorem delivery_of_step? {P : Delivery → Prop} (hP : Delivery.Invariant setup P)
    (h : s.step? setup a = some (t, seen))
    (hs : ∀ (d : DeliveryId) x, s.deliveries[d]? = some x → P x)
    (ht : t.deliveries[d]? = some x) : P x := by
  have hsome {x' : Delivery} (ht' : t.deliveries[d]? = some x') (hx' : P x') : P x := by
    obtain rfl : x' = x := Option.some.inj (ht'.symm.trans ht)
    exact hx'
  cases deliveryMove_of_step? h (d := d) with
  | still hd => exact hs d x (hd ▸ ht)
  | launched _ _ _ _ ht' => exact hsome ht' (hP.start ..)
  | concluded hx hends ht' => exact hsome ht' (hP.ends hends (hs _ _ hx))
  | proceeded hx hproceeds ht' => exact hsome ht' (hP.proceeds hproceeds (hs _ _ hx))
  | abandoned hx _ _ ht' => exact hsome ht' (hP.abandon (hs _ _ hx))

/-- **What every delivery keeps holds of every delivery**, at every moment. -/
theorem History.delivery {P : Delivery → Prop} (h : History setup .start tr s)
    (hP : Delivery.Invariant setup P) (hx : s.deliveries[d]? = some x) : P x := by
  have hall : ∀ (d : DeliveryId) x, s.deliveries[d]? = some x → P x := by
    refine h.invariant (P := fun s => ∀ (d : DeliveryId) x, s.deliveries[d]? = some x → P x) ?_ ?_
    · intro d x hx
      simp [Service.start] at hx
    · intro e _ hstep ih d x hx
      exact delivery_of_step? hP hstep ih hx
  exact hall d x hx

/-- **A delivery that is over stays as it is**, and nothing more is seen of it. -/
theorem over_of_step? (h : s.step? setup a = some (t, seen)) (hx : s.deliveries[d]? = some x)
    (hclosed : x.isOpen = false) (hover : x.listener.isOver = true)
    (hwait : ∀ i, s.stage? i ≠ some (.supervising d)) :
    t.deliveries[d]? = some x ∧ ∀ o ∈ seen, o.delivery? ≠ some d := by
  have hsame {x' : Delivery} (hx' : s.deliveries[d]? = some x') : x' = x :=
    Option.some.inj (hx'.symm.trans hx)
  cases deliveryMove_of_step? h (d := d) with
  | still ht hseen => exact ⟨ht ▸ hx, hseen⟩
  | launched hd =>
    rw [hd] at hx
    simp at hx
  | concluded hx' hends =>
    obtain rfl := hsame hx'
    rw [hends.isOpen] at hclosed
    contradiction
  | proceeded hx' hproceeds =>
    obtain rfl := hsame hx'
    exact absurd hproceeds (Delivery.not_proceeds_of_over hclosed hover)
  | abandoned hx' _ hst => exact absurd hst (hwait _)

/-! ### Callers and their deliveries -/

/-- Where the caller is who waits for a delivery. -/
def ownerStage (d : DeliveryId) (x : Delivery) : Operation.Stage κ :=
  match x.stage with
  | .ended outcome => .ended (.delivered outcome)
  | .dropped => .dropped
  | .waiting | .replacing _ | .rebroadcasting _ => .supervising d

omit [DecidableEq κ] in
/-- The caller waits for a delivery under way. -/
theorem ownerStage_of_isOpen (h : x.isOpen = true) :
    (ownerStage d x : Operation.Stage κ) = .supervising d := by
  cases hs : x.stage <;> simp [Delivery.isOpen, ownerStage, hs] at h ⊢

omit [DecidableEq κ] in
/-- **Who waits for a delivery is not at work on anything else.** -/
theorem isActive_ownerStage : (ownerStage d x : Operation.Stage κ).isActive = false := by
  cases hs : x.stage <;> simp [Operation.Stage.isActive, ownerStage, hs]

/-- **Callers and the deliveries they wait for belong together.** -/
structure Owned (s : Service κ) : Prop where
  /-- The caller who waits for a delivery is where the delivery is. -/
  owner : ∀ {d : DeliveryId} {x : Delivery} {i : OperationId}, s.deliveries[d]? = some x →
    x.owner = some i → s.stage? i = some (ownerStage d x)
  /-- A caller who waits waits for a delivery. -/
  waits : ∀ {i : OperationId} {d : DeliveryId}, s.stage? i = some (.supervising d) →
    ∃ x, s.deliveries[d]? = some x ∧ x.owner = some i

namespace Owned

omit [DecidableEq κ] in
/-- **The owner of a delivery under way waits for it.** -/
theorem owner_of_isOpen (hs : s.Owned) (hx : s.deliveries[d]? = some x) (hopen : x.isOpen = true)
    (i : OperationId) (howner : x.owner = some i) : s.stage? i = some (.supervising d) :=
  (hs.owner hx howner).trans (congrArg some (ownerStage_of_isOpen hopen))

omit [DecidableEq κ] in
/-- A caller waits for one delivery only. -/
theorem eq_of_supervising (hs : s.Owned) (hx : s.deliveries[d]? = some x)
    (howner : x.owner = some i) {d' : DeliveryId} (hi : s.stage? i = some (.supervising d')) :
    d = d' ∧ x.isOpen = true := by
  have hstage := (hs.owner hx howner).symm.trans hi
  cases hst : x.stage <;> simp [ownerStage, hst, Delivery.isOpen] at hstage ⊢ <;> exact hstage

omit [DecidableEq κ] in
/-- Nobody waits for a delivery that is over. -/
theorem not_supervising (hs : s.Owned) (hx : s.deliveries[d]? = some x)
    (hclosed : x.isOpen = false) : s.stage? i ≠ some (.supervising d) := by
  intro hi
  obtain ⟨x', hx', howner⟩ := hs.waits hi
  obtain rfl : x' = x := Option.some.inj (hx'.symm.trans hx)
  have hopen := (hs.eq_of_supervising hx howner hi).2
  rw [hclosed] at hopen
  contradiction

/-- The caller of a delivery that the step leaves alone. -/
theorem owner_of_still (hs : s.Owned) (h : s.step? setup a = some (t, seen))
    (hx : s.deliveries[d]? = some x) (hx' : t.deliveries[d]? = some x) (howner : x.owner = some i) :
    t.stage? i = some (ownerStage d x) := by
  have hi := hs.owner hx howner
  cases operationMove_of_step? h (j := i) with
  | still ht => exact ht.trans hi
  | begun hj =>
    rw [hj, stage?_length] at hi
    contradiction
  | moved _ hst hactive =>
    obtain rfl := Option.some.inj (hst.symm.trans hi)
    rw [isActive_ownerStage] at hactive
    contradiction
  | waits _ hst =>
    have hactive := isActive_ownerStage (κ := κ) (d := d) (x := x)
    rw [← Option.some.inj (hst.symm.trans hi)] at hactive
    contradiction
  | @delivered d' y outcome hy howner' hends hty ht =>
    -- The delivery that ends is this one, as its caller waits for no other.
    have hsup := ownerStage_of_isOpen (κ := κ) (d := d') hends.isOpen
    obtain ⟨rfl, -⟩ := hs.eq_of_supervising hx howner (hsup ▸ hs.owner hy howner')
    obtain rfl := Option.some.inj (hty.symm.trans hx')
    rw [ht, hi]
    rfl
  | @dropped st _ hst hended hdropped ht htx =>
    obtain rfl := Option.some.inj (hst.symm.trans hi)
    cases hstage : x.stage with
    | ended outcome =>
      exact absurd (by simp only [ownerStage, hstage]) (hended (.delivered outcome))
    | dropped => exact absurd (by simp only [ownerStage, hstage]) hdropped
    | waiting | replacing | rebroadcasting =>
      -- The caller of a delivery under way takes it down, and it would not have stayed.
      have hmodify := htx d (by simp only [ownerStage, hstage])
      rw [hmodify, List.getElem?_modify_eq, hx] at hx'
      have habandon : x.abandon = x := Option.some.inj hx'
      have hcontra : x.stage = .dropped := by rw [← habandon]; rfl
      rw [hstage] at hcontra
      contradiction

/-- The caller of a delivery after a step. -/
theorem owner_step (hs : s.Owned) (h : s.step? setup a = some (t, seen))
    (hx : t.deliveries[d]? = some x) (howner : x.owner = some i) :
    t.stage? i = some (ownerStage d x) := by
  have hsame {x' : Delivery} (hx' : t.deliveries[d]? = some x') : x' = x :=
    Option.some.inj (hx'.symm.trans hx)
  cases deliveryMove_of_step? h (d := d) with
  | still ht => exact hs.owner_of_still h (ht ▸ hx) hx howner
  | launched _ _ _ _ ht hwait _ =>
    obtain rfl := hsame ht
    exact hwait i howner
  | @concluded y outcome hy hends ht htops _ _ =>
    obtain rfl := hsame ht
    obtain howner : y.owner = some i := howner
    have hput : t.operations = Operation.put s.operations i (.ended (.delivered outcome)) := by
      rw [htops, howner]
      rfl
    exact stage?_put_self hput (hs.owner hy howner)
  | proceeded hy hproceeds ht htops =>
    obtain rfl := hsame ht
    have hi := hs.owner hy (hproceeds.fixed.1 ▸ howner)
    have hstage : t.stage? i = s.stage? i := by rw [stage?, htops, ← stage?]
    rw [hstage, hi]
    rcases hproceeds.cases_open with ⟨hopen, hopen', -⟩ | ⟨-, heq⟩
    · rw [ownerStage_of_isOpen hopen, ownerStage_of_isOpen hopen']
    · simp only [ownerStage, heq]
  | @abandoned y j hy _ hst ht hdropped =>
    -- Whoever drops the delivery is its caller.
    obtain rfl := hsame ht
    obtain ⟨y', hy', howner'⟩ := hs.waits hst
    obtain rfl := Option.some.inj (hy'.symm.trans hy)
    obtain rfl : i = j := Option.some.inj (howner.symm.trans howner')
    exact hdropped

/-- The delivery of a caller who waits after a step. -/
theorem waits_step (hs : s.Owned) (h : s.step? setup a = some (t, seen))
    (hi : t.stage? i = some (.supervising d)) :
    ∃ x, t.deliveries[d]? = some x ∧ x.owner = some i := by
  -- Whoever waited before still waits for the same delivery, whatever happened to it.
  have hbefore (hsup : s.stage? i = some (.supervising d)) :
      ∃ x, t.deliveries[d]? = some x ∧ x.owner = some i := by
    obtain ⟨x, hx, howner⟩ := hs.waits hsup
    cases deliveryMove_of_step? h (d := d) with
    | still ht => exact ⟨x, ht ▸ hx, howner⟩
    | launched hd =>
      rw [hd] at hx
      simp at hx
    | concluded hy _ ht =>
      obtain rfl := Option.some.inj (hy.symm.trans hx)
      exact ⟨_, ht, howner⟩
    | proceeded hy hproceeds ht =>
      obtain rfl := Option.some.inj (hy.symm.trans hx)
      exact ⟨_, ht, hproceeds.fixed.1 ▸ howner⟩
    | abandoned hy _ _ ht =>
      obtain rfl := Option.some.inj (hy.symm.trans hx)
      exact ⟨_, ht, howner⟩
  cases operationMove_of_step? h (j := i) with
  | still ht => exact hbefore (ht ▸ hi)
  | begun _ _ hst ht =>
    obtain rfl := Option.some.inj (ht.symm.trans hi)
    contradiction
  | moved _ _ _ ht hown =>
    obtain rfl := Option.some.inj (ht.symm.trans hi)
    contradiction
  | waits _ _ ht htx howner =>
    obtain rfl : s.deliveries.length = d := by
      simpa using Option.some.inj (ht.symm.trans hi)
    exact ⟨_, by rw [htx, List.getElem?_concat_length], howner⟩
  | delivered _ _ _ _ ht =>
    rw [ht] at hi
    obtain ⟨_, -, hcontra⟩ := Option.map_eq_some_iff.mp hi
    contradiction
  | dropped _ _ _ _ ht => simp [ht] at hi

/-- **Callers and deliveries stay together.** -/
theorem step (hs : s.Owned) (h : s.step? setup a = some (t, seen)) : t.Owned :=
  ⟨fun hx howner => hs.owner_step h hx howner, fun hi => hs.waits_step h hi⟩

end Owned

/-- **At every moment callers and the deliveries they wait for belong together.** -/
theorem History.owned (h : History setup .start tr s) : s.Owned := by
  refine h.invariant ⟨?_, ?_⟩ fun e _ hstep ih => ih.step hstep
  · intro d x i hx
    simp [Service.start] at hx
  · intro i d hi
    simp [Service.start, stage?] at hi

/-- **A step seen from a submission**, callers and deliveries belonging together. -/
theorem Owned.submissionMove (hs : s.Owned) (h : s.step? setup a = some (t, seen))
    {sub : Submission κ} (hi : s.stage? i = some (.submitting sub)) : SubmissionMove s i sub t := by
  refine submissionMove_of_step? h hi fun d x hx howner => ?_
  have hactive := isActive_ownerStage (κ := κ) (d := d) (x := x)
  rw [← Option.some.inj (hi.symm.trans (hs.owner hx howner))] at hactive
  contradiction

/-! ### What operations are about -/

/-- What an operation is about stays the same all along a run. -/
theorem History.request?_eq {r : Request κ} (h : History setup s tr t)
    (hr : s.request? i = some r) : t.request? i = some r :=
  h.invariant (P := fun t => t.request? i = some r) hr fun _ _ hstep ih =>
    request?_of_step? hstep ih

/-- **Where an operation began.** -/
theorem History.exists_begin {r : Request κ} (h : History setup .start tr s)
    (hr : s.request? i = some r) :
    ∃ pre e mid, tr = pre ++ e :: mid ∧ e.action = .begin r ∧
      e.before.operations.length = i ∧ e.after.request? i = some r := by
  induction h with
  | nil => simp [Service.start, request?] at hr
  | @snoc tr t u a seen h hstep ih =>
    cases hr' : t.request? i with
    | none =>
      obtain ⟨ha, hi⟩ := begin_of_request? hstep hr' hr
      exact ⟨tr, _, [], rfl, ha, hi.symm, hr⟩
    | some r' =>
      obtain rfl : r' = r := Option.some.inj ((request?_of_step? hstep hr').symm.trans hr)
      obtain ⟨pre, e, mid, rfl, hbegin⟩ := ih hr'
      exact ⟨pre, e, mid ++ [⟨t, a, seen, u⟩], by simp, hbegin⟩

/-! ### Callers who wait -/

/-- Where an operation is whose caller waits for the outcome. -/
inductive Waiting (s : Service κ) (i : OperationId) : Prop where
  /-- The first broadcast is made. -/
  | submitting {sub : Submission κ} (hst : s.stage? i = some (.submitting sub))
      (horigin : sub.origin = .attached)
  /-- The delivery is under way. -/
  | supervising {d : DeliveryId} (hst : s.stage? i = some (.supervising d))
  /-- The delivery ended. -/
  | delivered {d : DeliveryId} {x : Delivery} {outcome : Outcome}
      (hst : s.stage? i = some (.ended (.delivered outcome))) (hx : s.deliveries[d]? = some x)
      (howner : x.owner = some i) (hstage : x.stage = .ended outcome)
  /-- There was no delivery. -/
  | failed {e : DeliveryError} (hst : s.stage? i = some (.ended (.failed e)))
  /-- The caller did not wait in the end. -/
  | dropped (hst : s.stage? i = some .dropped)

/-- An operation that ended otherwise than with an outcome stays so. -/
theorem stage?_of_ended (hs : s.Owned) (h : s.step? setup a = some (t, seen))
    {st : Operation.Stage κ} (hi : s.stage? i = some st) (hactive : st.isActive = false)
    (hwait : ∀ d, st ≠ .supervising d) : t.stage? i = some st := by
  cases operationMove_of_step? h (j := i) with
  | still ht => exact ht.trans hi
  | begun hj =>
    rw [hj, stage?_length] at hi
    contradiction
  | moved _ hst hactive' =>
    obtain rfl := Option.some.inj (hst.symm.trans hi)
    rw [hactive] at hactive'
    contradiction
  | waits _ hst =>
    obtain rfl := Option.some.inj (hst.symm.trans hi)
    contradiction
  | @delivered d x _ hx howner hends =>
    have hsup := (hs.owner_of_isOpen hx hends.isOpen _ howner).symm.trans hi
    exact absurd (Option.some.inj hsup).symm (hwait d)
  | @dropped st' _ hst hended hdropped =>
    obtain rfl := Option.some.inj (hst.symm.trans hi)
    cases st' with
    | supervising d => exact absurd rfl (hwait d)
    | ended answer => exact absurd rfl (hended answer)
    | dropped => exact absurd rfl hdropped
    | _ => contradiction

/-- **What an operation ended with it keeps**, all along a run. -/
theorem History.stage?_eq_of_ended (h : History setup s tr t) (hs : s.Owned)
    {st : Operation.Stage κ} (hi : s.stage? i = some st) (hactive : st.isActive = false)
    (hwait : ∀ d, st ≠ .supervising d) :
    t.stage? i = some st ∧ ∀ e ∈ tr, e.before.stage? i = some st := by
  have hkept {tr : List (Transition κ)} {t : Service κ} (h : History setup s tr t) :
      t.stage? i = some st := by
    have hboth : t.Owned ∧ t.stage? i = some st :=
      h.invariant (P := fun t => t.Owned ∧ t.stage? i = some st) ⟨hs, hi⟩ fun _ _ hstep ih =>
        ⟨ih.1.step hstep, stage?_of_ended ih.1 hstep ih.2 hactive hwait⟩
    exact hboth.2
  refine ⟨hkept h, fun e he => ?_⟩
  obtain ⟨pre, post, rfl⟩ := List.append_of_mem he
  exact hkept h.around.1

/-- **Who waits goes on waiting**, or gets the outcome. -/
theorem Waiting.step (hs : s.Owned) (h : s.step? setup a = some (t, seen)) (hi : s.Waiting i) :
    t.Waiting i := by
  have howned := hs.step h
  cases hi with
  | submitting hst horigin =>
    cases hs.submissionMove h hst with
    | submitting ht horigin' _ _ => exact .submitting ht (horigin'.trans horigin)
    | failed ht => exact .failed ht
    | dropped ht => exact .dropped ht
    | sent horigin' => exact absurd (horigin.symm.trans horigin') (by simp)
    | waits _ ht => exact .supervising ht
    | enqueued horigin' => exact absurd (horigin.symm.trans horigin') (by simp)
  | @supervising d hst =>
    cases operationMove_of_step? h (j := i) with
    | still ht => exact .supervising (ht.trans hst)
    | begun hj =>
      rw [hj, stage?_length] at hst
      contradiction
    | moved _ hst' hactive =>
      obtain rfl := Option.some.inj (hst'.symm.trans hst)
      contradiction
    | waits _ hst' =>
      have hcontra := hst'.symm.trans hst
      simp at hcontra
    | delivered _ howner _ hx' ht => exact .delivered (by rw [ht, hst]; rfl) hx' howner rfl
    | dropped _ _ _ _ ht => exact .dropped ht
  | @delivered d x outcome hst hx howner hstage =>
    -- The operation is over, and the delivery keeps the outcome it ended with.
    have ht := stage?_of_ended hs h hst rfl (by simp)
    have hclosed : x.isOpen = false := by simp [Delivery.isOpen, hstage]
    have hsame {y : Delivery} (hy : s.deliveries[d]? = some y) : y = x :=
      Option.some.inj (hy.symm.trans hx)
    cases deliveryMove_of_step? h (d := d) with
    | still hx' => exact .delivered ht (hx'.trans hx) howner hstage
    | launched hd =>
      rw [hd] at hx
      simp at hx
    | concluded hy hends =>
      obtain rfl := hsame hy
      rw [hends.isOpen] at hclosed
      contradiction
    | proceeded hy hproceeds hx' =>
      obtain rfl := hsame hy
      rcases hproceeds.cases_open with ⟨hopen, -⟩ | ⟨-, hsame⟩
      · rw [hopen] at hclosed
        contradiction
      · exact .delivered ht hx' (hproceeds.fixed.1.trans howner) (hsame.trans hstage)
    | abandoned hy _ hsup =>
      obtain rfl := hsame hy
      exact absurd hsup (hs.not_supervising hx hclosed)
  | failed hst => exact .failed (stage?_of_ended hs h hst rfl (by simp))
  | dropped hst => exact .dropped (stage?_of_ended hs h hst rfl (by simp))

/-- **A call that waits** is on its way, waits, or got the outcome of its delivery. -/
theorem History.waiting (h : History setup .start tr s) {tx : Transaction}
    {options : DeliveryOptions} (hr : s.request? i = some (.sendAndWait tx options)) :
    s.Waiting i := by
  induction h with
  | nil => simp [Service.start, request?] at hr
  | @snoc tr t u a seen h hstep ih =>
    cases hr' : t.request? i with
    | some r =>
      have hsame := request?_of_step? hstep hr'
      obtain rfl := Option.some.inj (hsame.symm.trans hr)
      exact (ih hr').step h.owned hstep
    | none =>
      -- The call begins with this step, which opens its submission.
      obtain ⟨rfl, hi⟩ := begin_of_request? hstep hr' hr
      have hbegin : OperationStep setup t (.begin (.sendAndWait tx options)) (u, seen) :=
        Option.some.inj hstep ▸ operationStep_of_begin _
      cases hbegin with
      | submit hr'' hsub =>
        simp only [Request.broadcast?, Option.some.injEq, Prod.mk.injEq] at hr''
        refine .submitting ?_ (hsub.origin_eq.trans hr''.2.2.symm)
        rw [stage?_of_append rfl, if_pos hi]
      | enter hr'' => simp [Request.access?] at hr''
      | refuse _ _ href | refuseQueued _ _ href => cases href

end Service

end TxDelivery
