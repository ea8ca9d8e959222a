import TxDelivery.Proofs.Step.Basic

/-!
# One operation among the others

A step of a service seen from one operation (`TxDelivery.Service.OperationMove`): the step leaves it
where it is, or begins it, or lets it go on, or makes it wait for a delivery that starts, or hands
it the outcome of one, or drops it. An operation goes on by itself as long as it is active
(`TxDelivery.Operation.Stage.isActive`): once it waits for a delivery only the end of the delivery
or its caller can move it, and once it ended nothing does.

The tables of steps say what a step does to the service. What is proved about one operation needs
them the other way round: what has happened to it, if anything has? There are six answers, however
many kinds of steps there are, and **every step, of whomever, gives one of them**
(`TxDelivery.Service.operationMove_of_step?`). Most steps are those of others, or of parties that
are no operations, and leave it where it is. An induction on a run that is about one operation has
six cases with this, and does not have to be told about new kinds of steps.

## From the tables to the answers

The operations are a list, in which a step changes one place or adds one at the end. Four lemmas
turn this into an answer: an operation begins (`TxDelivery.Service.operationMove_of_append`), goes
on (`TxDelivery.Service.operationMove_of_put`), or is dropped
(`TxDelivery.Service.operationMove_of_drop`), and the operation in question is that one, or it is
another and stays. The end of a delivery is the one step of another party that moves an operation,
namely the one that waits for it.

Seen from all operations at once a step is simpler still (`TxDelivery.Service.OperationsMove`): one
of them takes it, or they stay as they are, or the owner of a delivery is handed its outcome. Two
things follow: what an operation is about never changes (`TxDelivery.Service.request?_of_step?`),
and an operation that was not there was begun (`TxDelivery.Service.begin_of_request?`). For
submissions there is a table of its own (`TxDelivery.Service.SubmissionMove`), which keeps what was
asked for apart from how far it has come.
-/

namespace TxDelivery

variable {κ : Type}

/-- Whether an operation goes on by itself: it has not ended and does not wait for a delivery. -/
def Operation.Stage.isActive : Operation.Stage κ → Bool
  | .entering | .submitting _ | .estimating | .replacing _ | .resetting => true
  | .supervising _ | .ended _ | .dropped => false

/-- Whether an operation gets to a stage by going on: the others take a delivery or the caller. -/
def Operation.Stage.isOwn : Operation.Stage κ → Bool
  | .supervising _ | .dropped | .ended (.delivered _) => false
  | .entering | .submitting _ | .estimating | .replacing _ | .resetting | .ended _ => true

/-- Whether the first variant of a submission is signed. -/
def Submission.Stage.isSigned : Submission.Stage → Bool
  | .broadcasting _ _ | .resetting _ => true
  | .pricing | .estimating | .queued | .fetching | .signing _ => false

/-- A refusal happens when the operation goes on. -/
theorem Submission.Refusal.action {s : Service κ} {i : OperationId} {sub : Submission κ}
    {a : Action κ} {e : DeliveryError} {n : NonceState} {lock : FairLock OperationId} {m : Metrics}
    {seen : List Observation} (h : Submission.Refusal s i sub a e n lock m seen) :
    a = .resume i ∨ ∃ reply, a = .reply (.operation i) reply := by
  cases h with
  | forgotten => exact .inl rfl
  | _ => exact .inr ⟨_, rfl⟩

namespace Service

variable [DecidableEq κ]

open Operation Delivery

/-- **A step seen from one operation.** -/
inductive OperationMove (setup : Setup κ) (s : Service κ) (j : OperationId) (a : Action κ)
    (t : Service κ) : Prop where
  /-- The operation stays where it is. -/
  | still (ht : t.stage? j = s.stage? j)
  /-- The operation begins. -/
  | begun {r : Request κ} {st : Operation.Stage κ} (hj : j = s.operations.length)
      (ha : a = .begin r) (hst : st.isActive = true) (ht : t.stage? j = some st)
  /-- The operation goes on. -/
  | moved {st st' : Operation.Stage κ}
      (ha : a = .resume j ∨ ∃ reply, a = .reply (.operation j) reply)
      (hst : s.stage? j = some st) (hactive : st.isActive = true) (ht : t.stage? j = some st')
      (hown : st'.isOwn = true)
  /-- The operation goes on to wait for a delivery that starts. -/
  | waits {sub : Submission κ} {x : Delivery} {hash : Hash}
      (ha : a = .reply (.operation j) (.accepted hash)) (hst : s.stage? j = some (.submitting sub))
      (ht : t.stage? j = some (.supervising s.deliveries.length))
      (htx : t.deliveries = s.deliveries ++ [x]) (howner : x.owner = some j)
      (hopen : x.stage = .waiting)
  /-- The delivery the operation waits for ends. -/
  | delivered {d : DeliveryId} {x : Delivery} {outcome : Outcome} (hx : s.deliveries[d]? = some x)
      (howner : x.owner = some j) (hends : x.Ends setup s.now d a outcome)
      (htx : t.deliveries[d]? = some { x with
        stage := .ended outcome
        listener := x.listener.stop })
      (ht : t.stage? j = (s.stage? j).map fun _ => .ended (.delivered outcome))
  /-- The caller drops the operation. -/
  | dropped {st : Operation.Stage κ} (ha : a = .drop j) (hst : s.stage? j = some st)
      (hended : ∀ answer, st ≠ .ended answer) (hdropped : st ≠ .dropped)
      (ht : t.stage? j = some .dropped)
      (htx : ∀ d, st = .supervising d → t.deliveries = s.deliveries.modify d abandon)

variable {setup : Setup κ} {s t : Service κ} {a : Action κ} {seen : List Observation}
  {i j : OperationId} {r : Request κ} {st st' : Operation.Stage κ}

omit [DecidableEq κ] in
/-- A step in which an operation begins. -/
theorem operationMove_of_append (ha : a = .begin r) (hst : st.isActive = true)
    (ht : t.operations = s.operations ++ [⟨r, st⟩]) : OperationMove setup s j a t := by
  by_cases hj : j = s.operations.length
  · refine .begun hj ha hst ?_
    rw [stage?_of_append ht, if_pos hj]
  · refine .still ?_
    rw [stage?_of_append ht, if_neg hj]

omit [DecidableEq κ] in
/-- A step in which an operation goes on. -/
theorem operationMove_of_put (ha : a = .resume i ∨ ∃ reply, a = .reply (.operation i) reply)
    (hst : s.stage? i = some st) (hactive : st.isActive = true)
    (ht : t.operations = put s.operations i st') (hown : st'.isOwn = true) :
    OperationMove setup s j a t := by
  by_cases hj : i = j
  · subst hj
    exact .moved ha hst hactive (stage?_put_self ht hst) hown
  · exact .still (stage?_put_of_ne ht hj)

omit [DecidableEq κ] in
/-- A step in which an operation is dropped. -/
theorem operationMove_of_drop (hst : s.stage? i = some st) (hended : ∀ answer, st ≠ .ended answer)
    (hdropped : st ≠ .dropped) (ht : t.operations = put s.operations i .dropped)
    (htx : ∀ d, st = .supervising d → t.deliveries = s.deliveries.modify d abandon) :
    OperationMove setup s j (.drop i) t := by
  by_cases hj : i = j
  · subst hj
    exact .dropped rfl hst hended hdropped (stage?_put_self ht hst) htx
  · exact .still (stage?_put_of_ne ht hj)

theorem operationMove_of_operationStep (h : OperationStep setup s a (t, seen)) :
    OperationMove setup s j a t := by
  cases h with
  | submit | enter | estimate | replace | forget =>
    exact operationMove_of_append rfl rfl rfl
  | duplicate hst | mark hst | read hst | forgotten hst =>
    exact operationMove_of_put (.inl rfl) hst rfl rfl rfl
  | enqueue hst | fetch hst | sign hst =>
    exact operationMove_of_put (.inl rfl) hst rfl rfl rfl
  | price hst | gas hst | nonce hst | signed hst | tooLow hst | escalate hst =>
    exact operationMove_of_put (.inr ⟨_, rfl⟩) hst rfl rfl rfl
  | refuse hst _ href | refuseQueued hst _ href =>
    exact operationMove_of_put href.action hst rfl rfl rfl
  | launchDetached hst | launchQueued hst =>
    exact operationMove_of_put (.inr ⟨_, rfl⟩) hst rfl rfl rfl
  | @launchAttached i sub signed deadline hash hst hs horigin =>
    by_cases hj : i = j
    · subst hj
      exact .waits rfl hst (stage?_put_self rfl hst) rfl rfl rfl
    · exact .still (stage?_put_of_ne rfl hj)
  | @answer i st reply answer log hst hs hanswer =>
    have hactive : st.isActive = true := by
      rcases hs with rfl | ⟨e, rfl⟩ <;> rfl
    have hown : (Operation.Stage.ended answer : Operation.Stage κ).isOwn = true := by
      cases answer with
      | delivered outcome => exact absurd rfl (hanswer outcome)
      | _ => rfl
    exact operationMove_of_put (.inr ⟨_, rfl⟩) hst hactive rfl hown
  | drop hst hended hdropped hwait =>
    exact operationMove_of_drop hst hended hdropped rfl fun d hd => absurd hd (hwait d)
  | dropWaiting hst =>
    refine operationMove_of_drop hst (by simp) (by simp) rfl fun d hd => ?_
    cases hd
    rfl

omit [DecidableEq κ] in
/-- Nobody waits, or the operation that does is put into its last stage. -/
theorem handOver_eq (ops : List (Operation κ)) (owner : Option OperationId) (outcome : Outcome) :
    owner = none ∧ handOver ops owner outcome = ops ∨
      ∃ i, owner = some i ∧
        handOver ops owner outcome = put ops i (.ended (.delivered outcome)) := by
  cases owner with
  | none => exact .inl ⟨rfl, rfl⟩
  | some i => exact .inr ⟨i, rfl, rfl⟩

omit [DecidableEq κ] in
theorem operationMove_of_deliveryStep (h : DeliveryStep setup s a (t, seen)) :
    OperationMove setup s j a t := by
  cases h with
  | proceed => exact .still rfl
  | @conclude d x a outcome hx hends =>
    rcases handOver_eq s.operations x.owner outcome with ⟨-, hops⟩ | ⟨i, howner, hops⟩
    · rw [hops]
      exact .still rfl
    · rw [hops]
      by_cases hj : i = j
      · subst hj
        have hlt : d < s.deliveries.length := (List.getElem?_eq_some_iff.mp hx).1
        refine .delivered hx howner hends (List.getElem?_set_self hlt) ?_
        rw [stage?_of_put rfl, if_pos rfl]
      · exact .still (stage?_put_of_ne rfl hj)

/-- **Every step, seen from one operation**, is one of the six kinds. -/
theorem operationMove_of_step? (h : s.step? setup a = some (t, seen)) :
    OperationMove setup s j a t := by
  cases step_of_step? h with
  | operation h => exact operationMove_of_operationStep h
  | delivery h => exact operationMove_of_deliveryStep h
  | bookkeeper h => cases h <;> exact .still rfl
  | outside h => cases h <;> exact .still rfl

/-! ### What stays -/

/-- **A step seen from all the operations**, told apart by how it changes the list of them. -/
inductive OperationsMove (setup : Setup κ) (s : Service κ) (a : Action κ) (m : Move κ) : Prop where
  /-- One of them goes on, begins or is dropped. -/
  | operation (h : OperationStep setup s a m)
  /-- They stay as they are. -/
  | still (ht : m.1.operations = s.operations)
  /-- One of them is handed the outcome of the delivery it owns. -/
  | handed {d : DeliveryId} {x : Delivery} {i : OperationId} {outcome : Outcome}
      (hx : s.deliveries[d]? = some x) (hends : x.Ends setup s.now d a outcome)
      (howner : x.owner = some i)
      (ht : m.1.operations = put s.operations i (.ended (.delivered outcome)))

/-- **Every step, seen from all the operations.** -/
theorem operationsMove_of_step? (h : s.step? setup a = some (t, seen)) :
    OperationsMove setup s a (t, seen) := by
  cases step_of_step? h with
  | operation h => exact .operation h
  | delivery h =>
    cases h with
    | proceed => exact .still rfl
    | @conclude d x a outcome hx hends =>
      rcases handOver_eq s.operations x.owner outcome with ⟨-, hops⟩ | ⟨i, howner, hops⟩
      · exact .still hops
      · exact .handed hx hends howner hops
  | bookkeeper h => cases h <;> exact .still rfl
  | outside h => cases h <;> exact .still rfl

/-- **An operation comes to a stage when an operation takes a step**, or was in it before; only what
is handed to it comes from elsewhere. -/
theorem operationStep_or_stage? (h : s.step? setup a = some (t, seen)) (hj : t.stage? j = some st)
    (hst : ∀ outcome, st ≠ .ended (.delivered outcome)) :
    OperationStep setup s a (t, seen) ∨ s.stage? j = some st := by
  cases operationsMove_of_step? h with
  | operation h => exact .inl h
  | still ht =>
    rw [stage?, ht] at hj
    exact .inr hj
  | handed _ _ _ ht =>
    rw [stage?_of_put ht] at hj
    split at hj
    · obtain ⟨_, -, rfl⟩ := Option.map_eq_some_iff.mp hj
      exact absurd rfl (hst _)
    · exact .inr hj

/-- **What an operation is about never changes.** -/
theorem request?_of_step? (h : s.step? setup a = some (t, seen)) (hr : s.request? j = some r) :
    t.request? j = some r := by
  have hput {i : OperationId} {st : Operation.Stage κ}
      (ht : t.operations = put s.operations i st) : t.request? j = some r := by
    rw [request?_of_put ht, hr]
  have happend {r' : Request κ} {st : Operation.Stage κ}
      (ht : t.operations = s.operations ++ [⟨r', st⟩]) : t.request? j = some r := by
    have hlt : j ≠ s.operations.length := by
      rintro rfl
      simp [request?] at hr
    rw [request?_of_append ht, if_neg hlt, hr]
  cases operationsMove_of_step? h with
  | operation h =>
    cases h with
    | submit | enter | estimate | replace | forget => exact happend rfl
    | _ => exact hput rfl
  | still ht =>
    rw [request?, ht]
    exact hr
  | handed _ _ _ ht => exact hput ht

/-- **What is new was begun.** -/
theorem begin_of_request? (h : s.step? setup a = some (t, seen)) (hs : s.request? j = none)
    (ht : t.request? j = some r) : a = .begin r ∧ j = s.operations.length := by
  have hput {i : OperationId} {st : Operation.Stage κ} {t : Service κ}
      (hops : t.operations = put s.operations i st) : t.request? j = none := by
    rw [request?_of_put hops, hs]
  have happend {r' : Request κ} {st : Operation.Stage κ}
      (hops : t.operations = s.operations ++ [⟨r', st⟩]) : r' = r ∧ j = s.operations.length := by
    rw [request?_of_append hops, hs] at ht
    split at ht
    case isTrue hj => exact ⟨Option.some.inj ht, hj⟩
    case isFalse => contradiction
  cases operationsMove_of_step? h with
  | operation h =>
    cases h with
    | submit | enter | estimate | replace | forget =>
      obtain ⟨rfl, hj⟩ := happend rfl
      exact ⟨rfl, hj⟩
    | _ => exact absurd (ht.symm.trans (hput rfl)) (by simp)
  | still hops =>
    rw [request?, hops] at ht
    exact absurd (ht.symm.trans hs) (by simp)
  | handed _ _ _ hops => exact absurd (ht.symm.trans (hput hops)) (by simp)

/-! ### Submissions -/

/-- **A step seen from a submission**: it goes on as a submission for whoever asked for it, ends
with an error, is dropped, or is accepted. -/
inductive SubmissionMove (s : Service κ) (j : OperationId) (sub : Submission κ) (t : Service κ) :
    Prop where
  /-- The submission goes on. -/
  | submitting {sub' : Submission κ} (ht : t.stage? j = some (.submitting sub'))
      (horigin : sub'.origin = sub.origin) (hoptions : sub'.options = sub.options)
      (hsigned : sub.stage.isSigned = true → sub'.stage.isSigned = true)
  /-- The submission fails. -/
  | failed {e : DeliveryError} (ht : t.stage? j = some (.ended (.failed e)))
  /-- The caller drops it. -/
  | dropped (ht : t.stage? j = some .dropped)
  /-- The broadcast is accepted, and nobody waits for the outcome. -/
  | sent {hash : Hash} (horigin : sub.origin = .detached)
      (ht : t.stage? j = some (.ended (.sent hash)))
  /-- The broadcast is accepted, and the caller waits for the outcome. -/
  | waits (horigin : sub.origin = .attached)
      (ht : t.stage? j = some (.supervising s.deliveries.length))
  /-- The broadcast for the queue is accepted. -/
  | enqueued {key : κ} {previous : TxStatus} {hash : Hash}
      (horigin : sub.origin = .queue key previous)
      (ht : t.stage? j = some (.ended (.enqueued (some hash))))

variable {sub : Submission κ}

omit [DecidableEq κ] in
/-- A step of another operation, or one of this submission that leads to `st'`. -/
theorem submissionMove_of_put (hj : s.stage? j = some (.submitting sub))
    (hst : s.stage? i = some st) (ht : t.operations = put s.operations i st')
    (hmove : st = .submitting sub → t.stage? j = some st' → SubmissionMove s j sub t) :
    SubmissionMove s j sub t := by
  by_cases hij : i = j
  · subst hij
    exact hmove (Option.some.inj (hst.symm.trans hj)) (stage?_put_self ht hst)
  · exact .submitting ((stage?_put_of_ne ht hij).trans hj) rfl rfl id

omit [DecidableEq κ] in
/-- A step in which another operation begins. -/
theorem submissionMove_of_append (hj : s.stage? j = some (.submitting sub))
    (ht : t.operations = s.operations ++ [⟨r, st⟩]) : SubmissionMove s j sub t := by
  refine .submitting ?_ rfl rfl id
  rw [stage?_of_append ht, if_neg (Nat.ne_of_lt (lt_length_of_stage? hj)), hj]

theorem submissionMove_of_operationStep (h : OperationStep setup s a (t, seen))
    (hj : s.stage? j = some (.submitting sub)) : SubmissionMove s j sub t := by
  cases h with
  | submit | enter | estimate | replace | forget => exact submissionMove_of_append hj rfl
  | duplicate hst | mark hst | read hst | forgotten hst | escalate hst | dropWaiting hst
  | enqueue hst =>
    exact submissionMove_of_put hj hst rfl (fun hsub => by simp at hsub)
  | fetch hst hs | sign hst hs | gas hst hs | nonce hst hs =>
    refine submissionMove_of_put hj hst rfl fun hsub ht => ?_
    cases hsub
    exact .submitting ht rfl rfl fun hsigned => by simp [hs, Submission.Stage.isSigned] at hsigned
  | signed hst | tooLow hst =>
    refine submissionMove_of_put hj hst rfl fun hsub ht => ?_
    cases hsub
    exact .submitting ht rfl rfl fun _ => rfl
  | price hst hs hsub' =>
    refine submissionMove_of_put hj hst rfl fun hsub ht => ?_
    cases hsub
    exact .submitting ht (by rw [hsub']) (by rw [hsub'])
      fun hsigned => by simp [hs, Submission.Stage.isSigned] at hsigned
  | refuse hst | refuseQueued hst =>
    exact submissionMove_of_put hj hst rfl fun _ ht => .failed ht
  | launchDetached hst _ horigin =>
    refine submissionMove_of_put hj hst rfl fun hsub ht => ?_
    cases hsub
    exact .sent horigin ht
  | launchAttached hst _ horigin =>
    refine submissionMove_of_put hj hst rfl fun hsub ht => ?_
    cases hsub
    exact .waits horigin ht
  | launchQueued hst _ horigin =>
    refine submissionMove_of_put hj hst rfl fun hsub ht => ?_
    cases hsub
    exact .enqueued horigin ht
  | answer hst hs =>
    refine submissionMove_of_put hj hst rfl fun hsub _ => ?_
    rw [hsub] at hs
    simp at hs
  | drop hst => exact submissionMove_of_put hj hst rfl fun _ ht => .dropped ht

/-- **Every step, seen from a submission.** -/
theorem submissionMove_of_step? (h : s.step? setup a = some (t, seen))
    (hj : s.stage? j = some (.submitting sub))
    (howner : ∀ (d : DeliveryId) x, s.deliveries[d]? = some x → x.owner ≠ some j) :
    SubmissionMove s j sub t := by
  cases operationsMove_of_step? h with
  | operation h => exact submissionMove_of_operationStep h hj
  | still ht =>
    refine .submitting ?_ rfl rfl id
    rw [stage?, ht]
    exact hj
  | @handed d x i _ hx _ hi ht =>
    have hij : i ≠ j := by
      rintro rfl
      exact howner d x hx hi
    exact .submitting ((stage?_put_of_ne ht hij).trans hj) rfl rfl id

end Service

end TxDelivery
