import TxDelivery.Proofs.History
import TxDelivery.Proofs.Operation.Move

/-!
# Where submissions come from

A step seen from a submission that is there after it (`TxDelivery.Service.SubmissionSource`): the
submission was there before, or a caller has just asked for it, or it has gone on, or it has just
got its signature. **What was asked of a delivery stays with the submission**
(`TxDelivery.Service.History.options_of_submitting`), and what it broadcasts is what was signed for
it.

Seen from a submission that is there before a step, what matters is what becomes of it. Here it is
the other way round, because what is proved with this table are invariants: something holds of all
submissions after a step, and of a given one among them it has to be known what it was before. There
may have been nothing, and so a submission can come from a request.

The signature is told apart from everything else a submission goes through. Before it the
transaction is the caller's, with what was filled in; after it the transaction is the signer's, and
only what is known of the signer says how the two are related (`TxDelivery.Service.SignsFor`). Every
other move keeps the transaction but for what it fills in, and all of them keep the origin and the
options.

An operation that goes on is met at its place, after which the cases are those of the table of
operations (`TxDelivery.Service.submissionSource_of_operationStep`). Deliveries, bookkeepers and the
outside world have to do with no submission; a delivery that ends puts an operation into its last
stage, which is none either.
-/

namespace TxDelivery

variable {κ : Type}

/-- What a caller asks of a delivery besides the transaction, if the request may lead to one. -/
def Request.options? : Request κ → Option DeliveryOptions
  | .send _ options | .sendAndWait _ options | .enqueue _ options => some options
  | .estimate _ | .replace _ _ | .resetNonce | .mark _ _ | .status _ => none

/-- The transaction that a caller asks to be delivered, if the request may lead to a delivery. -/
def Request.tx? : Request κ → Option Transaction
  | .send tx _ | .sendAndWait tx _ | .enqueue tx _ => some tx
  | .estimate _ | .replace _ _ | .resetNonce | .mark _ _ | .status _ => none

/-- A request that goes to the chain at once asks for a delivery. -/
theorem Request.options?_of_broadcast? {r : Request κ} {tx : Transaction}
    {options : DeliveryOptions} {origin : Origin κ}
    (h : r.broadcast? = some (tx, options, origin)) : r.options? = some options := by
  cases r <;> simp [broadcast?, options?] at h ⊢
  all_goals exact h.2.1

/-- What goes to the chain at once is what the caller wants delivered. -/
theorem Request.tx?_of_broadcast? {r : Request κ} {tx : Transaction} {options : DeliveryOptions}
    {origin : Origin κ} (h : r.broadcast? = some (tx, options, origin)) : r.tx? = some tx := by
  cases r <;> simp [broadcast?, tx?] at h ⊢
  all_goals exact h.1

/-- Nothing is signed when a submission opens. -/
theorem Submission.Opening.isSigned {lock lock' : FairLock OperationId} {i : OperationId}
    {sub : Submission κ} {seen : List Observation} (h : Opening lock i sub lock' seen) :
    sub.stage.isSigned = false := by
  cases h with
  | pricing hs | estimating hs | queued hs => rw [hs]; rfl

namespace Service

variable [DecidableEq κ]

open Operation

/-- **A step seen from a submission that is there after it.** -/
inductive SubmissionSource (setup : Setup κ) (s : Service κ) (j : OperationId) (a : Action κ)
    (t : Service κ) (sub' : Submission κ) : Prop where
  /-- The submission was there before. -/
  | still (hst : s.stage? j = some (.submitting sub'))
  /-- A caller asked for it. -/
  | opened {r : Request κ} (hr : t.request? j = some r) (hoptions : r.options? = some sub'.options)
      (hsigned : sub'.stage.isSigned = false)
      (htx : ∃ tx, r.tx? = some tx ∧ sub'.tx = { tx with sender := setup.address })
  /-- It went on, and nothing was signed. -/
  | moved {sub : Submission κ} (hst : s.stage? j = some (.submitting sub))
      (horigin : sub'.origin = sub.origin) (hoptions : sub'.options = sub.options)
      (hnone : ∀ signed deadline, sub'.stage ≠ .broadcasting signed deadline)
      (htx : sub'.tx =
        { sub.tx with gasPrice := sub'.tx.gasPrice, gasLimit := sub'.tx.gasLimit })
  /-- It was signed. -/
  | signed {sub : Submission κ} {n : Nonce} {signed : SignedTx}
      (hst : s.stage? j = some (.submitting sub)) (hs : sub.stage = .signing n)
      (ha : a = .reply (.operation j) (.signed signed))
      (hsub : sub' =
        { sub with stage := .broadcasting signed (s.now + setup.config.periodMs) })

variable {setup : Setup κ} {s t : Service κ} {a : Action κ} {seen : List Observation}
  {i j : OperationId} {r : Request κ} {st st' : Operation.Stage κ} {sub' : Submission κ}

omit [DecidableEq κ] in
/-- A step in which an operation goes on. -/
theorem submissionSource_of_put (hst : s.stage? i = some st)
    (ht : t.operations = put s.operations i st') (hj : t.stage? j = some (.submitting sub'))
    (hsource : i = j → st' = .submitting sub' → SubmissionSource setup s j a t sub') :
    SubmissionSource setup s j a t sub' := by
  by_cases hij : i = j
  · subst hij
    exact hsource rfl (Option.some.inj ((stage?_put_self ht hst).symm.trans hj))
  · exact .still ((stage?_put_of_ne ht hij).symm.trans hj)

omit [DecidableEq κ] in
/-- A step in which an operation begins. -/
theorem submissionSource_of_append (ht : t.operations = s.operations ++ [⟨r, st⟩])
    (hj : t.stage? j = some (.submitting sub'))
    (hsource : t.request? j = some r → st = .submitting sub' →
      SubmissionSource setup s j a t sub') :
    SubmissionSource setup s j a t sub' := by
  by_cases hlen : j = s.operations.length
  · refine hsource ?_ ?_
    · rw [request?_of_append ht, if_pos hlen]
    · rw [stage?_of_append ht, if_pos hlen] at hj
      exact Option.some.inj hj
  · rw [stage?_of_append ht, if_neg hlen] at hj
    exact .still hj

theorem submissionSource_of_operationStep (h : OperationStep setup s a (t, seen))
    (hj : t.stage? j = some (.submitting sub')) : SubmissionSource setup s j a t sub' := by
  cases h with
  | submit hr hsub hopen =>
    refine submissionSource_of_append rfl hj fun hrequest hst => ?_
    cases hst
    refine .opened hrequest ?_ hopen.isSigned ⟨_, Request.tx?_of_broadcast? hr, hsub.tx_eq⟩
    rw [Request.options?_of_broadcast? hr, hsub.options_eq]
  | enter | estimate | replace | forget =>
    exact submissionSource_of_append rfl hj fun _ hst => by simp at hst
  | duplicate hst | mark hst | read hst | forgotten hst | escalate hst | answer hst
  | refuse hst | refuseQueued hst | launchDetached hst | launchAttached hst | launchQueued hst
  | drop hst | dropWaiting hst =>
    exact submissionSource_of_put hst rfl hj fun _ hst' => by simp at hst'
  | enqueue hst hr _ _ _ hsub hopen =>
    refine submissionSource_of_put hst rfl hj fun hij hst' => ?_
    cases hst'
    subst hij
    refine .opened ((request?_of_put rfl _).trans hr) ?_ hopen.isSigned ⟨_, rfl, hsub.tx_eq⟩
    rw [hsub.options_eq]
    rfl
  | fetch hst | sign hst | gas hst | nonce hst | tooLow hst =>
    refine submissionSource_of_put hst rfl hj fun hij hst' => ?_
    cases hst'
    subst hij
    exact .moved hst rfl rfl (fun _ _ hs => by simp at hs) rfl
  | price hst _ hsub _ hopen =>
    refine submissionSource_of_put hst rfl hj fun hij hst' => ?_
    cases hst'
    subst hij
    refine .moved hst (by rw [hsub]) (by rw [hsub]) (fun signed deadline hs => ?_) (by rw [hsub])
    have hsigned := hopen.isSigned
    rw [hs] at hsigned
    contradiction
  | signed hst hs =>
    refine submissionSource_of_put hst rfl hj fun hij hst' => ?_
    cases hst'
    subst hij
    exact .signed hst hs rfl rfl

/-- **Every step, seen from a submission that is there after it.** -/
theorem submissionSource_of_step? (h : s.step? setup a = some (t, seen))
    (hj : t.stage? j = some (.submitting sub')) : SubmissionSource setup s j a t sub' := by
  rcases operationStep_or_stage? h hj (by simp) with h | hst
  · exact submissionSource_of_operationStep h hj
  · exact .still hst

/-- **What was asked of a delivery stays with the submission.** -/
theorem History.options_of_submitting {tr : List (Transition κ)} (h : History setup .start tr s)
    {sub : Submission κ} (hi : s.stage? i = some (.submitting sub)) :
    (s.request? i).bind Request.options? = some sub.options := by
  induction h generalizing i sub with
  | nil => simp [Service.start, stage?] at hi
  | @snoc tr t u a seen h hstep ih =>
    have hkept {sub₀ : Submission κ} (hst : t.stage? i = some (.submitting sub₀)) :
        (u.request? i).bind Request.options? = some sub₀.options := by
      obtain ⟨r, hr, hr'⟩ := Option.bind_eq_some_iff.mp (ih hst)
      rw [request?_of_step? hstep hr, Option.bind_some, hr']
    cases submissionSource_of_step? hstep hi with
    | opened hr hoptions => rw [hr, Option.bind_some, hoptions]
    | still hst => exact hkept hst
    | moved hst _ hoptions => rw [hkept hst, hoptions]
    | signed hst _ _ hsub => rw [hkept hst, hsub]

/-! ### The signer -/

/-- **A signer that signs what it is given**, filling in its own account and chain. -/
def SignsFor (setup : Setup κ) (account : Address) (chain : UInt64) (e : Transition κ) : Prop :=
  ∀ who tx signed, e.before.pending? setup who = some (.sign tx) →
    e.action = .reply who (.signed signed) →
    signed.tx = { tx with sender := account, chainId := chain }

/-- Whether a signature is of what was to be signed. -/
def signsFor (setup : Setup κ) (account : Address) (chain : UInt64) (e : Transition κ) : Bool :=
  match e.action with
  | .reply who (.signed signed) =>
    match e.before.pending? setup who with
    | some (.sign tx) => decide (signed.tx = { tx with sender := account, chainId := chain })
    | _ => true
  | _ => true

omit [DecidableEq κ] in
theorem signsFor_iff {account : Address} {chain : UInt64} {e : Transition κ} :
    signsFor setup account chain e = true ↔ SignsFor setup account chain e := by
  constructor
  · intro h who tx signed hcall ha
    simpa [signsFor, ha, hcall] using h
  · intro h
    unfold signsFor
    split
    case h_1 who signed ha =>
      split
      case h_1 tx hcall => exact decide_eq_true (h who tx signed hcall ha)
      case h_2 => rfl
    case h_2 => rfl

instance (setup : Setup κ) (account : Address) (chain : UInt64) (e : Transition κ) :
    Decidable (SignsFor setup account chain e) :=
  decidable_of_iff _ signsFor_iff

end Service

end TxDelivery
