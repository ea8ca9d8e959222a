import TxDelivery.Proofs.Step.Stage
import TxDelivery.Proofs.Veil.Basic

/-!
# Operations go on alike

Whatever an operation does next, it does the same behind the veil. The one exception is a caller who
drops an operation that waits for a delivery (`TxDelivery.Service.veil_drop?`): behind the veil
nobody waits, and there is nothing to drop.

The lemmas follow the functions that take the steps, from the inside out, one for each: joining the
line for the nonce, settling the gas, opening a submission, signing, the first broadcast, refusal,
acceptance, and the replies and locks that lead to them. Each of them says that veiling the state
and veiling the submission is enough for its function to come to the same, veiled. The submission is
given to these functions beside the state, which is why it has a veil of its own
(`TxDelivery.Service.veilSubmission`).

Operations behind the veil and before it are treated together. Whether the one in question is behind
it is a Boolean that stays in the statements, and the cases are made where a function looks at the
origin: in refusals and acceptances, as only there it makes a difference who asked. An accepted
broadcast is the point where the two kinds of callers part (`TxDelivery.Service.veil_launch`). One
is told the hash and has an answer; the other begins to wait for the delivery. The same delivery
starts, with an owner or without, and behind the veil the operation is done either way.

A send through the queue is not hidden by the veil, which shows its origin as it is. For it there is
nothing to prove but that the statuses are not touched by the veil either.
-/

namespace TxDelivery

variable {κ : Type}

namespace Service

variable {who : OperationId → Bool} {setup : Setup κ} {s : Service κ}
  {i : OperationId} {d : DeliveryId} {x : Delivery}

/-- A submission whose operation may be behind the veil. -/
def veilSubmission (hidden : Bool) (sub : Submission κ) : Submission κ :=
  { sub with origin := veilIf hidden Origin.veil sub.origin }

theorem veil_submitting (hidden : Bool) (sub : Submission κ) :
    veilIf hidden Operation.Stage.veil (.submitting sub) =
      .submitting (veilSubmission hidden sub) := by
  cases hidden <;> rfl

theorem veil_awaitNonce (sub : Submission κ) (st : Submission.Stage) :
    veilMove who (s.awaitNonce i sub st) =
      veilMove who ((s.veil who).awaitNonce i (veilSubmission (who i) sub) st) := by
  simp [awaitNonce, setSubmission, setOperation, veilMove, veil, veil_submitting, veilSubmission,
    veilIf_veilIf Origin.veil_veil]

theorem veil_settleGas (sub : Submission κ) :
    veilMove who (s.settleGas i sub) =
      veilMove who ((s.veil who).settleGas i (veilSubmission (who i) sub)) := by
  by_cases hg : sub.tx.gasLimit = 0
  · simp [settleGas, hg, setSubmission, setOperation, veilMove, veil, veil_submitting,
      veilSubmission, veilIf_veilIf Origin.veil_veil]
  · have hg' : ¬ (veilSubmission (who i) sub).tx.gasLimit = 0 := hg
    simp only [settleGas, hg, hg', if_false]
    exact veil_awaitNonce sub _

theorem veil_submit (origin : Origin κ) (tx : Transaction) (options : DeliveryOptions) :
    veilMove who (s.submit setup i origin tx options) =
      veilMove who
        ((s.veil who).submit setup i (veilIf (who i) Origin.veil origin) tx options) := by
  by_cases hp : tx.gasPrice = 0
  · simp [submit, hp, setSubmission, setOperation, veilMove, veil, veil_submitting,
      veilSubmission, veilIf_veilIf Origin.veil_veil]
  · simp only [submit, hp, if_false]
    exact veil_settleGas _

/-- The service with one more operation that is about to begin, behind the veil. -/
theorem veil_entering (r : Request κ) :
    ({ s with operations := s.operations ++ [⟨r, .entering⟩] } : Service κ).veil who =
      { s.veil who with
        operations := (s.veil who).operations ++
          [⟨veilIf (who s.operations.length) Request.veil r, .entering⟩] } := by
  cases hw : who s.operations.length <;>
    simp [veil, veilIf, hw, Operation.veil, Operation.Stage.veil]

theorem veil_begin (r : Request κ) :
    veilMove who (s.begin setup r) =
      veilMove who ((s.veil who).begin setup
        (veilIf (who s.operations.length) Request.veil r)) := by
  have hlen : (s.veil who).operations.length = s.operations.length := by simp [veil]
  have hsubmit (r : Request κ) (origin : Origin κ) (tx : Transaction)
      (options : DeliveryOptions) :
      veilMove who ({ s with operations := s.operations ++ [(⟨r, .entering⟩ : Operation κ)] }.submit
          setup
          s.operations.length origin tx options) =
        veilMove who ({ s.veil who with
            operations := (s.veil who).operations ++
              [(⟨veilIf (who s.operations.length) Request.veil r, .entering⟩ :
                Operation κ)] }.submit
          setup s.operations.length (veilIf (who s.operations.length) Origin.veil origin) tx
          options) := by
    rw [veil_submit, veil_entering]
  cases r with
  | send tx options =>
    cases hw : who s.operations.length <;>
      simpa [begin, hlen, hw, veilIf, Request.veil, Origin.veil] using
        hsubmit (.send tx options) .detached tx options
  | sendAndWait tx options =>
    cases hw : who s.operations.length <;>
      simpa [begin, hlen, hw, veilIf, Request.veil, Origin.veil] using
        hsubmit (.sendAndWait tx options) .attached tx options
  | enqueue | mark | status | estimate | replace | resetNonce =>
    cases hw : who s.operations.length <;>
      simp [begin, hw, veilIf, veilMove, veil, enterStatuses, setOperation, Operation.veil,
        Operation.Stage.veil, Request.veil]

theorem veil_signWith (sub : Submission κ) (n : Nonce) :
    veilMove who (s.signWith i sub n) =
      veilMove who ((s.veil who).signWith i (veilSubmission (who i) sub) n) := by
  simp [signWith, setSubmission, setOperation, veilMove, veil, veil_submitting, veilSubmission,
    veilIf_veilIf Origin.veil_veil]

theorem veil_broadcastFirst (sub : Submission κ) (n : Nonce) (signed : SignedTx) :
    veilMove who (s.broadcastFirst setup i sub n signed) =
      veilMove who ((s.veil who).broadcastFirst setup i (veilSubmission (who i) sub) n signed) := by
  simp [broadcastFirst, setSubmission, setOperation, veilMove, veil, veil_submitting,
    veilSubmission, veilIf_veilIf Origin.veil_veil, leaveNonce]

variable [DecidableEq κ]

theorem veil_refuse (sub : Submission κ) (e : DeliveryError) :
    veilMove who (s.refuse i sub e) =
      veilMove who ((s.veil who).refuse i (veilSubmission (who i) sub) e) := by
  cases horigin : sub.origin <;> cases hw : who i <;>
    simp [refuse, veilSubmission, horigin, hw, veilIf, Origin.veil, veilMove, veil, setOperation,
      Service.count]

/-- **An accepted broadcast starts the same delivery**, whether the caller waits for it or not. -/
theorem veil_launch (sub : Submission κ) (signed : SignedTx) (deadline : Nat) :
    veilMove who (s.launch setup i sub signed deadline) =
      veilMove who ((s.veil who).launch setup i (veilSubmission (who i) sub) signed deadline) := by
  cases horigin : sub.origin <;> cases hw : who i <;>
    simp [launch, veilSubmission, horigin, hw, veilIf, Origin.veil, veilMove, veil, setOperation,
      Service.count, Delivery.start, Delivery.veil, Operation.Stage.veil, Option.filter]

theorem veil_refuseBroadcast (sub : Submission κ) (e : ChainError) :
    veilMove who (s.refuseBroadcast i sub e) =
      veilMove who ((s.veil who).refuseBroadcast i (veilSubmission (who i) sub) e) := by
  have hcount (m : Move κ) (m' : Move κ) (seen : List Observation)
      (h : veilMove who m = veilMove who m') :
      veilMove who (m.1, seen ++ m.2) = veilMove who (m'.1, seen ++ m'.2) := by
    obtain ⟨hstate, hseen⟩ := Prod.mk.inj h
    simp only [veilMove, hstate, hseen]
  refine hcount _ _ [.logged .broadcastRejected] ?_
  cases e.isNonceTooLow with
  | true => exact veil_awaitNonce _ _
  | false => exact veil_refuse _ _

/-- **A submission goes on alike with a reply.** -/
theorem veil_replySubmission (sub : Submission κ) (reply : Reply) :
    veilMove? who (s.replySubmission setup i sub reply) =
      veilMove? who ((s.veil who).replySubmission setup i (veilSubmission (who i) sub) reply) := by
  cases hs : sub.stage <;> cases reply <;>
    simp only [replySubmission, veilSubmission, hs, veilMove?, Option.map_none, Option.map_some,
      Option.some.injEq]
  · exact veil_settleGas _
  · exact veil_refuse _ _
  · exact veil_awaitNonce _ _
  · exact veil_refuse _ _
  · exact veil_signWith _ _
  · exact veil_refuse _ _
  · exact veil_broadcastFirst _ _ _
  · exact veil_refuse _ _
  · exact veil_launch _ _ _
  · exact veil_refuseBroadcast _ _

/-- **A submission goes on alike with the nonce lock.** -/
theorem veil_resumeSubmission (sub : Submission κ) :
    veilMove? who (s.resumeSubmission setup i sub) =
      veilMove? who ((s.veil who).resumeSubmission setup i (veilSubmission (who i) sub)) := by
  cases hs : sub.stage <;>
    simp only [resumeSubmission, veilSubmission, hs, veilMove?, Option.map_none, Option.map_some,
      Option.some.injEq]
  · cases hn : s.nonce with
    | unknown =>
      simp [NonceState.candidate?, veil, hn, setSubmission, setOperation, veilMove, veil_submitting,
        veilSubmission, veilIf_veilIf Origin.veil_veil]
    | known last =>
      have hn' : (s.veil who).nonce = .known last := hn
      simp only [NonceState.candidate?, hn', Option.map_some, Option.some.injEq]
      exact veil_signWith _ _
  · exact veil_refuse (s := s.forgetNonce i) sub _

/-- **A send through the queue goes on alike.** -/
theorem veil_enqueue (tx : Transaction) (options : DeliveryOptions) :
    veilMove who (s.enqueue setup i tx options) =
      veilMove who ((s.veil who).enqueue setup i tx options) := by
  have hproceed (previous : TxStatus) :
      veilMove who ({ s with statuses := s.statuses.set (setup.keyOf tx) .pending }.submit setup i
          (.queue (setup.keyOf tx) previous) tx options) =
        veilMove who ({ s.veil who with
          statuses := s.statuses.set (setup.keyOf tx) .pending }.submit setup i
            (.queue (setup.keyOf tx) previous) tx options) := by
    rw [veil_submit]
    cases hw : who i <;> rfl
  have hget : (s.veil who).statuses = s.statuses := rfl
  cases h : s.statuses.get (setup.keyOf tx) with
  | pending | finished =>
    simp [enqueue, h, Service.count, leaveStatuses, finish, setOperation, veilMove, veil,
      veilIf, Operation.Stage.veil]
  | notFound =>
    simp only [enqueue, hget, h]
    exact hproceed _
  | error =>
    simp only [enqueue, hget, h]
    obtain ⟨hstate, hseen⟩ := Prod.mk.inj (hproceed .error)
    simp only [veilMove, hstate, hseen]

theorem veil_enterRequest (r : Request κ) :
    veilMove? who (s.enterRequest setup i r) =
      veilMove? who ((s.veil who).enterRequest setup i (veilIf (who i) Request.veil r)) := by
  cases r with
  | send | sendAndWait | estimate | replace | resetNonce =>
    cases hw : who i <;> simp [enterRequest, veilIf, Request.veil, veilMove?]
  | enqueue tx options =>
    rw [veilIf_of_eq rfl]
    simp only [enterRequest, veilMove?, Option.map_some, Option.some.injEq]
    exact veil_enqueue tx options
  | mark | status =>
    cases hw : who i <;>
      simp [enterRequest, veilIf, hw, Request.veil, veilMove?, leaveStatuses, finish, setOperation,
        veilMove, veil, Operation.Stage.veil]

/-- **An operation goes on alike with its lock.** -/
theorem veil_resume? : veilMove? who (s.resume? setup i) =
    veilMove? who ((s.veil who).resume? setup i) := by
  cases ho : s.operations[i]? with
  | none => simp [resume?, veil_operation_none ho, ho]
  | some o =>
    obtain ⟨r, st⟩ := o
    have ho' := veil_operation who ho
    simp only [resume?, ho, ho', Option.bind_eq_bind, Option.bind_some]
    cases st with
    | entering =>
      have hlock : (s.veil who).statusLock = s.statusLock := rfl
      rw [veilIf_of_eq rfl, hlock]
      by_cases hheld : s.statusLock.heldBy (.operation i)
      · simp only [hheld, if_true]
        exact veil_enterRequest r
      · simp [hheld]
    | submitting sub =>
      have hlock : (s.veil who).nonceLock = s.nonceLock := rfl
      rw [veil_submitting, hlock]
      by_cases hheld : s.nonceLock.heldBy i
      · simp only [hheld, if_true]
        exact veil_resumeSubmission sub
      · simp [hheld]
    | resetting =>
      have hlock : (s.veil who).nonceLock = s.nonceLock := rfl
      rw [veilIf_of_eq rfl, hlock]
      by_cases hheld : s.nonceLock.heldBy i <;> cases hw : who i <;>
        simp [hheld, hw, veilIf, veilMove?, forgetNonce, leaveNonce, Service.count, finish,
          setOperation, veilMove, veil, Operation.Stage.veil]
    | supervising | estimating | replacing | dropped =>
      cases who i <;> simp [veilIf, Operation.Stage.veil]
    | ended answer => cases who i <;> cases answer <;> simp [veilIf, Operation.Stage.veil]

/-- **An operation goes on alike with a reply.** -/
theorem veil_replyOperation? (reply : Reply) :
    veilMove? who (s.replyOperation? setup i reply) =
      veilMove? who ((s.veil who).replyOperation? setup i reply) := by
  cases ho : s.operations[i]? with
  | none => simp [replyOperation?, veil_operation_none ho, ho]
  | some o =>
    obtain ⟨r, st⟩ := o
    have ho' := veil_operation who ho
    simp only [replyOperation?, ho, ho', Option.bind_eq_bind, Option.bind_some]
    cases st with
    | submitting sub =>
      rw [veil_submitting]
      exact veil_replySubmission sub reply
    | estimating =>
      rw [veilIf_of_eq rfl]
      cases reply <;> cases hw : who i <;>
        simp [hw, veilIf, veilMove?, finish, setOperation, veilMove, veil, Operation.Stage.veil]
    | replacing e =>
      rw [veilIf_of_eq rfl]
      cases hp : e.advance? setup.config.priceBumpPercent reply with
      | none => simp [hp]
      | some progress =>
        cases hw : who i <;> rcases progress with e' | (err | tx) <;>
          simp [hp, hw, veilIf, veilMove?, finish, setOperation, veilMove, veil,
            Operation.Stage.veil]
    | entering | supervising | resetting | dropped =>
      cases who i <;> simp [veilIf, Operation.Stage.veil]
    | ended answer => cases who i <;> cases answer <;> simp [veilIf, Operation.Stage.veil]

omit [DecidableEq κ] in
/-- **A caller drops an operation alike**, unless it is behind the veil and waits for a delivery:
the others see nothing of it there. -/
theorem veil_drop? (hwait : who i = true → ∀ d, s.stage? i ≠ some (.supervising d)) :
    veilMove? who (s.drop? i) = veilMove? who ((s.veil who).drop? i) := by
  cases ho : s.operations[i]? with
  | none => simp [drop?, veil_operation_none ho, ho]
  | some o =>
    obtain ⟨r, st⟩ := o
    have ho' := veil_operation who ho
    have hst : s.stage? i = some st := by simp [stage?, ho]
    simp only [drop?, ho, ho', Option.bind_eq_bind, Option.bind_some]
    cases hw : who i with
    | false =>
      cases st <;>
        simp [hw, veilIf, Operation.isOpen, veilMove?, leaveNonce, leaveStatuses, setOperation,
          veilMove, veil]
    | true =>
      cases st with
      | supervising d => exact absurd hst (hwait hw d)
      | ended answer =>
        cases answer <;> simp [veilIf, Operation.Stage.veil, Operation.isOpen]
      | _ =>
        simp [hw, veilIf, Operation.isOpen, veilMove?, leaveNonce, leaveStatuses, setOperation,
          veilMove, veil, Operation.Stage.veil]

end Service

end TxDelivery
