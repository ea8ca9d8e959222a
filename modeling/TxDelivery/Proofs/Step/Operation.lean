import TxDelivery.Proofs.Step.Stage

/-!
# What operations can do

The steps of operations, one constructor for each thing an operation can do, with the conditions
under which it can and with everything it changes written out (`TxDelivery.Service.OperationStep`).
Three tables are shared by several of them: how a submission opens
(`TxDelivery.Submission.Opening`), how it is refused (`TxDelivery.Submission.Refusal`), and what it
is made of (`TxDelivery.Submission.Begins`).

Every step that a caller begins, drops or resumes, or that answers a call of an operation, is one of
these (`TxDelivery.Service.operationStep_of_begin` and the three lemmas after it).

## What is shared

The table would be much longer if the three kinds of sends were each written out with all their
beginnings and ends. Most of it does not depend on who asked. A submission opens in one of three
ways, by what the caller left open; these go with a send past the queue and with one through it. A
submission is refused by one of five calls, and what this does to the nonce, its lock and the
metrics is the same for all three, whereas what it does to the statuses and what the caller gets
depends on the origin and not on the call. So a refusal is one constructor for those who hold no key
and one for those who do, each with the shared table as a premise. Only the start of a delivery has
a constructor for each origin.

## From the functions to the table

The functions that take the steps are composed: a reply goes to the submission of an operation, from
there it may settle the price and go on to the gas and to the line for the nonce. The lemmas follow
them, one for each, and hand over a state that is described by equations to the next. In this way a
case is met once where the function makes it, and no goal has more of the service in it than the
part that is about to change.
-/

namespace TxDelivery

variable {κ : Type}

/-- The broadcast a request asks for without going through the queue. -/
def Request.broadcast? : Request κ → Option (Transaction × DeliveryOptions × Origin κ)
  | .send tx options => some (tx, options, .detached)
  | .sendAndWait tx options => some (tx, options, .attached)
  | _ => none

/-- How a request that begins with the status lock wants it. -/
def Request.access? : Request κ → Option Access
  | .enqueue _ _ | .mark _ _ => some .exclusive
  | .status _ => some .shared
  | _ => none

namespace Submission

/-- A submission is made of what the caller handed over; the sender is the signer. -/
structure Begins (setup : Setup κ) (origin : Origin κ) (tx : Transaction)
    (options : DeliveryOptions) (sub : Submission κ) : Prop where
  /-- Who asked is remembered. -/
  origin_eq : sub.origin = origin
  /-- So is what was asked for. -/
  options_eq : sub.options = options
  /-- The transaction is the caller's, sent by the signer. -/
  tx_eq : sub.tx = { tx with sender := setup.address }

/-- **How a submission opens**: with a look at the price, with an estimate, or in the line for the
nonce lock; the table gives the nonce lock afterwards and what is asked. -/
inductive Opening (lock : FairLock OperationId) (i : OperationId) (sub : Submission κ) :
    FairLock OperationId → List Observation → Prop where
  /-- The caller left the price open. -/
  | pricing (hs : sub.stage = .pricing) (hp : sub.tx.gasPrice = 0) :
      Opening lock i sub lock [.called (.operation i) .gasPrice]
  /-- The price is settled, the gas is open. -/
  | estimating (hs : sub.stage = .estimating) (hg : sub.tx.gasLimit = 0) :
      Opening lock i sub lock [.called (.operation i) (.estimateGas sub.tx)]
  /-- Price and gas are settled. -/
  | queued (hs : sub.stage = .queued) : Opening lock i sub (lock.enter i .exclusive) []

/-- **How a submission is refused**: the step it happens in, the error the caller gets, and nonce,
nonce lock, metrics and log afterwards. -/
inductive Refusal (s : Service κ) (i : OperationId) (sub : Submission κ) :
    Action κ → DeliveryError → NonceState → FairLock OperationId → Metrics → List Observation →
    Prop where
  /-- The price could not be read. -/
  | price {e : ChainError} (hs : sub.stage = .pricing) :
      Refusal s i sub (.reply (.operation i) (.failed e)) (.gasPrice e) s.nonce s.nonceLock
        s.metrics []
  /-- The gas could not be estimated. -/
  | gas {e : ChainError} (hs : sub.stage = .estimating) :
      Refusal s i sub (.reply (.operation i) (.failed e)) (.estimateGas e) s.nonce s.nonceLock
        s.metrics []
  /-- The nonce could not be read. -/
  | nonce {e : ChainError} (hs : sub.stage = .fetching) :
      Refusal s i sub (.reply (.operation i) (.failed e)) (.nonce e) s.nonce (s.nonceLock.leave i)
        s.metrics []
  /-- The signer failed. -/
  | sign {n : Nonce} {e : ChainError} (hs : sub.stage = .signing n) :
      Refusal s i sub (.reply (.operation i) (.failed e)) (.sign e) s.nonce (s.nonceLock.leave i)
        s.metrics []
  /-- The node refused the transaction for another reason than its nonce. -/
  | broadcast {signed : SignedTx} {deadline : Nat} {e : ChainError}
      (hs : sub.stage = .broadcasting signed deadline) (hlow : e.isNonceTooLow = false) :
      Refusal s i sub (.reply (.operation i) (.failed e)) (.broadcast e) s.nonce s.nonceLock
        (s.metrics.increment (.initialBroadcast false)) [.logged .broadcastRejected]
  /-- The nonce was too low, and is forgotten now. -/
  | forgotten {e : ChainError} (hs : sub.stage = .resetting e)
      (hheld : s.nonceLock.heldBy i = true) :
      Refusal s i sub (.resume i) (.broadcast e) .unknown (s.nonceLock.leave i)
        (s.metrics.increment .nonceReset) []

end Submission

namespace Service

variable [DecidableEq κ]

open Operation Submission

/-- **The steps of operations.** -/
inductive OperationStep (setup : Setup κ) (s : Service κ) : Action κ → Move κ → Prop where
  /-- A caller begins a send that does not go through the queue. -/
  | submit {r : Request κ} {tx : Transaction} {options : DeliveryOptions} {origin : Origin κ}
      {sub : Submission κ} {lock : FairLock OperationId} {seen : List Observation}
      (hr : r.broadcast? = some (tx, options, origin)) (hsub : sub.Begins setup origin tx options)
      (hopen : Opening s.nonceLock s.operations.length sub lock seen) :
      OperationStep setup s (.begin r)
        ({ s with operations := s.operations ++ [⟨r, .submitting sub⟩], nonceLock := lock }, seen)
  /-- A caller begins an operation on the statuses. -/
  | enter {r : Request κ} {access : Access} (hr : r.access? = some access) :
      OperationStep setup s (.begin r)
        ({ s with
            operations := s.operations ++ [⟨r, .entering⟩]
            statusLock := s.statusLock.enter (.operation s.operations.length) access }, [])
  /-- A caller begins an estimate. -/
  | estimate {tx : Transaction} :
      OperationStep setup s (.begin (.estimate tx))
        ({ s with operations := s.operations ++ [⟨.estimate tx, .estimating⟩] },
         [.called (.operation s.operations.length) (.estimateGas tx)])
  /-- A caller begins a replacement. -/
  | replace {base : SignedTx} {options : DeliveryOptions} :
      OperationStep setup s (.begin (.replace base options))
        ({ s with
            operations :=
              s.operations ++ [⟨.replace base options, .replacing (.start base options)⟩] },
         [.called (.operation s.operations.length) .gasPrice])
  /-- A caller begins to reset the nonce. -/
  | forget :
      OperationStep setup s (.begin .resetNonce)
        ({ s with
            operations := s.operations ++ [⟨.resetNonce, .resetting⟩]
            nonceLock := s.nonceLock.enter s.operations.length .exclusive }, [])
  /-- A send through the queue is not needed. -/
  | duplicate {i : OperationId} {tx : Transaction} {options : DeliveryOptions}
      {decision : QueueDecision} {event : LogEvent} (hst : s.stage? i = some .entering)
      (hr : s.request? i = some (.enqueue tx options))
      (hheld : s.statusLock.heldBy (.operation i) = true)
      (hdup : s.statuses.get (setup.keyOf tx) = .pending ∧ decision = .pending ∧
          event = .keyPending ∨
        s.statuses.get (setup.keyOf tx) = .finished ∧ decision = .finished ∧
          event = .keyFinished) :
      OperationStep setup s (.resume i)
        ({ s with
            operations := put s.operations i (.ended (.enqueued none))
            statusLock := s.statusLock.leave (.operation i)
            metrics := s.metrics.increment (.queueSend decision) }, [.logged event])
  /-- A send through the queue makes its key pending and opens its submission. -/
  | enqueue {i : OperationId} {tx : Transaction} {options : DeliveryOptions}
      {previous : TxStatus} {sub : Submission κ} {lock : FairLock OperationId}
      {seen : List Observation} (hst : s.stage? i = some .entering)
      (hr : s.request? i = some (.enqueue tx options))
      (hheld : s.statusLock.heldBy (.operation i) = true)
      (hget : s.statuses.get (setup.keyOf tx) = previous)
      (hprev : previous = .notFound ∨ previous = .error)
      (hsub : sub.Begins setup (.queue (setup.keyOf tx) previous) tx options)
      (hopen : Opening s.nonceLock i sub lock seen) :
      OperationStep setup s (.resume i)
        ({ s with
            operations := put s.operations i (.submitting sub)
            nonceLock := lock
            statuses := s.statuses.set (setup.keyOf tx) .pending },
         (if previous = .error then [.logged .keyRetried] else []) ++ seen)
  /-- A caller sets the status of a key. -/
  | mark {i : OperationId} {tx : Transaction} {status : TxStatus}
      (hst : s.stage? i = some .entering) (hr : s.request? i = some (.mark tx status))
      (hheld : s.statusLock.heldBy (.operation i) = true) :
      OperationStep setup s (.resume i)
        ({ s with
            operations := put s.operations i (.ended .done)
            statuses := s.statuses.set (setup.keyOf tx) status
            statusLock := s.statusLock.leave (.operation i) }, [])
  /-- A caller reads the status of a key. -/
  | read {i : OperationId} {key : κ} (hst : s.stage? i = some .entering)
      (hr : s.request? i = some (.status key))
      (hheld : s.statusLock.heldBy (.operation i) = true) :
      OperationStep setup s (.resume i)
        ({ s with
            operations := put s.operations i (.ended (.status (s.statuses.get key)))
            statusLock := s.statusLock.leave (.operation i) }, [])
  /-- A submission has the nonce lock and asks for the nonce. -/
  | fetch {i : OperationId} {sub : Submission κ} (hst : s.stage? i = some (.submitting sub))
      (hs : sub.stage = .queued) (hheld : s.nonceLock.heldBy i = true)
      (hnonce : s.nonce = .unknown) :
      OperationStep setup s (.resume i)
        ({ s with operations := put s.operations i (.submitting { sub with stage := .fetching }) },
         [.called (.operation i) (.nonce setup.address)])
  /-- A submission has the nonce lock and takes the nonce after the last. -/
  | sign {i : OperationId} {sub : Submission κ} {last : Nonce}
      (hst : s.stage? i = some (.submitting sub)) (hs : sub.stage = .queued)
      (hheld : s.nonceLock.heldBy i = true) (hnonce : s.nonce = .known last) :
      OperationStep setup s (.resume i)
        ({ s with
            operations :=
              put s.operations i (.submitting { sub with stage := .signing (last + 1) }) },
         [.called (.operation i) (.sign { sub.tx with nonce := last + 1 })])
  /-- The nonce is forgotten, as a caller wanted. -/
  | forgotten {i : OperationId} (hst : s.stage? i = some .resetting)
      (hheld : s.nonceLock.heldBy i = true) :
      OperationStep setup s (.resume i)
        ({ s with
            operations := put s.operations i (.ended .done)
            nonce := .unknown
            nonceLock := s.nonceLock.leave i
            metrics := s.metrics.increment .nonceReset }, [])
  /-- The price of a submission is there. -/
  | price {i : OperationId} {sub sub' : Submission κ} {p : GasPrice}
      {lock : FairLock OperationId} {seen : List Observation}
      (hst : s.stage? i = some (.submitting sub)) (hs : sub.stage = .pricing)
      (hsub : sub' = { sub with tx := { sub.tx with gasPrice := p }, stage := sub'.stage })
      (hne : sub'.stage ≠ .pricing) (hopen : Opening s.nonceLock i sub' lock seen) :
      OperationStep setup s (.reply (.operation i) (.price p))
        ({ s with operations := put s.operations i (.submitting sub'), nonceLock := lock }, seen)
  /-- The gas of a submission is there. -/
  | gas {i : OperationId} {sub : Submission κ} {g : UInt64}
      (hst : s.stage? i = some (.submitting sub)) (hs : sub.stage = .estimating) :
      OperationStep setup s (.reply (.operation i) (.gas g))
        ({ s with
            operations := put s.operations i
              (.submitting { sub with tx := { sub.tx with gasLimit := g }, stage := .queued })
            nonceLock := s.nonceLock.enter i .exclusive }, [])
  /-- The nonce of a submission is there. -/
  | nonce {i : OperationId} {sub : Submission κ} {n : Nonce}
      (hst : s.stage? i = some (.submitting sub)) (hs : sub.stage = .fetching) :
      OperationStep setup s (.reply (.operation i) (.nonce n))
        ({ s with
            operations :=
              put s.operations i (.submitting { sub with stage := .signing n }) },
         [.called (.operation i) (.sign { sub.tx with nonce := n })])
  /-- The signature of a submission is there: its nonce is committed. -/
  | signed {i : OperationId} {sub : Submission κ} {n : Nonce} {signed : SignedTx}
      (hst : s.stage? i = some (.submitting sub)) (hs : sub.stage = .signing n) :
      OperationStep setup s (.reply (.operation i) (.signed signed))
        ({ s with
            operations := put s.operations i (.submitting
              { sub with stage := .broadcasting signed (s.now + setup.config.periodMs) })
            nonce := .known n
            nonceLock := s.nonceLock.leave i }, [.called (.operation i) (.broadcast signed)])
  /-- The node found the nonce too low. -/
  | tooLow {i : OperationId} {sub : Submission κ} {signed : SignedTx} {deadline : Nat}
      {e : ChainError} (hst : s.stage? i = some (.submitting sub))
      (hs : sub.stage = .broadcasting signed deadline) (hlow : e.isNonceTooLow = true) :
      OperationStep setup s (.reply (.operation i) (.failed e))
        ({ s with
            operations := put s.operations i (.submitting { sub with stage := .resetting e })
            nonceLock := s.nonceLock.enter i .exclusive
            metrics := s.metrics.increment (.initialBroadcast false) },
         [.logged .broadcastRejected])
  /-- A submission that does not come from the queue is refused. -/
  | refuse {i : OperationId} {sub : Submission κ} {a : Action κ} {e : DeliveryError}
      {n : NonceState} {lock : FairLock OperationId} {m : Metrics} {seen : List Observation}
      (hst : s.stage? i = some (.submitting sub))
      (horigin : sub.origin = .detached ∨ sub.origin = .attached)
      (href : Refusal s i sub a e n lock m seen) :
      OperationStep setup s a
        ({ s with
            operations := put s.operations i (.ended (.failed e))
            nonce := n
            nonceLock := lock
            metrics := m }, seen)
  /-- A submission from the queue is refused: its key gets its previous status back. -/
  | refuseQueued {i : OperationId} {sub : Submission κ} {key : κ} {previous : TxStatus}
      {a : Action κ} {e : DeliveryError} {n : NonceState} {lock : FairLock OperationId}
      {m : Metrics} {seen : List Observation} (hst : s.stage? i = some (.submitting sub))
      (horigin : sub.origin = .queue key previous) (href : Refusal s i sub a e n lock m seen) :
      OperationStep setup s a
        ({ s with
            operations := put s.operations i (.ended (.failed e))
            nonce := n
            nonceLock := lock
            statuses := s.statuses.restore key previous
            statusLock := s.statusLock.leave (.operation i)
            metrics := m.increment (.queueSend .rejected) }, seen)
  /-- The node accepted a first broadcast, and nobody waits for the outcome. -/
  | launchDetached {i : OperationId} {sub : Submission κ} {signed : SignedTx} {deadline : Nat}
      {hash : Hash} (hst : s.stage? i = some (.submitting sub))
      (hs : sub.stage = .broadcasting signed deadline) (horigin : sub.origin = .detached) :
      OperationStep setup s (.reply (.operation i) (.accepted hash))
        ({ s with
            operations := put s.operations i (.ended (.sent signed.hash))
            deliveries := s.deliveries ++
              [.start setup.config s.now none sub.options deadline signed]
            metrics := s.metrics.increment (.initialBroadcast true) }, [.logged .broadcast])
  /-- The node accepted a first broadcast, and the caller waits for the outcome. -/
  | launchAttached {i : OperationId} {sub : Submission κ} {signed : SignedTx} {deadline : Nat}
      {hash : Hash} (hst : s.stage? i = some (.submitting sub))
      (hs : sub.stage = .broadcasting signed deadline) (horigin : sub.origin = .attached) :
      OperationStep setup s (.reply (.operation i) (.accepted hash))
        ({ s with
            operations := put s.operations i (.supervising s.deliveries.length)
            deliveries := s.deliveries ++
              [.start setup.config s.now (some i) sub.options deadline signed]
            metrics := s.metrics.increment (.initialBroadcast true) }, [.logged .broadcast])
  /-- The node accepted a first broadcast from the queue. -/
  | launchQueued {i : OperationId} {sub : Submission κ} {key : κ} {previous : TxStatus}
      {signed : SignedTx} {deadline : Nat} {hash : Hash}
      (hst : s.stage? i = some (.submitting sub))
      (hs : sub.stage = .broadcasting signed deadline)
      (horigin : sub.origin = .queue key previous) :
      OperationStep setup s (.reply (.operation i) (.accepted hash))
        ({ s with
            operations := put s.operations i (.ended (.enqueued (some signed.hash)))
            statusLock := s.statusLock.leave (.operation i)
            deliveries := s.deliveries ++
              [.start setup.config s.now none sub.options deadline signed]
            metrics := (s.metrics.increment (.initialBroadcast true)).increment
              (.queueSend .submitted) }, [.logged .broadcast])
  /-- An estimate or a replacement for a caller ends. -/
  | answer {i : OperationId} {st : Operation.Stage κ} {reply : Reply} {answer : Answer}
      {log : List LogEvent} (hst : s.stage? i = some st)
      (hs : st = .estimating ∨ ∃ e, st = .replacing e)
      (hanswer : ∀ outcome, answer ≠ .delivered outcome) :
      OperationStep setup s (.reply (.operation i) reply)
        ({ s with operations := put s.operations i (.ended answer) }, log.map .logged)
  /-- A replacement for a caller goes on. -/
  | escalate {i : OperationId} {e e' : Escalation} {reply : Reply}
      (hst : s.stage? i = some (.replacing e)) :
      OperationStep setup s (.reply (.operation i) reply)
        ({ s with operations := put s.operations i (.replacing e') },
         [.called (.operation i) e'.call])
  /-- A caller drops an operation that does not wait for a delivery. -/
  | drop {i : OperationId} {st : Operation.Stage κ} (hst : s.stage? i = some st)
      (hended : ∀ a, st ≠ .ended a) (hdropped : st ≠ .dropped)
      (hwait : ∀ d, st ≠ .supervising d) :
      OperationStep setup s (.drop i)
        ({ s with
            operations := put s.operations i .dropped
            nonceLock := s.nonceLock.leave i
            statusLock := s.statusLock.leave (.operation i) }, [])
  /-- A caller drops an operation that waits for a delivery, which ends with it. -/
  | dropWaiting {i : OperationId} {d : DeliveryId} (hst : s.stage? i = some (.supervising d)) :
      OperationStep setup s (.drop i)
        ({ s with
            operations := put s.operations i .dropped
            nonceLock := s.nonceLock.leave i
            statusLock := s.statusLock.leave (.operation i)
            deliveries := s.deliveries.modify d Delivery.abandon }, [])

/-! ### Every step of an operation is in the table -/

variable {setup : Setup κ} {s : Service κ} {m : Move κ}

omit [DecidableEq κ] in
/-- Once its price is settled a submission opens with an estimate or in the line. -/
theorem settleGas_opening (s : Service κ) (i : OperationId) (sub : Submission κ) :
    ∃ sub' lock seen, sub' = { sub with stage := sub'.stage } ∧ sub'.stage ≠ .pricing ∧
      Opening s.nonceLock i sub' lock seen ∧
      s.settleGas i sub =
        ({ s with operations := put s.operations i (.submitting sub'), nonceLock := lock },
         seen) := by
  by_cases hg : sub.tx.gasLimit = 0
  · refine ⟨{ sub with stage := .estimating }, _, _, rfl, ?_, .estimating rfl hg, ?_⟩
    · simp
    · simp only [settleGas, hg, if_true]
      rfl
  · refine ⟨{ sub with stage := .queued }, _, _, rfl, ?_, .queued rfl, ?_⟩
    · simp
    · simp only [settleGas, hg, if_false]
      rfl

omit [DecidableEq κ] in
/-- A submission opens in one of the three ways. -/
theorem submit_opening (setup : Setup κ) (s : Service κ) (i : OperationId) (origin : Origin κ)
    (tx : Transaction) (options : DeliveryOptions) :
    ∃ sub lock seen, sub.Begins setup origin tx options ∧ Opening s.nonceLock i sub lock seen ∧
      s.submit setup i origin tx options =
        ({ s with operations := put s.operations i (.submitting sub), nonceLock := lock },
         seen) := by
  by_cases hp : tx.gasPrice = 0
  · refine ⟨⟨origin, { tx with sender := setup.address }, options, .pricing⟩, _, _,
      ⟨rfl, rfl, rfl⟩, .pricing rfl hp, ?_⟩
    simp only [submit, hp, if_true]
    rfl
  · obtain ⟨sub, lock, seen, hsub, -, hopen, heq⟩ := settleGas_opening s i
      ⟨origin, { tx with sender := setup.address }, options, .pricing⟩
    refine ⟨sub, lock, seen, ⟨?_, ?_, ?_⟩, hopen, ?_⟩
    · rw [hsub]
    · rw [hsub]
    · rw [hsub]
    · simp only [submit, hp, if_false]
      exact heq

/-- Beginning a broadcast that does not go through the queue. -/
theorem operationStep_submit {r : Request κ} {tx : Transaction} {options : DeliveryOptions}
    {origin : Origin κ} (hr : r.broadcast? = some (tx, options, origin)) :
    OperationStep setup s (.begin r)
      ({ s with operations := s.operations ++ [(⟨r, .entering⟩ : Operation κ)] }.submit setup
        s.operations.length origin tx options) := by
  obtain ⟨sub, lock, seen, hsub, hopen, heq⟩ := submit_opening setup
    { s with operations := s.operations ++ [⟨r, .entering⟩] } s.operations.length origin tx options
  rw [heq, put_append_singleton]
  exact .submit hr hsub hopen

/-- **What a caller begins.** -/
theorem operationStep_of_begin (r : Request κ) :
    OperationStep setup s (.begin r) (s.begin setup r) := by
  cases r with
  | send tx options => exact operationStep_submit (r := .send tx options) rfl
  | sendAndWait tx options => exact operationStep_submit (r := .sendAndWait tx options) rfl
  | enqueue tx options => exact .enter rfl
  | mark tx status => exact .enter rfl
  | status key => exact .enter rfl
  | estimate tx =>
    have h := @OperationStep.estimate κ _ setup s tx
    rwa [← put_append_singleton _ _ .entering] at h
  | replace base options =>
    have h := @OperationStep.replace κ _ setup s base options
    rwa [← put_append_singleton _ _ .entering] at h
  | resetNonce =>
    have h := @OperationStep.forget κ _ setup s
    rwa [← put_append_singleton _ _ .entering] at h

/-- **What a caller drops.** -/
theorem operationStep_of_drop? {i : OperationId} (h : s.drop? i = some m) :
    OperationStep setup s (.drop i) m := by
  obtain ⟨o, ho, h⟩ := Option.bind_eq_some_iff.mp h
  have hst : s.stage? i = some o.stage := by simp [stage?, ho]
  by_cases hopen : o.isOpen
  · rw [if_pos hopen] at h
    cases hstage : o.stage with
    | supervising d =>
      simp only [hstage, Option.some.injEq] at h hst
      exact h ▸ .dropWaiting hst
    | ended a => simp [isOpen, hstage] at hopen
    | dropped => simp [isOpen, hstage] at hopen
    | entering =>
      simp only [hstage, Option.some.injEq] at h hst
      exact h ▸ .drop hst (by simp) (by simp) (by simp)
    | submitting sub =>
      simp only [hstage, Option.some.injEq] at h hst
      exact h ▸ .drop hst (by simp) (by simp) (by simp)
    | estimating =>
      simp only [hstage, Option.some.injEq] at h hst
      exact h ▸ .drop hst (by simp) (by simp) (by simp)
    | replacing e =>
      simp only [hstage, Option.some.injEq] at h hst
      exact h ▸ .drop hst (by simp) (by simp) (by simp)
    | resetting =>
      simp only [hstage, Option.some.injEq] at h hst
      exact h ▸ .drop hst (by simp) (by simp) (by simp)
  · rw [if_neg hopen] at h
    contradiction

/-- A refusal, whoever asked for the submission. -/
theorem operationStep_refuse {i : OperationId} {sub : Submission κ} {a : Action κ}
    {e : DeliveryError} {n : NonceState} {lock : FairLock OperationId} {metrics : Metrics}
    {seen : List Observation} (hst : s.stage? i = some (.submitting sub))
    (href : Refusal s i sub a e n lock metrics seen) :
    OperationStep setup s a
      (({ s with nonce := n, nonceLock := lock, metrics := metrics }.refuse i sub e).1, seen) := by
  cases horigin : sub.origin with
  | detached =>
    simp only [Service.refuse, horigin]
    exact .refuse hst (.inl horigin) href
  | attached =>
    simp only [Service.refuse, horigin]
    exact .refuse hst (.inr horigin) href
  | queue key previous =>
    simp only [Service.refuse, horigin]
    exact .refuseQueued hst horigin href

/-- **A submission that has the nonce lock.** -/
theorem operationStep_of_resumeSubmission {i : OperationId} {sub : Submission κ}
    (hst : s.stage? i = some (.submitting sub)) (hheld : s.nonceLock.heldBy i = true)
    (h : s.resumeSubmission setup i sub = some m) : OperationStep setup s (.resume i) m := by
  cases hs : sub.stage with
  | queued =>
    cases hnonce : s.nonce with
    | unknown =>
      simp only [resumeSubmission, hs, hnonce, NonceState.candidate?, Option.some.injEq] at h
      exact h ▸ .fetch hst hs hheld hnonce
    | known last =>
      simp only [resumeSubmission, hs, hnonce, NonceState.candidate?, Option.some.injEq] at h
      exact h ▸ .sign hst hs hheld hnonce
  | resetting e =>
    simp only [resumeSubmission, hs, Option.some.injEq] at h
    exact h ▸ operationStep_refuse hst (.forgotten hs hheld)
  | pricing => simp [resumeSubmission, hs] at h
  | estimating => simp [resumeSubmission, hs] at h
  | fetching => simp [resumeSubmission, hs] at h
  | signing n => simp [resumeSubmission, hs] at h
  | broadcasting signed deadline => simp [resumeSubmission, hs] at h

/-- **A send through the queue that has the status lock.** -/
theorem operationStep_of_enqueue {i : OperationId} {tx : Transaction} {options : DeliveryOptions}
    (hst : s.stage? i = some .entering) (hr : s.request? i = some (.enqueue tx options))
    (hheld : s.statusLock.heldBy (.operation i) = true) :
    OperationStep setup s (.resume i) (s.enqueue setup i tx options) := by
  cases hget : s.statuses.get (setup.keyOf tx) with
  | pending =>
    simp only [Service.enqueue, hget]
    exact .duplicate hst hr hheld (.inl ⟨hget, rfl, rfl⟩)
  | finished =>
    simp only [Service.enqueue, hget]
    exact .duplicate hst hr hheld (.inr ⟨hget, rfl, rfl⟩)
  | notFound =>
    obtain ⟨sub, lock, seen, hsub, hopen, heq⟩ := submit_opening setup
      { s with statuses := s.statuses.set (setup.keyOf tx) .pending } i
      (.queue (setup.keyOf tx) .notFound) tx options
    simp only [Service.enqueue, hget, heq]
    exact .enqueue hst hr hheld hget (.inl rfl) hsub hopen
  | error =>
    obtain ⟨sub, lock, seen, hsub, hopen, heq⟩ := submit_opening setup
      { s with statuses := s.statuses.set (setup.keyOf tx) .pending } i
      (.queue (setup.keyOf tx) .error) tx options
    simp only [Service.enqueue, hget, heq]
    exact .enqueue hst hr hheld hget (.inr rfl) hsub hopen

/-- **What goes on with a lock.** -/
theorem operationStep_of_resume? {i : OperationId} (h : s.resume? setup i = some m) :
    OperationStep setup s (.resume i) m := by
  obtain ⟨o, ho, h⟩ := Option.bind_eq_some_iff.mp h
  have hst : s.stage? i = some o.stage := by simp [stage?, ho]
  have hr : s.request? i = some o.request := by simp [request?, ho]
  cases hstage : o.stage with
  | entering =>
    rw [hstage] at hst
    simp only [hstage, Option.ite_none_right_eq_some] at h
    obtain ⟨hheld, h⟩ := h
    cases hreq : o.request with
    | enqueue tx options =>
      rw [hreq] at hr
      simp only [hreq, enterRequest, Option.some.injEq] at h
      exact h ▸ operationStep_of_enqueue hst hr hheld
    | mark tx status =>
      rw [hreq] at hr
      simp only [hreq, enterRequest, Option.some.injEq] at h
      exact h ▸ .mark hst hr hheld
    | status key =>
      rw [hreq] at hr
      simp only [hreq, enterRequest, Option.some.injEq] at h
      exact h ▸ .read hst hr hheld
    | send tx options => simp [hreq, enterRequest] at h
    | sendAndWait tx options => simp [hreq, enterRequest] at h
    | estimate tx => simp [hreq, enterRequest] at h
    | replace base options => simp [hreq, enterRequest] at h
    | resetNonce => simp [hreq, enterRequest] at h
  | submitting sub =>
    rw [hstage] at hst
    simp only [hstage, Option.ite_none_right_eq_some] at h
    exact operationStep_of_resumeSubmission hst h.1 h.2
  | resetting =>
    rw [hstage] at hst
    simp only [hstage, Option.ite_none_right_eq_some, Option.some.injEq] at h
    exact h.2 ▸ .forgotten hst h.1
  | supervising d => simp [hstage] at h
  | estimating => simp [hstage] at h
  | replacing e => simp [hstage] at h
  | ended a => simp [hstage] at h
  | dropped => simp [hstage] at h

/-- The start of a delivery, whoever asked for the submission. -/
theorem operationStep_launch {i : OperationId} {sub : Submission κ} {signed : SignedTx}
    {deadline : Nat} {hash : Hash} (hst : s.stage? i = some (.submitting sub))
    (hs : sub.stage = .broadcasting signed deadline) :
    OperationStep setup s (.reply (.operation i) (.accepted hash))
      (s.launch setup i sub signed deadline) := by
  cases horigin : sub.origin with
  | detached =>
    simp only [launch, horigin, reduceCtorEq, if_false]
    exact .launchDetached hst hs horigin
  | attached =>
    simp only [launch, horigin, if_true]
    exact .launchAttached hst hs horigin
  | queue key previous =>
    simp only [launch, horigin, reduceCtorEq, if_false]
    exact .launchQueued hst hs horigin

/-- A refusal by the node. -/
theorem operationStep_refuseBroadcast {i : OperationId} {sub : Submission κ} {signed : SignedTx}
    {deadline : Nat} {e : ChainError} (hst : s.stage? i = some (.submitting sub))
    (hs : sub.stage = .broadcasting signed deadline) :
    OperationStep setup s (.reply (.operation i) (.failed e)) (s.refuseBroadcast i sub e) := by
  cases hlow : e.isNonceTooLow with
  | true =>
    simp only [refuseBroadcast, hlow, if_true]
    exact .tooLow hst hs hlow
  | false =>
    simp only [refuseBroadcast, hlow, Bool.false_eq_true, if_false]
    exact operationStep_refuse hst (.broadcast hs hlow)

/-- **A submission that gets a reply.** -/
theorem operationStep_of_replySubmission {i : OperationId} {sub : Submission κ} {reply : Reply}
    (hst : s.stage? i = some (.submitting sub))
    (h : s.replySubmission setup i sub reply = some m) :
    OperationStep setup s (.reply (.operation i) reply) m := by
  unfold replySubmission at h
  split at h
  case h_1 p hs =>
    obtain rfl := Option.some.inj h
    obtain ⟨sub', lock, seen, hsub, hne, hopen, heq⟩ :=
      settleGas_opening s i { sub with tx := { sub.tx with gasPrice := p } }
    rw [heq]
    exact .price hst hs hsub hne hopen
  case h_2 e hs => exact Option.some.inj h ▸ operationStep_refuse hst (.price hs)
  case h_3 g hs =>
    have hstep := @OperationStep.gas κ _ setup s i sub g hst hs
    exact Option.some.inj h ▸ hstep
  case h_4 e hs => exact Option.some.inj h ▸ operationStep_refuse hst (.gas hs)
  case h_5 n hs => exact Option.some.inj h ▸ .nonce hst hs
  case h_6 e hs => exact Option.some.inj h ▸ operationStep_refuse hst (.nonce hs)
  case h_7 n signed hs => exact Option.some.inj h ▸ .signed hst hs
  case h_8 n e hs => exact Option.some.inj h ▸ operationStep_refuse hst (.sign hs)
  case h_9 signed deadline hash hs => exact Option.some.inj h ▸ operationStep_launch hst hs
  case h_10 signed deadline e hs =>
    exact Option.some.inj h ▸ operationStep_refuseBroadcast hst hs
  case h_11 => contradiction

/-- **What a reply makes of an operation.** -/
theorem operationStep_of_replyOperation? {i : OperationId} {reply : Reply}
    (h : s.replyOperation? setup i reply = some m) :
    OperationStep setup s (.reply (.operation i) reply) m := by
  obtain ⟨o, ho, hm⟩ := Option.bind_eq_some_iff.mp h
  have hst : s.stage? i = some o.stage := by simp [stage?, ho]
  split at hm
  case h_1 sub hstage =>
    rw [hstage] at hst
    exact operationStep_of_replySubmission hst hm
  case h_2 g hstage =>
    rw [hstage] at hst
    obtain rfl := Option.some.inj hm
    exact @OperationStep.answer _ _ _ _ _ _ _ _ [] hst (.inl rfl) (by simp)
  case h_3 e hstage =>
    rw [hstage] at hst
    obtain rfl := Option.some.inj hm
    exact @OperationStep.answer _ _ _ _ _ _ _ _ [] hst (.inl rfl) (by simp)
  case h_4 e hstage =>
    rw [hstage] at hst
    obtain ⟨progress, -, hm⟩ := Option.bind_eq_some_iff.mp hm
    cases progress with
    | asking e' =>
      obtain rfl := Option.some.inj hm
      exact .escalate hst
    | ended result =>
      cases result with
      | error err =>
        obtain rfl := Option.some.inj hm
        exact @OperationStep.answer _ _ _ _ _ _ _ _ [] hst (.inr ⟨e, rfl⟩) (by simp)
      | ok tx =>
        obtain rfl := Option.some.inj hm
        cases tx with
        | none =>
          exact @OperationStep.answer _ _ _ _ _ _ _ _ [.priceCompetitive] hst (.inr ⟨e, rfl⟩)
            (by simp)
        | some tx => exact @OperationStep.answer _ _ _ _ _ _ _ _ [] hst (.inr ⟨e, rfl⟩) (by simp)
  case h_5 => contradiction

end Service

end TxDelivery
