import TxDelivery.Service.State

/-!
# First broadcasts

A submission fills in what the caller left open, takes the next nonce, has the transaction signed
and broadcasts it. Price and gas come before the nonce, so that a failure there leaves no gap; **the
nonce counts as handed out once the signature is there**, and only then is the nonce lock left. An
accepted broadcast starts a delivery; a refused one gives the error to the caller, and a nonce that
proved too low makes the service forget what it knew.

A submission is the same for the three kinds of sends. They differ in who asked, its origin, and
this is looked at in two places: where it is refused (`TxDelivery.Service.refuse`), and where its
delivery starts (`TxDelivery.Service.launch`). A send through the queue has a key to free in both. A
caller who waits goes on waiting for the delivery, which is told whom to hand the outcome to.

The nonce lock is asked for at most twice. The first time is for the next nonce; if nothing is known
of it the chain is asked under the lock, and the signature is made under the lock in any case. The
second time is after a refusal for the nonce, and here the lock is asked for again, at the end of
the line: others who were in it get nonces first, and what they leave in the cache is forgotten too.

The time of a delivery starts to run with the signature and not with the acceptance, so that its
deadline is part of the stage in which the broadcast is waited for.
-/

namespace TxDelivery

namespace Service

variable {κ : Type} [DecidableEq κ]

/-- Puts a submission into a stage. -/
def setSubmission (s : Service κ) (i : OperationId) (sub : Submission κ)
    (stage : Submission.Stage) : Service κ :=
  s.setOperation i (.submitting { sub with stage := stage })

/-- A submission ends without a delivery. The queue gives the key its previous status back before
anybody else can look at it. -/
def refuse (s : Service κ) (i : OperationId) (sub : Submission κ) (error : DeliveryError) :
    Move κ :=
  let s := match sub.origin with
    | .queue key previous =>
      { s.count (.queueSend .rejected) with
        statuses := s.statuses.restore key previous
        statusLock := s.statusLock.leave (.operation i) }
    | .detached | .attached => s
  (s.setOperation i (.ended (.failed error)), [])

/-- A submission waits for the nonce lock, to go on in `stage`. -/
def awaitNonce (s : Service κ) (i : OperationId) (sub : Submission κ)
    (stage : Submission.Stage) : Move κ :=
  ({ s with nonceLock := s.nonceLock.enter i .exclusive }.setSubmission i sub stage, [])

/-- A submission whose price is settled: the gas is estimated unless the caller gave it. -/
def settleGas (s : Service κ) (i : OperationId) (sub : Submission κ) : Move κ :=
  if sub.tx.gasLimit = 0 then
    (s.setSubmission i sub .estimating, [.called (.operation i) (.estimateGas sub.tx)])
  else s.awaitNonce i sub .queued

/-- **A submission begins.** The sender is the signer; the price is asked for unless the caller gave
it. -/
def submit (setup : Setup κ) (s : Service κ) (i : OperationId) (origin : Origin κ)
    (tx : Transaction) (options : DeliveryOptions) : Move κ :=
  let sub : Submission κ := ⟨origin, { tx with sender := setup.address }, options, .pricing⟩
  if sub.tx.gasPrice = 0 then (s.setSubmission i sub .pricing, [.called (.operation i) .gasPrice])
  else s.settleGas i sub

/-- A submission has its nonce, and the transaction is signed with it. -/
def signWith (s : Service κ) (i : OperationId) (sub : Submission κ) (nonce : Nonce) : Move κ :=
  (s.setSubmission i sub (.signing nonce),
   [.called (.operation i) (.sign { sub.tx with nonce := nonce })])

/-- Leaves the nonce lock. -/
def leaveNonce (s : Service κ) (i : OperationId) : Service κ :=
  { s with nonceLock := s.nonceLock.leave i }

/-- Forgets the nonce and leaves the lock around it. -/
def forgetNonce (s : Service κ) (i : OperationId) : Service κ :=
  { (s.leaveNonce i).count .nonceReset with nonce := .unknown }

/-- **The signature is there**: the nonce counts as handed out, the time of the delivery starts to
run, and the transaction is broadcast. -/
def broadcastFirst (setup : Setup κ) (s : Service κ) (i : OperationId) (sub : Submission κ)
    (nonce : Nonce) (signed : SignedTx) : Move κ :=
  ({ s.leaveNonce i with nonce := .known nonce }.setSubmission i sub
    (.broadcasting signed (s.now + setup.config.periodMs)),
   [.called (.operation i) (.broadcast signed)])

/-- **The node accepted the first broadcast**: its delivery starts. -/
def launch (setup : Setup κ) (s : Service κ) (i : OperationId) (sub : Submission κ)
    (signed : SignedTx) (deadline : Nat) : Move κ :=
  let d := s.deliveries.length
  let owner := if sub.origin = .attached then some i else none
  let s := { s.count (.initialBroadcast true) with
    deliveries := s.deliveries ++
      [Delivery.start setup.config s.now owner sub.options deadline signed] }
  let s := match sub.origin with
    | .detached => s.setOperation i (.ended (.sent signed.hash))
    | .attached => s.setOperation i (.supervising d)
    | .queue _ _ =>
      { s.count (.queueSend .submitted) with
        statusLock := s.statusLock.leave (.operation i) }.setOperation i
          (.ended (.enqueued (some signed.hash)))
  (s, [.logged .broadcast])

/-- **The node refused the first broadcast.** If the nonce was too low it is forgotten before the
caller learns of the refusal. -/
def refuseBroadcast (s : Service κ) (i : OperationId) (sub : Submission κ) (error : ChainError) :
    Move κ :=
  let s := s.count (.initialBroadcast false)
  let (s, seen) :=
    if error.isNonceTooLow then s.awaitNonce i sub (.resetting error)
    else s.refuse i sub (.broadcast error)
  (s, .logged .broadcastRejected :: seen)

/-- A submission goes on with the reply it waited for. -/
def replySubmission (setup : Setup κ) (s : Service κ) (i : OperationId) (sub : Submission κ)
    (reply : Reply) : Option (Move κ) :=
  match sub.stage, reply with
  | .pricing, .price p => some (s.settleGas i { sub with tx := { sub.tx with gasPrice := p } })
  | .pricing, .failed e => some (s.refuse i sub (.gasPrice e))
  | .estimating, .gas g =>
    some (s.awaitNonce i { sub with tx := { sub.tx with gasLimit := g } } .queued)
  | .estimating, .failed e => some (s.refuse i sub (.estimateGas e))
  | .fetching, .nonce n => some (s.signWith i sub n)
  | .fetching, .failed e => some ((s.leaveNonce i).refuse i sub (.nonce e))
  | .signing n, .signed signed => some (s.broadcastFirst setup i sub n signed)
  | .signing _, .failed e => some ((s.leaveNonce i).refuse i sub (.sign e))
  | .broadcasting signed deadline, .accepted _ => some (s.launch setup i sub signed deadline)
  | .broadcasting _ _, .failed e => some (s.refuseBroadcast i sub e)
  | _, _ => none

/-- A submission goes on with the nonce lock it waited for. -/
def resumeSubmission (setup : Setup κ) (s : Service κ) (i : OperationId) (sub : Submission κ) :
    Option (Move κ) :=
  match sub.stage with
  | .queued =>
    match s.nonce.candidate? with
    | none =>
      some (s.setSubmission i sub .fetching, [.called (.operation i) (.nonce setup.address)])
    | some n => some (s.signWith i sub n)
  | .resetting e => some ((s.forgetNonce i).refuse i sub (.broadcast e))
  | _ => none

end Service

end TxDelivery
