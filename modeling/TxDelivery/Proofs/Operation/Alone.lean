import TxDelivery.Proofs.History
import TxDelivery.Proofs.Step.Basic

/-!
# A submission on its own

A submission makes up to five calls that can fail, two of them only if the caller left something
open and one only if the nonce is unknown. This module follows one through a run in which nobody
else does anything, against a chain and a signer that may answer each call in any way
(`TxDelivery.Answers`). There are six ways to end (`TxDelivery.Service.Comes`), each given by the
answers, with nothing of the service changed but what is said there.

The submission goes through its stages one after another (`TxDelivery.Service.Reaches`): each is
reached with the part of the transaction filled in so far and with the calls made so far, and **from
each the answers leave one way to go on** (`TxDelivery.Service.Reaches.advances`).

## Why it is said forwards

What could be had without effort is that if the submission ends, it ends in one of the six ways.
That would be true of a service that never got anywhere. So a stage comes with the number of steps
that are still to come at most, and going on has two halves: there is a step that is possible and
leads to a stage with a smaller number, and besides that step only time can pass
(`TxDelivery.Service.Advances`). From the first it follows that an end is reached, from the second
that there is no other.

Each stage is settled by itself. A service during a submission is the service without it, with one
operation and the nonce lock changed and the time as it may be (`TxDelivery.Service.during`), so a
lemma about a stage names the service before the submission and nothing that happened on the way.

A send past the queue and a send through it go the same way; what the queue does besides is kept
apart (`TxDelivery.Service.settle`), and so is how a submission comes about
(`TxDelivery.Service.Opens`). Time that passes between two steps changes nothing.
-/

namespace TxDelivery

/-! ### The chain and the signer -/

/-- **How the chain and the signer answer** a submission, which makes each call at most once. -/
structure Answers where
  /-- The market price. -/
  price : Except ChainError GasPrice
  /-- The estimate of a transaction. -/
  gas : Transaction → Except ChainError UInt64
  /-- The next nonce of an account. -/
  nonce : Address → Except ChainError Nonce
  /-- The signature of a transaction. -/
  sign : Transaction → Except ChainError SignedTx
  /-- What becomes of a broadcast. -/
  broadcast : SignedTx → Except ChainError Hash

/-- A result or a failure as a reply. -/
def Reply.ofExcept {α : Type} (f : α → Reply) : Except ChainError α → Reply
  | .ok a => f a
  | .error e => .failed e

namespace Answers

/-- The reply to a call of a submission. -/
def reply? (w : Answers) : Call → Option Reply
  | .gasPrice => some (.ofExcept .price w.price)
  | .estimateGas tx => some (.ofExcept .gas (w.gas tx))
  | .nonce account => some (.ofExcept .nonce (w.nonce account))
  | .sign tx => some (.ofExcept .signed (w.sign tx))
  | .broadcast tx => some (.ofExcept .accepted (w.broadcast tx))
  | .receipt _ | .head => none

/-- **The price of a submission**: the caller's, or the market price if the caller gave none. -/
def Priced (w : Answers) (tx : Transaction) (p : GasPrice) : Prop :=
  if tx.gasPrice = 0 then w.price = .ok p else p = tx.gasPrice

/-- **The gas of a submission**: the caller's, or the estimate of the transaction with its sender
and its price if the caller gave none. -/
def Fuelled (w : Answers) (sender : Address) (tx : Transaction) (p : GasPrice) (g : UInt64) :
    Prop :=
  if tx.gasLimit = 0 then w.gas { tx with sender := sender, gasPrice := p } = .ok g
  else g = tx.gasLimit

/-- **The nonce of a submission**: the one after the last, or the chain's if that is unknown. -/
def Numbered (w : Answers) (sender : Address) (cache : NonceState) (n : Nonce) : Prop :=
  cache.candidate (w.nonce sender) = .ok n

end Answers

/-- The call for the price, if it is needed. -/
def Transaction.priceCalls (tx : Transaction) : List Call :=
  if tx.gasPrice = 0 then [.gasPrice] else []

/-- The call for the gas, if it is needed. -/
def Transaction.gasCalls (tx : Transaction) (sender : Address) (p : GasPrice) : List Call :=
  if tx.gasLimit = 0 then [.estimateGas { tx with sender := sender, gasPrice := p }] else []

/-- The call for the nonce, if it is needed. -/
def NonceState.calls (cache : NonceState) (sender : Address) : List Call :=
  if cache.asksChain then [.nonce sender] else []

/-- A caller's transaction with everything filled in. -/
def Transaction.fill (tx : Transaction) (sender : Address) (p : GasPrice) (g : UInt64) (n : Nonce) :
    Transaction :=
  { tx with sender := sender, gasPrice := p, gasLimit := g, nonce := n }

/-- Whether an observation is a line of the log. -/
def Observation.isLogged : Observation → Bool
  | .logged _ => true
  | .called _ _ | .published _ _ => false

/-- **What is asked and what is published**: everything seen but the log. -/
def Observation.dealings (seen : List Observation) : List Observation :=
  seen.filter fun o => !o.isLogged

variable {κ : Type}

namespace Service

open Operation

/-- **What is asked and published in a run**, in order. -/
def dealings (tr : List (Transition κ)) : List Observation :=
  Observation.dealings (tr.flatMap (·.seen))

/-- A service while one of its operations is in a stage; only the time and the nonce lock may have
changed besides. -/
def during (s : Service κ) (i : OperationId) (now : Nat) (st : Operation.Stage κ)
    (lock : FairLock OperationId) : Service κ :=
  { s with now := now, operations := put s.operations i st, nonceLock := lock }

/-- The stage in which an accepted submission leaves its operation. -/
def landed (origin : Origin κ) (d : DeliveryId) (signed : SignedTx) : Operation.Stage κ :=
  match origin with
  | .detached => .ended (.sent signed.hash)
  | .attached => .supervising d
  | .queue _ _ => .ended (.enqueued (some signed.hash))

variable [DecidableEq κ]

/-- What the queue does when a submission of its own is over: it counts the send, gives the key its
status back unless the submission was accepted, and leaves the status lock. -/
def settle (s : Service κ) (i : OperationId) (origin : Origin κ) (accepted : Bool) : Service κ :=
  match origin with
  | .detached | .attached => s
  | .queue key previous =>
    { s with
      statuses := if accepted then s.statuses else s.statuses.restore key previous
      statusLock := s.statusLock.leave (.operation i)
      metrics := s.metrics.increment (.queueSend (if accepted then .submitted else .rejected)) }

/-- **How a submission comes about**: in which step, for which operation, for whom and with what,
and the service without it. -/
inductive Opens (setup : Setup κ) (s : Service κ) : Action κ → OperationId → Service κ → Origin κ →
    Transaction → DeliveryOptions → Prop where
  /-- A caller begins a send past the queue. -/
  | send {r : Request κ} {tx : Transaction} {options : DeliveryOptions} {origin : Origin κ}
      (hr : r.broadcast? = some (tx, options, origin)) :
      Opens setup s (.begin r) s.operations.length
        { s with operations := s.operations ++ [⟨r, .entering⟩] } origin tx options
  /-- A send through the queue has the status lock and makes its key pending. -/
  | enqueue {i : OperationId} {tx : Transaction} {options : DeliveryOptions} {previous : TxStatus}
      (hst : s.stage? i = some .entering) (hr : s.request? i = some (.enqueue tx options))
      (hheld : s.statusLock.heldBy (.operation i) = true)
      (hget : s.statuses.get (setup.keyOf tx) = previous)
      (hprevious : previous = .notFound ∨ previous = .error) :
      Opens setup s (.resume i) i
        { s with statuses := s.statuses.set (setup.keyOf tx) .pending }
        (.queue (setup.keyOf tx) previous) tx options

/-- **A step of the submission alone**: it goes on with the nonce lock or with the reply to its
call, or time passes. -/
def Transition.Alone (setup : Setup κ) (w : Answers) (i : OperationId) (e : Transition κ) : Prop :=
  match e.action with
  | .resume j => j = i
  | .reply who reply =>
    who = .operation i ∧ (e.before.pending? setup who).bind w.reply? = some reply
  | .wait _ => True
  | _ => False

instance (setup : Setup κ) (w : Answers) (i : OperationId) (e : Transition κ) :
    Decidable (e.Alone setup w i) := by
  unfold Transition.Alone
  split <;> infer_instance

omit [DecidableEq κ] in
/-- The steps of the submission alone, one by one. -/
theorem Transition.Alone.cases {setup : Setup κ} {w : Answers} {i : OperationId} {e : Transition κ}
    (h : e.Alone setup w i) :
    e.action = .resume i ∨
      (∃ call reply, e.before.pending? setup (.operation i) = some call ∧
        w.reply? call = some reply ∧ e.action = .reply (.operation i) reply) ∨
      ∃ ms, e.action = .wait ms := by
  unfold Transition.Alone at h
  split at h
  case h_1 ha => exact .inl (h ▸ ha)
  case h_2 ha =>
    obtain ⟨rfl, h⟩ := h
    obtain ⟨call, hcall, hreply⟩ := Option.bind_eq_some_iff.mp h
    exact .inr (.inl ⟨call, _, hcall, hreply, ha⟩)
  case h_3 ha => exact .inr (.inr ⟨_, ha⟩)
  case h_4 => contradiction

/-- **What a submission comes to**, with the calls it has made. `s` is the service without it. -/
inductive Comes (setup : Setup κ) (w : Answers) (s : Service κ) (i : OperationId)
    (origin : Origin κ) (tx : Transaction) (options : DeliveryOptions) (calls : List Call)
    (t : Service κ) : Prop where
  /-- The price could not be read. -/
  | priceFailed {e : ChainError} {now : Nat} (hopen : tx.gasPrice = 0) (he : w.price = .error e)
      (hcalls : calls = [.gasPrice])
      (ht : t = (s.during i now (.ended (.failed (.gasPrice e))) s.nonceLock).settle i origin false)
  /-- The gas could not be estimated. -/
  | gasFailed {p : GasPrice} {e : ChainError} {now : Nat} (hp : w.Priced tx p)
      (hopen : tx.gasLimit = 0)
      (he : w.gas { tx with sender := setup.address, gasPrice := p } = .error e)
      (hcalls : calls = tx.priceCalls ++ tx.gasCalls setup.address p)
      (ht : t =
        (s.during i now (.ended (.failed (.estimateGas e))) s.nonceLock).settle i origin false)
  /-- The nonce could not be read. -/
  | nonceFailed {p : GasPrice} {g : UInt64} {e : ChainError} {now : Nat} (hp : w.Priced tx p)
      (hg : w.Fuelled setup.address tx p g) (hunknown : s.nonce = .unknown)
      (he : w.nonce setup.address = .error e)
      (hcalls : calls = tx.priceCalls ++ tx.gasCalls setup.address p ++ [.nonce setup.address])
      (ht : t = (s.during i now (.ended (.failed (.nonce e))) s.nonceLock).settle i origin false)
  /-- The signer failed. -/
  | signFailed {p : GasPrice} {g : UInt64} {n : Nonce} {e : ChainError} {now : Nat}
      (hp : w.Priced tx p) (hg : w.Fuelled setup.address tx p g)
      (hn : w.Numbered setup.address s.nonce n)
      (he : w.sign (tx.fill setup.address p g n) = .error e)
      (hcalls : calls = tx.priceCalls ++ tx.gasCalls setup.address p ++
        s.nonce.calls setup.address ++ [.sign (tx.fill setup.address p g n)])
      (ht : t = (s.during i now (.ended (.failed (.sign e))) s.nonceLock).settle i origin false)
  /-- The node refused the broadcast: the nonce stays handed out, unless it was too low. -/
  | refused {p : GasPrice} {g : UInt64} {n : Nonce} {signed : SignedTx} {e : ChainError} {now : Nat}
      (hp : w.Priced tx p) (hg : w.Fuelled setup.address tx p g)
      (hn : w.Numbered setup.address s.nonce n)
      (hsign : w.sign (tx.fill setup.address p g n) = .ok signed)
      (he : w.broadcast signed = .error e)
      (hcalls : calls = tx.priceCalls ++ tx.gasCalls setup.address p ++
        s.nonce.calls setup.address ++ [.sign (tx.fill setup.address p g n)] ++ [.broadcast signed])
      (ht : t = settle
        { s.during i now (.ended (.failed (.broadcast e))) s.nonceLock with
          nonce := if e.isNonceTooLow then .unknown else .known n
          metrics := if e.isNonceTooLow
            then (s.metrics.increment (.initialBroadcast false)).increment .nonceReset
            else s.metrics.increment (.initialBroadcast false) } i origin false)
  /-- The node accepted the broadcast, and the delivery starts. -/
  | accepted {p : GasPrice} {g : UInt64} {n : Nonce} {signed : SignedTx} {hash : Hash}
      {now started deadline : Nat} (hp : w.Priced tx p) (hg : w.Fuelled setup.address tx p g)
      (hn : w.Numbered setup.address s.nonce n)
      (hsign : w.sign (tx.fill setup.address p g n) = .ok signed)
      (hok : w.broadcast signed = .ok hash)
      (hcalls : calls = tx.priceCalls ++ tx.gasCalls setup.address p ++
        s.nonce.calls setup.address ++ [.sign (tx.fill setup.address p g n)] ++ [.broadcast signed])
      (ht : t = settle
        { s.during i now (landed origin s.deliveries.length signed) s.nonceLock with
          nonce := .known n
          deliveries := s.deliveries ++
            [.start setup.config started (if origin = .attached then some i else none) options
              deadline signed]
          metrics := s.metrics.increment (.initialBroadcast true) } i origin true)

/-! ### The stages on the way -/

/-- **How far a submission has come**, with the calls it has made and the steps that are still to
come at most. `s` is the service without it; the nonce lock is free but for the submission. -/
inductive Reaches (setup : Setup κ) (w : Answers) (s : Service κ) (i : OperationId)
    (origin : Origin κ) (tx : Transaction) (options : DeliveryOptions) :
    Nat → List Call → Service κ → Prop where
  /-- The market price is asked for. -/
  | pricing {now : Nat} (hopen : tx.gasPrice = 0) :
      Reaches setup w s i origin tx options 7 [.gasPrice]
        (s.during i now (.submitting
          ⟨origin, { tx with sender := setup.address }, options, .pricing⟩) s.nonceLock)
  /-- The gas is estimated. -/
  | estimating {p : GasPrice} {now : Nat} (hp : w.Priced tx p) (hopen : tx.gasLimit = 0) :
      Reaches setup w s i origin tx options 6 (tx.priceCalls ++ tx.gasCalls setup.address p)
        (s.during i now (.submitting
          ⟨origin, { tx with sender := setup.address, gasPrice := p }, options, .estimating⟩)
          s.nonceLock)
  /-- The submission has the nonce lock, since nobody else wants it. -/
  | queued {p : GasPrice} {g : UInt64} {now : Nat} (hp : w.Priced tx p)
      (hg : w.Fuelled setup.address tx p g) :
      Reaches setup w s i origin tx options 5 (tx.priceCalls ++ tx.gasCalls setup.address p)
        (s.during i now (.submitting
          ⟨origin, { tx with sender := setup.address, gasPrice := p, gasLimit := g }, options,
            .queued⟩) ⟨[(i, .exclusive)]⟩)
  /-- The nonce is asked for. -/
  | fetching {p : GasPrice} {g : UInt64} {now : Nat} (hp : w.Priced tx p)
      (hg : w.Fuelled setup.address tx p g) (hunknown : s.nonce = .unknown) :
      Reaches setup w s i origin tx options 4
        (tx.priceCalls ++ tx.gasCalls setup.address p ++ [.nonce setup.address])
        (s.during i now (.submitting
          ⟨origin, { tx with sender := setup.address, gasPrice := p, gasLimit := g }, options,
            .fetching⟩) ⟨[(i, .exclusive)]⟩)
  /-- The transaction is signed with its nonce. -/
  | signing {p : GasPrice} {g : UInt64} {n : Nonce} {now : Nat} (hp : w.Priced tx p)
      (hg : w.Fuelled setup.address tx p g) (hn : w.Numbered setup.address s.nonce n) :
      Reaches setup w s i origin tx options 3
        (tx.priceCalls ++ tx.gasCalls setup.address p ++ s.nonce.calls setup.address ++
          [.sign (tx.fill setup.address p g n)])
        (s.during i now (.submitting
          ⟨origin, { tx with sender := setup.address, gasPrice := p, gasLimit := g }, options,
            .signing n⟩) ⟨[(i, .exclusive)]⟩)
  /-- The transaction is broadcast; its nonce counts as handed out. -/
  | broadcasting {p : GasPrice} {g : UInt64} {n : Nonce} {signed : SignedTx} {now deadline : Nat}
      (hp : w.Priced tx p) (hg : w.Fuelled setup.address tx p g)
      (hn : w.Numbered setup.address s.nonce n)
      (hsign : w.sign (tx.fill setup.address p g n) = .ok signed) :
      Reaches setup w s i origin tx options 2
        (tx.priceCalls ++ tx.gasCalls setup.address p ++ s.nonce.calls setup.address ++
          [.sign (tx.fill setup.address p g n)] ++ [.broadcast signed])
        { s.during i now (.submitting
            ⟨origin, { tx with sender := setup.address, gasPrice := p, gasLimit := g }, options,
              .broadcasting signed deadline⟩) s.nonceLock with nonce := .known n }
  /-- The nonce proved too low and is about to be forgotten. -/
  | resetting {p : GasPrice} {g : UInt64} {n : Nonce} {signed : SignedTx} {e : ChainError}
      {now : Nat} (hp : w.Priced tx p) (hg : w.Fuelled setup.address tx p g)
      (hn : w.Numbered setup.address s.nonce n)
      (hsign : w.sign (tx.fill setup.address p g n) = .ok signed)
      (he : w.broadcast signed = .error e) (hlow : e.isNonceTooLow = true) :
      Reaches setup w s i origin tx options 1
        (tx.priceCalls ++ tx.gasCalls setup.address p ++ s.nonce.calls setup.address ++
          [.sign (tx.fill setup.address p g n)] ++ [.broadcast signed])
        { s.during i now (.submitting
            ⟨origin, { tx with sender := setup.address, gasPrice := p, gasLimit := g }, options,
              .resetting e⟩) ⟨[(i, .exclusive)]⟩ with
          nonce := .known n
          metrics := s.metrics.increment (.initialBroadcast false) }
  /-- It is over. -/
  | ended {calls : List Call} {t : Service κ} (h : Comes setup w s i origin tx options calls t) :
      Reaches setup w s i origin tx options 0 calls t

variable {setup : Setup κ} {w : Answers} {s s₀ t u : Service κ} {i : OperationId}
  {origin : Origin κ} {tx : Transaction} {options : DeliveryOptions} {calls : List Call} {k : Nat}
  {a : Action κ} {seen : List Observation} {st st' : Operation.Stage κ} {sub : Submission κ}

/-! ### What the steps of a submission come to -/

omit [DecidableEq κ] in
/-- Putting one operation into a stage, and then into another. -/
theorem setOperation_of_put {ops : List (Operation κ)} (ht : t.operations = put ops i st)
    (st' : Operation.Stage κ) :
    t.setOperation i st' = { t with operations := put ops i st' } := by
  have hput : t.operations.modify i (fun o => { o with stage := st' }) = put ops i st' := by
    rw [ht, put, put, List.modify_modify_eq]
    rfl
  rw [setOperation, hput]

/-- A refusal, with what the queue does kept apart. -/
theorem refuse_of_put {ops : List (Operation κ)} (ht : t.operations = put ops i st)
    {e : DeliveryError} :
    t.refuse i sub e =
      (settle { t with operations := put ops i (.ended (.failed e)) } i sub.origin false, []) := by
  rw [← setOperation_of_put ht (.ended (.failed e))]
  unfold refuse settle
  cases sub.origin <;> rfl

/-- An accepted broadcast, with what the queue does kept apart. -/
theorem launch_of_put {ops : List (Operation κ)} (ht : t.operations = put ops i st)
    {signed : SignedTx} {deadline : Nat} :
    t.launch setup i sub signed deadline =
      (settle { t with
          operations := put ops i (landed sub.origin t.deliveries.length signed)
          deliveries := t.deliveries ++
            [.start setup.config t.now (if sub.origin = .attached then some i else none)
              sub.options deadline signed]
          metrics := t.metrics.increment (.initialBroadcast true) } i sub.origin true,
        [.logged .broadcast]) := by
  have hput := setOperation_of_put (t := { t with
      deliveries := t.deliveries ++
        [.start setup.config t.now (if sub.origin = .attached then some i else none)
          sub.options deadline signed]
      metrics := t.metrics.increment (.initialBroadcast true) }) ht
    (landed sub.origin t.deliveries.length signed)
  refine Eq.trans ?_ (congrArg (fun v =>
    (settle v i sub.origin true, [Observation.logged .broadcast])) hput)
  unfold launch settle landed
  cases sub.origin <;> rfl

/-- What the queue does takes no notice of the time. -/
theorem settle_now {accepted : Bool} {now : Nat} :
    { t.settle i origin accepted with now := now } =
      { t with now := now }.settle i origin accepted := by
  cases origin <;> rfl

/-- **Time changes nothing.** -/
theorem Reaches.wait (h : Reaches setup w s i origin tx options k calls t) (now : Nat) :
    Reaches setup w s i origin tx options k calls { t with now := now } := by
  cases h with
  | pricing hopen => exact .pricing hopen
  | estimating hp hopen => exact .estimating hp hopen
  | queued hp hg => exact .queued hp hg
  | fetching hp hg hunknown => exact .fetching hp hg hunknown
  | signing hp hg hn => exact .signing hp hg hn
  | broadcasting hp hg hn hsign => exact .broadcasting hp hg hn hsign
  | resetting hp hg hn hsign he hlow => exact .resetting hp hg hn hsign he hlow
  | ended h =>
    refine .ended ?_
    cases h with
    | priceFailed hopen he hcalls ht =>
      exact .priceFailed hopen he hcalls (by rw [ht, settle_now]; rfl)
    | gasFailed hp hopen he hcalls ht =>
      exact .gasFailed hp hopen he hcalls (by rw [ht, settle_now]; rfl)
    | nonceFailed hp hg hunknown he hcalls ht =>
      exact .nonceFailed hp hg hunknown he hcalls (by rw [ht, settle_now]; rfl)
    | signFailed hp hg hn he hcalls ht =>
      exact .signFailed hp hg hn he hcalls (by rw [ht, settle_now]; rfl)
    | refused hp hg hn hsign he hcalls ht =>
      exact .refused hp hg hn hsign he hcalls (by rw [ht, settle_now]; rfl)
    | accepted hp hg hn hsign hok hcalls ht =>
      exact .accepted hp hg hn hsign hok hcalls (by rw [ht, settle_now]; rfl)

/-! ### The only way to go on -/

omit [DecidableEq κ] in
/-- What a submission is asking. -/
theorem pending?_of_submitting (hst : t.stage? i = some (.submitting sub)) :
    t.pending? setup (.operation i) =
      match sub.stage with
      | .pricing => some .gasPrice
      | .estimating => some (.estimateGas sub.tx)
      | .fetching => some (.nonce setup.address)
      | .signing n => some (.sign { sub.tx with nonce := n })
      | .broadcasting signed _ => some (.broadcast signed)
      | .queued | .resetting _ => none := by
  obtain ⟨o, ho, hos⟩ := Option.map_eq_some_iff.mp hst
  cases hs : sub.stage <;> simp [pending?, ho, hos, hs]

theorem resume?_of_submitting (hst : t.stage? i = some (.submitting sub)) :
    t.resume? setup i =
      if t.nonceLock.heldBy i then t.resumeSubmission setup i sub else none := by
  obtain ⟨o, ho, hos⟩ := Option.map_eq_some_iff.mp hst
  simp [resume?, ho, hos]

theorem replyOperation?_of_submitting (hst : t.stage? i = some (.submitting sub)) (reply : Reply) :
    t.replyOperation? setup i reply = t.replySubmission setup i sub reply := by
  obtain ⟨o, ho, hos⟩ := Option.map_eq_some_iff.mp hst
  simp [replyOperation?, ho, hos]

/-- **A submission goes on alone in one way**: the step, and where it leads. -/
inductive Advances (setup : Setup κ) (w : Answers) (s : Service κ) (i : OperationId)
    (origin : Origin κ) (tx : Transaction) (options : DeliveryOptions) (k : Nat)
    (calls : List Call) (t : Service κ) : Prop where
  /-- The step `a` is possible and brings the end nearer, and only time can pass besides. -/
  | intro {a : Action κ} {u : Service κ} {seen : List Observation} {k' : Nat} {more : List Call}
      (hstep : t.step? setup a = some (u, seen))
      (halone : Transition.Alone setup w i ⟨t, a, seen, u⟩)
      (honly : ∀ e : Transition κ, e.before = t → e.Alone setup w i →
        e.before.step? setup e.action = some (e.after, e.seen) →
        e.action = a ∨ ∃ ms, e.action = .wait ms)
      (hlt : k' < k)
      (hseen : Observation.dealings seen = more.map (.called (.operation i)))
      (hu : Reaches setup w s i origin tx options k' (calls ++ more) u)

/-- A submission that waits for a reply gets it. -/
theorem advances_of_reply {call : Call} {reply : Reply} {k' : Nat} (seen : List Observation)
    (more : List Call)
    (hst : t.stage? i = some (.submitting sub))
    (hcall : t.pending? setup (.operation i) = some call) (hreply : w.reply? call = some reply)
    (hstep : t.replySubmission setup i sub reply = some (u, seen)) (hlt : k' < k)
    (hseen : Observation.dealings seen = more.map (.called (.operation i)))
    (hu : Reaches setup w s i origin tx options k' (calls ++ more) u) :
    Advances setup w s i origin tx options k calls t := by
  have hact : t.step? setup (.reply (.operation i) reply) = some (u, seen) :=
    (replyOperation?_of_submitting hst reply).trans hstep
  have halone : Transition.Alone setup w i ⟨t, .reply (.operation i) reply, seen, u⟩ :=
    ⟨rfl, Option.bind_eq_some_iff.mpr ⟨call, hcall, hreply⟩⟩
  refine .intro hact halone ?_ hlt hseen hu
  rintro e rfl halone hpossible
  rcases halone.cases with ha | ⟨call', reply', hcall', hreply', ha⟩ | hwait
  · -- who waits for a reply does not wait for the lock
    have hnone : e.before.resume? setup i = none := by
      rw [resume?_of_submitting hst]
      rw [pending?_of_submitting hst] at hcall
      cases hs : sub.stage <;> simp_all [resumeSubmission]
    rw [ha] at hpossible
    exact absurd (hpossible.symm.trans hnone) (by simp)
  · obtain rfl := Option.some.inj (hcall.symm.trans hcall')
    obtain rfl := Option.some.inj (hreply.symm.trans hreply')
    exact .inl ha
  · exact .inr hwait

/-- A submission that waits for the nonce lock gets it. -/
theorem advances_of_resume {k' : Nat} (seen : List Observation) (more : List Call)
    (hst : t.stage? i = some (.submitting sub))
    (hlock : t.nonceLock = ⟨[(i, .exclusive)]⟩)
    (hcall : t.pending? setup (.operation i) = none)
    (hstep : t.resumeSubmission setup i sub = some (u, seen)) (hlt : k' < k)
    (hseen : Observation.dealings seen = more.map (.called (.operation i)))
    (hu : Reaches setup w s i origin tx options k' (calls ++ more) u) :
    Advances setup w s i origin tx options k calls t := by
  have hheld : t.nonceLock.heldBy i = true := by
    rw [hlock]
    simp [FairLock.heldBy, FairLock.holders]
  have hact : t.step? setup (.resume i) = some (u, seen) := by
    refine (resume?_of_submitting hst).trans ?_
    rw [if_pos hheld, hstep]
  have halone : Transition.Alone setup w i ⟨t, .resume i, seen, u⟩ := rfl
  refine .intro hact halone ?_ hlt hseen hu
  rintro e rfl halone -
  rcases halone.cases with ha | ⟨call, reply, hcall', -, -⟩ | hwait
  · exact .inl ha
  · exact absurd (hcall.symm.trans hcall') (by simp)
  · exact .inr hwait

/-! ### From one stage to the next -/

omit [DecidableEq κ] in
/-- The stage an operation is put into. -/
theorem stage?_of_lt (hi : i < s.operations.length) (ht : t.operations = put s.operations i st) :
    t.stage? i = some st :=
  have hstage : s.stage? i = some s.operations[i].stage := by simp [stage?, hi]
  stage?_put_self ht hstage

omit [DecidableEq κ] in
theorem stage?_during (hi : i < s.operations.length) (now : Nat) (st : Operation.Stage κ)
    (lock : FairLock OperationId) :
    (s.during i now st lock).stage? i = some st :=
  stage?_of_lt hi rfl

/-- A lock nobody wants is taken, -/
theorem enter_free {lock : FairLock OperationId} (hfree : lock = .free) (i : OperationId) :
    lock.enter i .exclusive = ⟨[(i, .exclusive)]⟩ := by
  rw [hfree]
  rfl

/-- and given back. -/
theorem leave_alone {lock : FairLock OperationId} (hfree : lock = .free) (i : OperationId) :
    (⟨[(i, .exclusive)]⟩ : FairLock OperationId).leave i = lock := by
  rw [hfree]
  simp [FairLock.leave, FairLock.free]

omit [DecidableEq κ] in
/-- Where the gas is settled from does not matter. -/
theorem settleGas_during {now : Nat} {lock : FairLock OperationId} :
    (s.during i now st lock).settleGas i sub =
      settleGas { s with now := now, nonceLock := lock } i sub := by
  simp only [settleGas, awaitNonce, setSubmission]
  rw [setOperation_of_put (t := s.during i now st lock) rfl,
    setOperation_of_put (t := { s.during i now st lock with nonceLock := _ }) rfl]
  rfl

/-- **With its price settled** a submission comes to an estimate or to the nonce lock. -/
theorem settleGas_reaches (setup : Setup κ) (i : OperationId) (origin : Origin κ)
    (options : DeliveryOptions) (hfree : s.nonceLock = .free) {p : GasPrice} (hp : w.Priced tx p)
    (now : Nat) (st : Submission.Stage) :
    ∃ k < 7, ∃ more u seen,
      settleGas { s with now := now } i
        ⟨origin, { tx with sender := setup.address, gasPrice := p }, options, st⟩ = (u, seen) ∧
      Observation.dealings seen = more.map (.called (.operation i)) ∧
      Reaches setup w s i origin tx options k (tx.priceCalls ++ more) u := by
  by_cases hg : tx.gasLimit = 0
  · have heq : settleGas { s with now := now } i
          ⟨origin, { tx with sender := setup.address, gasPrice := p }, options, st⟩ =
        (s.during i now (.submitting ⟨origin,
            { tx with sender := setup.address, gasPrice := p }, options, .estimating⟩) s.nonceLock,
          [.called (.operation i)
            (.estimateGas { tx with sender := setup.address, gasPrice := p })]) := if_pos hg
    refine ⟨6, by decide, tx.gasCalls setup.address p, _, _, heq, ?_, .estimating hp hg⟩
    rw [Transaction.gasCalls, if_pos hg]
    rfl
  · have hfuel : w.Fuelled setup.address tx p tx.gasLimit := by
      rw [Answers.Fuelled, if_neg hg]
    have heq : settleGas { s with now := now } i
          ⟨origin, { tx with sender := setup.address, gasPrice := p }, options, st⟩ =
        (s.during i now (.submitting ⟨origin,
            { tx with sender := setup.address, gasPrice := p }, options, .queued⟩)
          (s.nonceLock.enter i .exclusive), []) := if_neg hg
    have hu : Reaches setup w s i origin tx options 5 _ (s.during i now _ _) := .queued hp hfuel
    rw [Transaction.gasCalls, if_neg hg] at hu
    rw [enter_free hfree] at heq
    exact ⟨5, by decide, [], _, _, heq, rfl, hu⟩

/-- The price is read, or the submission ends. -/
theorem advances_pricing (hfree : s.nonceLock = .free) (hi : i < s.operations.length) {now : Nat}
    (hopen : tx.gasPrice = 0) :
    Advances setup w s i origin tx options 7 [.gasPrice]
      (s.during i now (.submitting
        ⟨origin, { tx with sender := setup.address }, options, .pricing⟩) s.nonceLock) := by
  have hst := stage?_during hi now (.submitting
    ⟨origin, { tx with sender := setup.address }, options, .pricing⟩) s.nonceLock
  cases hw : w.price with
  | error e =>
    exact advances_of_reply _ [] hst (pending?_of_submitting hst)
      (congrArg (some ∘ Reply.ofExcept Reply.price) hw) (congrArg some (refuse_of_put rfl))
      (by decide) rfl (.ended (.priceFailed hopen hw rfl rfl))
  | ok p =>
    have hp : w.Priced tx p := by rwa [Answers.Priced, if_pos hopen]
    obtain ⟨k', hlt, more, u, seen, heq, hseen, hu⟩ := settleGas_reaches setup i
      origin options hfree hp now .pricing
    rw [Transaction.priceCalls, if_pos hopen] at hu
    exact advances_of_reply _ _ hst (pending?_of_submitting hst)
      (congrArg (some ∘ Reply.ofExcept Reply.price) hw)
      (congrArg some (settleGas_during.trans heq)) hlt hseen hu

/-- The gas is estimated, or the submission ends. -/
theorem advances_estimating (hfree : s.nonceLock = .free) (hi : i < s.operations.length)
    {p : GasPrice} {now : Nat} (hp : w.Priced tx p) (hopen : tx.gasLimit = 0) :
    Advances setup w s i origin tx options 6 (tx.priceCalls ++ tx.gasCalls setup.address p)
      (s.during i now (.submitting
        ⟨origin, { tx with sender := setup.address, gasPrice := p }, options, .estimating⟩)
        s.nonceLock) := by
  have hst := stage?_during hi now (.submitting
    ⟨origin, { tx with sender := setup.address, gasPrice := p }, options, .estimating⟩) s.nonceLock
  cases hw : w.gas { tx with sender := setup.address, gasPrice := p } with
  | error e =>
    exact advances_of_reply _ [] hst (pending?_of_submitting hst)
      (congrArg (some ∘ Reply.ofExcept Reply.gas) hw) (congrArg some (refuse_of_put rfl))
      (by decide) rfl (.ended (.gasFailed hp hopen hw (List.append_nil _) rfl))
  | ok g =>
    have hg : w.Fuelled setup.address tx p g := by rwa [Answers.Fuelled, if_pos hopen]
    have hu : Reaches setup w s i origin tx options 5 _ (s.during i now _ _) := .queued hp hg
    rw [← enter_free hfree i, ← List.append_nil (tx.priceCalls ++ _)] at hu
    refine advances_of_reply [] [] hst (pending?_of_submitting hst)
      (congrArg (some ∘ Reply.ofExcept Reply.gas) hw) (congrArg some ?_) (by decide) rfl hu
    rw [awaitNonce, setSubmission, setOperation_of_put rfl]
    rfl

/-- The nonce lock is there. -/
theorem advances_queued (hi : i < s.operations.length) {p : GasPrice} {g : UInt64} {now : Nat}
    (hp : w.Priced tx p) (hg : w.Fuelled setup.address tx p g) :
    Advances setup w s i origin tx options 5 (tx.priceCalls ++ tx.gasCalls setup.address p)
      (s.during i now (.submitting
        ⟨origin, { tx with sender := setup.address, gasPrice := p, gasLimit := g }, options,
          .queued⟩) ⟨[(i, .exclusive)]⟩) := by
  have hst := stage?_during hi now (.submitting
    ⟨origin, { tx with sender := setup.address, gasPrice := p, gasLimit := g }, options, .queued⟩)
    ⟨[(i, .exclusive)]⟩
  cases hnonce : s.nonce with
  | unknown =>
    have hu : Reaches setup w s i origin tx options 4 _ (s.during i now _ _) :=
      .fetching hp hg hnonce
    refine advances_of_resume [.called (.operation i) (.nonce setup.address)] _ hst rfl
      (pending?_of_submitting hst) ?_ (by decide) rfl hu
    simp only [resumeSubmission, during, hnonce, NonceState.candidate?, setSubmission]
    rw [setOperation_of_put rfl]
  | known last =>
    have hn : w.Numbered setup.address s.nonce (last + 1) := by rw [hnonce]; rfl
    have hcalls : s.nonce.calls setup.address = [] := by rw [hnonce]; rfl
    have hu : Reaches setup w s i origin tx options 3 _ (s.during i now _ _) :=
      .signing hp hg hn
    rw [hcalls, List.append_nil] at hu
    refine advances_of_resume
      [.called (.operation i) (.sign (tx.fill setup.address p g (last + 1)))] _ hst rfl
      (pending?_of_submitting hst) ?_ (by decide) rfl hu
    simp only [resumeSubmission, during, hnonce, NonceState.candidate?, signWith, setSubmission]
    rw [setOperation_of_put rfl]
    rfl

/-- The nonce is read, or the submission ends. -/
theorem advances_fetching (hfree : s.nonceLock = .free) (hi : i < s.operations.length)
    {p : GasPrice} {g : UInt64} {now : Nat} (hp : w.Priced tx p)
    (hg : w.Fuelled setup.address tx p g) (hunknown : s.nonce = .unknown) :
    Advances setup w s i origin tx options 4
      (tx.priceCalls ++ tx.gasCalls setup.address p ++ [.nonce setup.address])
      (s.during i now (.submitting
        ⟨origin, { tx with sender := setup.address, gasPrice := p, gasLimit := g }, options,
          .fetching⟩) ⟨[(i, .exclusive)]⟩) := by
  have hst := stage?_during hi now (.submitting
    ⟨origin, { tx with sender := setup.address, gasPrice := p, gasLimit := g }, options, .fetching⟩)
    ⟨[(i, .exclusive)]⟩
  cases hw : w.nonce setup.address with
  | error e =>
    have hover : Comes setup w s i origin tx options _
        (settle (s.during i now _ s.nonceLock) i origin false) :=
      .nonceFailed hp hg hunknown hw (List.append_nil _) rfl
    refine advances_of_reply [] [] hst (pending?_of_submitting hst)
      (congrArg (some ∘ Reply.ofExcept Reply.nonce) hw) (congrArg some ?_) (by decide) rfl
      (.ended hover)
    rw [refuse_of_put rfl, leaveNonce, during, leave_alone hfree]
    rfl
  | ok n =>
    have hn : w.Numbered setup.address s.nonce n := by rw [hunknown]; exact hw
    have hcalls : s.nonce.calls setup.address = [.nonce setup.address] := by rw [hunknown]; rfl
    have hu : Reaches setup w s i origin tx options 3 _ (s.during i now _ _) :=
      .signing hp hg hn
    rw [hcalls] at hu
    refine advances_of_reply
      [.called (.operation i) (.sign (tx.fill setup.address p g n))] _ hst
      (pending?_of_submitting hst) (congrArg (some ∘ Reply.ofExcept Reply.nonce) hw)
      (congrArg some ?_) (by decide) rfl hu
    rw [signWith, setSubmission, setOperation_of_put rfl]
    rfl

/-- The signature is there and the nonce handed out, or the submission ends. -/
theorem advances_signing (hfree : s.nonceLock = .free) (hi : i < s.operations.length)
    {p : GasPrice} {g : UInt64} {n : Nonce} {now : Nat} (hp : w.Priced tx p)
    (hg : w.Fuelled setup.address tx p g) (hn : w.Numbered setup.address s.nonce n) :
    Advances setup w s i origin tx options 3
      (tx.priceCalls ++ tx.gasCalls setup.address p ++ s.nonce.calls setup.address ++
        [.sign (tx.fill setup.address p g n)])
      (s.during i now (.submitting
        ⟨origin, { tx with sender := setup.address, gasPrice := p, gasLimit := g }, options,
          .signing n⟩) ⟨[(i, .exclusive)]⟩) := by
  have hst := stage?_during hi now (.submitting
    ⟨origin, { tx with sender := setup.address, gasPrice := p, gasLimit := g }, options,
      .signing n⟩) ⟨[(i, .exclusive)]⟩
  cases hw : w.sign (tx.fill setup.address p g n) with
  | error e =>
    have hover : Comes setup w s i origin tx options _
        (settle (s.during i now _ s.nonceLock) i origin false) :=
      .signFailed hp hg hn hw (List.append_nil _) rfl
    refine advances_of_reply [] [] hst (pending?_of_submitting hst)
      (congrArg (some ∘ Reply.ofExcept Reply.signed) hw) (congrArg some ?_) (by decide) rfl
      (.ended hover)
    rw [refuse_of_put rfl, leaveNonce, during, leave_alone hfree]
    rfl
  | ok signed =>
    have hu : Reaches setup w s i origin tx options 2 _
        { s.during i now (.submitting ⟨_, _, _, .broadcasting _ (now + setup.config.periodMs)⟩) _
          with nonce := .known n } := .broadcasting hp hg hn hw
    refine advances_of_reply [.called (.operation i) (.broadcast signed)] _ hst
      (pending?_of_submitting hst) (congrArg (some ∘ Reply.ofExcept Reply.signed) hw)
      (congrArg some ?_) (by decide) rfl hu
    rw [broadcastFirst, setSubmission, leaveNonce, during, leave_alone hfree,
      setOperation_of_put rfl]
    rfl

/-- The broadcast is answered. -/
theorem advances_broadcasting (hfree : s.nonceLock = .free) (hi : i < s.operations.length)
    {p : GasPrice} {g : UInt64} {n : Nonce} {signed : SignedTx} {now deadline : Nat}
    (hp : w.Priced tx p) (hg : w.Fuelled setup.address tx p g)
    (hn : w.Numbered setup.address s.nonce n)
    (hsign : w.sign (tx.fill setup.address p g n) = .ok signed) :
    Advances setup w s i origin tx options 2
      (tx.priceCalls ++ tx.gasCalls setup.address p ++ s.nonce.calls setup.address ++
        [.sign (tx.fill setup.address p g n)] ++ [.broadcast signed])
      { s.during i now (.submitting
          ⟨origin, { tx with sender := setup.address, gasPrice := p, gasLimit := g }, options,
            .broadcasting signed deadline⟩) s.nonceLock with nonce := .known n } := by
  have hst := stage?_during (s := { s with nonce := .known n }) (i := i) hi now (.submitting
    ⟨origin, { tx with sender := setup.address, gasPrice := p, gasLimit := g }, options,
      .broadcasting signed deadline⟩) s.nonceLock
  cases hw : w.broadcast signed with
  | ok hash =>
    exact advances_of_reply _ [] hst (pending?_of_submitting hst)
      (congrArg (some ∘ Reply.ofExcept Reply.accepted) hw) (congrArg some (launch_of_put rfl))
      (by decide) rfl
      (.ended (.accepted hp hg hn hsign hw (List.append_nil _) rfl))
  | error e =>
    have hreply := congrArg (some ∘ Reply.ofExcept Reply.accepted) hw
    by_cases hlow : e.isNonceTooLow
    · have hu : Reaches setup w s i origin tx options 1 _ { s.during i now _ _ with
          nonce := .known n
          metrics := s.metrics.increment (.initialBroadcast false) } :=
        .resetting hp hg hn hsign hw hlow
      rw [← enter_free hfree i, ← List.append_nil (_ ++ [Call.broadcast signed])] at hu
      refine advances_of_reply [.logged .broadcastRejected] [] hst
        (pending?_of_submitting hst) hreply (congrArg some ?_) (by decide) rfl hu
      simp only [refuseBroadcast, if_pos hlow, awaitNonce, setSubmission]
      rw [setOperation_of_put rfl]
      rfl
    · have hover : Comes setup w s i origin tx options _
          (settle { s.during i now _ _ with nonce := _, metrics := _ } i origin false) :=
        .refused hp hg hn hsign hw (List.append_nil _) rfl
      rw [if_neg hlow, if_neg hlow] at hover
      refine advances_of_reply [.logged .broadcastRejected] [] hst
        (pending?_of_submitting hst) hreply (congrArg some ?_) (by decide) rfl (.ended hover)
      simp only [refuseBroadcast, if_neg hlow]
      rw [refuse_of_put rfl]
      rfl

/-- The nonce is forgotten. -/
theorem advances_resetting (hfree : s.nonceLock = .free) (hi : i < s.operations.length)
    {p : GasPrice} {g : UInt64} {n : Nonce} {signed : SignedTx} {e : ChainError} {now : Nat}
    (hp : w.Priced tx p) (hg : w.Fuelled setup.address tx p g)
    (hn : w.Numbered setup.address s.nonce n)
    (hsign : w.sign (tx.fill setup.address p g n) = .ok signed)
    (he : w.broadcast signed = .error e) (hlow : e.isNonceTooLow = true) :
    Advances setup w s i origin tx options 1
      (tx.priceCalls ++ tx.gasCalls setup.address p ++ s.nonce.calls setup.address ++
        [.sign (tx.fill setup.address p g n)] ++ [.broadcast signed])
      { s.during i now (.submitting
          ⟨origin, { tx with sender := setup.address, gasPrice := p, gasLimit := g }, options,
            .resetting e⟩) ⟨[(i, .exclusive)]⟩ with
        nonce := .known n
        metrics := s.metrics.increment (.initialBroadcast false) } := by
  have hst := stage?_during (i := i) (s := { s with
      nonce := .known n
      metrics := s.metrics.increment (.initialBroadcast false) }) hi now (.submitting
    ⟨origin, { tx with sender := setup.address, gasPrice := p, gasLimit := g }, options,
      .resetting e⟩) ⟨[(i, .exclusive)]⟩
  have hover : Comes setup w s i origin tx options _
      (settle { s.during i now _ _ with nonce := _, metrics := _ } i origin false) :=
    .refused hp hg hn hsign he (List.append_nil _) rfl
  rw [if_pos hlow, if_pos hlow] at hover
  refine advances_of_resume [] [] hst rfl (pending?_of_submitting hst) ?_
    (by decide) rfl (.ended hover)
  simp only [resumeSubmission, forgetNonce, leaveNonce, during, leave_alone hfree]
  rw [refuse_of_put rfl]
  rfl

/-- **From every stage the answers leave one way to go on.** -/
theorem Reaches.advances (hfree : s.nonceLock = .free) (hi : i < s.operations.length)
    (h : Reaches setup w s i origin tx options (k + 1) calls t) :
    Advances setup w s i origin tx options (k + 1) calls t := by
  generalize hk : k + 1 = steps at h ⊢
  cases h with
  | pricing hopen => exact advances_pricing hfree hi hopen
  | estimating hp hopen => exact advances_estimating hfree hi hp hopen
  | queued hp hg => exact advances_queued hi hp hg
  | fetching hp hg hunknown => exact advances_fetching hfree hi hp hg hunknown
  | signing hp hg hn => exact advances_signing hfree hi hp hg hn
  | broadcasting hp hg hn hsign => exact advances_broadcasting hfree hi hp hg hn hsign
  | resetting hp hg hn hsign he hlow => exact advances_resetting hfree hi hp hg hn hsign he hlow
  | ended => contradiction

end Service

end TxDelivery
