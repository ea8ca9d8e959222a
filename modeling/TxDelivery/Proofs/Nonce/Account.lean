import TxDelivery.Proofs.Delivery.Variants
import TxDelivery.Proofs.Nonce.Sequence

/-!
# A service and its account

The nonces of a service are those of an account, and the account is on a chain that has a life of
its own: it counts the transactions mined, takes its time to answer, and others may use the account
as well. A run of a service together with its account is a `TxDelivery.Service.AccountHistory`: the
steps of the service, and between them what happens to the account
(`TxDelivery.Service.AccountEvent`), all in one order.

The chain is one that **answers with the number of transactions mined and finds a nonce too low
exactly if it is below that number** (`TxDelivery.Service.AccountEvent.May`). It rules once on each
first broadcast it was sent, mines what it accepted in the order of the nonces, and does all of this
when it likes. What it did reaches the service later, or never (`TxDelivery.Service.reported?`), and
the service is told nothing of the kind that did not happen. Without the delay between the two the
service would never be mistaken about its account; every difficulty with nonces comes from it.

## Broadcasts and commitments

What a chain sees of the nonces are the transactions broadcast. Each first broadcast comes with a
nonce committed in the same step, and if the signer signs what it is given, **the first broadcasts
of a run carry the nonces committed in it**, in the same order
(`TxDelivery.Service.History.map_firstBroadcasts`). From there on, statements about accepted
transactions are statements about commitments.

## Runs

An account history is a relation, since the chain is free in what it does next. For concrete runs
there is a function that takes a script of steps and events and refuses what is not possible
(`TxDelivery.Service.accountRun?`); what it computes is an account history
(`TxDelivery.Service.accountHistory_of_run?`), so that an example is evaluated and not argued.
-/

namespace TxDelivery

variable {κ : Type}

namespace Service

/-! ### First broadcasts -/

/-- The first broadcast an operation asks for. -/
def firstBroadcast? : Observation → Option (OperationId × SignedTx)
  | .called (.operation i) (.broadcast tx) => some (i, tx)
  | _ => none

/-- The first broadcasts of a step. -/
def Transition.firstBroadcasts (e : Transition κ) : List (OperationId × SignedTx) :=
  e.seen.filterMap firstBroadcast?

/-- **The first broadcasts of a run**, in order. -/
def firstBroadcasts (tr : List (Transition κ)) : List (OperationId × SignedTx) :=
  tr.flatMap Transition.firstBroadcasts

theorem firstBroadcasts_append {tr tr' : List (Transition κ)} :
    firstBroadcasts (tr ++ tr') = firstBroadcasts tr ++ firstBroadcasts tr' :=
  List.flatMap_append

theorem firstBroadcasts_concat {tr : List (Transition κ)} {e : Transition κ} :
    firstBroadcasts (tr ++ [e]) = firstBroadcasts tr ++ e.firstBroadcasts := by
  rw [firstBroadcasts_append]
  exact congrArg _ (List.flatMap_singleton _ _)

section Step

variable [DecidableEq κ] {setup : Setup κ} {s t : Service κ} {a : Action κ}
  {seen : List Observation} {tr : List (Transition κ)} {i : OperationId}

omit [DecidableEq κ] in
/-- Deliveries make no first broadcasts. -/
theorem not_firstBroadcast_of_proceeds {now : Nat} {d : DeliveryId} {x x' : Delivery}
    {m m' : Metrics} (h : x.Proceeds setup now d m a x' m' seen) (tx : SignedTx) :
    .called (.operation i) (.broadcast tx) ∉ seen := by
  have hlistener {l : Listener} : Observation.called (.operation i) (.broadcast tx) ∉
      l.call?.toList.map (Observation.called (.listener d)) := by simp
  cases h with
  | receive | poll => exact hlistener
  | lapse => exact List.not_mem_cons_of_ne_of_not_mem (by simp) hlistener
  | answer => simp
  | _ => simp

/-- **A first broadcast comes with a nonce committed.** -/
theorem commits_of_firstBroadcast {tx : SignedTx} (h : s.step? setup a = some (t, seen))
    (hmem : .called (.operation i) (.broadcast tx) ∈ seen) : ∃ n, s.Commits a i n := by
  have hopening {lock lock' : FairLock OperationId} {j : OperationId} {sub : Submission κ}
      {seen : List Observation} (hopen : Submission.Opening lock j sub lock' seen) :
      .called (.operation i) (.broadcast tx) ∉ seen := by
    cases hopen <;> simp
  cases step_of_step? h with
  | operation h =>
    cases h with
    | submit _ _ hopen | price _ _ _ _ hopen => exact absurd hmem (hopening hopen)
    | enqueue _ _ _ _ _ _ hopen =>
      rcases List.mem_append.mp hmem with hmem | hmem
      · split at hmem <;> simp at hmem
      · exact absurd hmem (hopening hopen)
    | @signed j sub n signed hst hs =>
      obtain ⟨rfl, rfl⟩ : i = j ∧ tx = signed := by simpa using hmem
      exact ⟨n, ⟨tx, rfl⟩, sub, hst, hs⟩
    | refuse _ _ href | refuseQueued _ _ href => cases href <;> simp at hmem
    | @escalate j e e' => cases hs : e'.stage <;> simp [Escalation.call, hs] at hmem
    | _ => simp at hmem
  | delivery h =>
    cases h with
    | conclude => simp at hmem
    | proceed _ hproceeds => exact absurd hmem (not_firstBroadcast_of_proceeds hproceeds tx)
  | bookkeeper h => cases h <;> simp at hmem
  | outside h => cases h <;> simp at hmem

/-- **First broadcasts carry the nonces committed**, one each, if the signer signs what it is
given. -/
theorem map_firstBroadcasts_of_step? {account : Address} {chain : UInt64}
    (h : s.step? setup a = some (t, seen))
    (hsigns : SignsFor setup account chain ⟨s, a, seen, t⟩) :
    (Transition.firstBroadcasts ⟨s, a, seen, t⟩).map (fun b => (b.1, b.2.tx.nonce)) =
      (Transition.commit? ⟨s, a, seen, t⟩).toList := by
  cases hcommit : (Transition.commit? ⟨s, a, seen, t⟩) with
  | some c =>
    obtain ⟨i, n⟩ := c
    obtain ⟨-, tx, signed, hpending, rfl, ha, hseen⟩ :=
      signed_of_commits h (commit?_eq_some_iff.mp hcommit)
    have hsigned := hsigns (.operation i) tx signed hpending ha
    simp [Transition.firstBroadcasts, hseen, firstBroadcast?, hsigned]
  | none =>
    have hnone : Transition.firstBroadcasts ⟨s, a, seen, t⟩ = [] := by
      refine List.filterMap_eq_nil_iff.mpr fun o ho => ?_
      cases hb : firstBroadcast? o with
      | none => rfl
      | some b =>
        unfold firstBroadcast? at hb
        split at hb
        case h_1 i tx =>
          obtain ⟨n, hn⟩ := commits_of_firstBroadcast h ho
          exact absurd (hcommit.symm.trans (commit?_eq_some_iff.mpr hn)) (by simp)
        case h_2 => contradiction
    rw [hnone]
    rfl

/-- What is first broadcast in a step has the nonce committed in it. -/
theorem commit?_of_firstBroadcast {account : Address} {chain : UInt64} {e : Transition κ}
    {tx : SignedTx} (h : e.before.step? setup e.action = some (e.after, e.seen))
    (hsigns : SignsFor setup account chain e) (hb : (i, tx) ∈ e.firstBroadcasts) :
    e.commit? = some (i, tx.tx.nonce) := by
  refine Option.mem_toList.mp ?_
  rw [← map_firstBroadcasts_of_step? h hsigns]
  exact List.mem_map.mpr ⟨_, hb, rfl⟩

/-- **The first broadcasts of a run carry the nonces committed in it.** -/
theorem History.map_firstBroadcasts {account : Address} {chain : UInt64}
    (h : History setup s tr t) (hsigns : ∀ e ∈ tr, SignsFor setup account chain e) :
    (firstBroadcasts tr).map (fun b => (b.1, b.2.tx.nonce)) = commits tr := by
  induction h with
  | nil => rfl
  | snoc _ hstep ih =>
    rw [firstBroadcasts_concat, commits_concat, List.map_append,
      ih fun e he => hsigns e (List.mem_append_left _ he),
      map_firstBroadcasts_of_step? hstep (hsigns _ (by simp))]

end Step

/-! ### The chain -/

/-- **What happens around an account**, in the order in which it happens. -/
inductive AccountEvent where
  /-- The chain gives an operation the number of transactions mined. -/
  | quoted (i : OperationId) (n : Nonce)
  /-- The chain accepts the first broadcast of an operation. -/
  | accepted (i : OperationId) (tx : SignedTx)
  /-- The chain finds the nonce of a first broadcast too low. -/
  | tooLow (i : OperationId) (tx : SignedTx)
  /-- A transaction with the nonce of an accepted broadcast is mined. -/
  | mined (i : OperationId) (tx : SignedTx)
  /-- Somebody else's transaction of the account is mined. -/
  | minedElsewhere
  deriving DecidableEq, Repr

/-- Whether a transaction is mined. -/
def AccountEvent.isMined : AccountEvent → Bool
  | mined _ _ | minedElsewhere => true
  | quoted _ _ | accepted _ _ | tooLow _ _ => false

/-- How many transactions of the account are mined, `base` of them at the start. -/
def minedCount (base : Nat) (log : List AccountEvent) : Nat :=
  base + log.countP AccountEvent.isMined

/-- The chain has ruled on the first broadcast of an operation. -/
def Ruled (log : List AccountEvent) (i : OperationId) (tx : SignedTx) : Prop :=
  .accepted i tx ∈ log ∨ .tooLow i tx ∈ log

instance (log : List AccountEvent) (i : OperationId) (tx : SignedTx) :
    Decidable (Ruled log i tx) := inferInstanceAs (Decidable (_ ∨ _))

/-- **What the chain may do at a moment.** It gives the number of transactions mined to whoever asks
for it. It rules once on each first broadcast, and finds the nonce too low exactly if it is below
that number. It mines what it accepted in the order of the nonces, and what others send at any
time. -/
def AccountEvent.May (setup : Setup κ) (base : Nat) (tr : List (Transition κ)) (s : Service κ)
    (log : List AccountEvent) : AccountEvent → Prop
  | .quoted i n => s.pending? setup (.operation i) = some (.nonce setup.address) ∧
      n.toNat = minedCount base log
  | .accepted i tx => (i, tx) ∈ firstBroadcasts tr ∧ ¬ Ruled log i tx ∧
      minedCount base log ≤ tx.tx.nonce.toNat
  | .tooLow i tx => (i, tx) ∈ firstBroadcasts tr ∧ ¬ Ruled log i tx ∧
      tx.tx.nonce.toNat < minedCount base log
  | .mined i tx => .accepted i tx ∈ log ∧ tx.tx.nonce.toNat = minedCount base log
  | .minedElsewhere => True

/-- What the chain must have done for an operation to get a reply: to have given this nonce, to have
accepted the broadcast, or to have found its nonce too low. Other failures may come at any time. -/
def reported? (setup : Setup κ) (s : Service κ) : Action κ → Option AccountEvent
  | .reply (.operation i) (.nonce n) => some (.quoted i n)
  | .reply (.operation i) (.accepted _) =>
    (s.broadcasting? setup (.operation i)).map (.accepted i)
  | .reply (.operation i) (.failed e) =>
    if e.isNonceTooLow then (s.broadcasting? setup (.operation i)).map (.tooLow i) else none
  | _ => none

instance (setup : Setup κ) (base : Nat) (tr : List (Transition κ)) (s : Service κ)
    (log : List AccountEvent) (ev : AccountEvent) : Decidable (ev.May setup base tr s log) :=
  match ev with
  | .quoted _ _ | .mined _ _ => inferInstanceAs (Decidable (_ ∧ _))
  | .accepted _ _ | .tooLow _ _ => inferInstanceAs (Decidable (_ ∧ _ ∧ _))
  | .minedElsewhere => inferInstanceAs (Decidable True)

variable [DecidableEq κ]

/-- **A run of a service together with its account.** Whatever the service is told the chain did
before. -/
inductive AccountHistory (setup : Setup κ) (base : Nat) :
    List (Transition κ) → Service κ → List AccountEvent → Prop where
  /-- Nothing happened yet. -/
  | nil : AccountHistory setup base [] .start []
  /-- The service takes a step. -/
  | serve {tr : List (Transition κ)} {s t : Service κ} {log : List AccountEvent} {a : Action κ}
      {seen : List Observation} (h : AccountHistory setup base tr s log)
      (hstep : s.step? setup a = some (t, seen))
      (htold : ∀ ev ∈ reported? setup s a, ev ∈ log) :
      AccountHistory setup base (tr ++ [⟨s, a, seen, t⟩]) t log
  /-- Something happens on the chain. -/
  | happen {tr : List (Transition κ)} {s : Service κ} {log : List AccountEvent}
      {ev : AccountEvent} (h : AccountHistory setup base tr s log)
      (hmay : ev.May setup base tr s log) : AccountHistory setup base tr s (log ++ [ev])

variable {setup : Setup κ} {base : Nat} {tr : List (Transition κ)} {s : Service κ}
  {log : List AccountEvent} {i : OperationId} {tx : SignedTx}

namespace AccountHistory

/-- The steps of the service make a history. -/
theorem history (h : AccountHistory setup base tr s log) : History setup .start tr s := by
  induction h with
  | nil => exact .nil
  | serve _ hstep _ ih => exact ih.snoc hstep
  | happen _ _ ih => exact ih

/-- **What the chain accepted was broadcast.** -/
theorem broadcast_of_accepted (h : AccountHistory setup base tr s log)
    (hmem : .accepted i tx ∈ log) : (i, tx) ∈ firstBroadcasts tr := by
  induction h with
  | nil => exact absurd hmem List.not_mem_nil
  | serve _ _ _ ih =>
    rw [firstBroadcasts_concat]
    exact List.mem_append_left _ (ih hmem)
  | happen _ hmay ih =>
    rcases List.mem_append.mp hmem with hmem | hmem
    · exact ih hmem
    · obtain rfl := List.mem_singleton.mp hmem
      exact hmay.1

/-- **What was mined of the service's own was accepted.** -/
theorem accepted_of_mined (h : AccountHistory setup base tr s log) (hmem : .mined i tx ∈ log) :
    .accepted i tx ∈ log := by
  induction h with
  | nil => exact absurd hmem List.not_mem_nil
  | serve _ _ _ ih => exact ih hmem
  | happen _ hmay ih =>
    refine List.mem_append_left _ ?_
    rcases List.mem_append.mp hmem with hmem | hmem
    · exact ih hmem
    · obtain rfl := List.mem_singleton.mp hmem
      exact hmay.1

/-- **The nonces the service was told are those the chain gave.** -/
theorem quoted_of_told {e : Transition κ} {n : Nonce} (h : AccountHistory setup base tr s log)
    (he : e ∈ tr) (ha : e.action = .reply (.operation i) (.nonce n)) : .quoted i n ∈ log := by
  induction h with
  | nil => exact absurd he List.not_mem_nil
  | serve _ _ htold ih =>
    rcases List.mem_append.mp he with he | he
    · exact ih he
    · obtain rfl := List.mem_singleton.mp he
      simp only at ha
      exact htold _ (by rw [ha]; rfl)
  | happen _ _ ih => exact List.mem_append_left _ (ih he)

end AccountHistory

/-! ### Account histories that are run -/

/-- What happens next in an account history, if it can: a step of the service, or an event on the
chain. -/
def accountStep? (setup : Setup κ) (base : Nat) :
    List (Transition κ) × Service κ × List AccountEvent → Action κ ⊕ AccountEvent →
      Option (List (Transition κ) × Service κ × List AccountEvent)
  | (tr, s, log), .inl a => do
    let (t, seen) ← s.step? setup a
    if ∀ ev ∈ reported? setup s a, ev ∈ log then some (tr ++ [⟨s, a, seen, t⟩], t, log) else none
  | (tr, s, log), .inr ev =>
    if ev.May setup base tr s log then some (tr, s, log ++ [ev]) else none

/-- **What happens from the start on**, if all of it can. -/
def accountRun? (setup : Setup κ) (base : Nat) (script : List (Action κ ⊕ AccountEvent)) :
    Option (List (Transition κ) × Service κ × List AccountEvent) :=
  script.foldlM (accountStep? setup base) ([], .start, [])

/-- **What is run is an account history.** -/
theorem accountHistory_of_run? {script : List (Action κ ⊕ AccountEvent)}
    {r : List (Transition κ) × Service κ × List AccountEvent}
    (h : accountRun? setup base script = some r) :
    AccountHistory setup base r.1 r.2.1 r.2.2 := by
  induction script using List.reverseRecOn generalizing r with
  | nil =>
    obtain rfl : ([], .start, []) = r := by simpa [accountRun?] using h
    exact .nil
  | append_singleton script next ih =>
    rw [accountRun?, List.foldlM_append] at h
    obtain ⟨⟨tr, s, log⟩, hrun, h⟩ := Option.bind_eq_some_iff.mp h
    have hbefore := ih hrun
    simp only [List.foldlM_cons, List.foldlM_nil, bind_pure] at h
    cases next with
    | inl a =>
      obtain ⟨⟨t, seen⟩, hstep, h⟩ := Option.bind_eq_some_iff.mp h
      obtain ⟨htold, h⟩ := Option.ite_none_right_eq_some.mp h
      obtain rfl := Option.some.inj h
      exact hbefore.serve hstep htold
    | inr ev =>
      obtain ⟨hmay, h⟩ := Option.ite_none_right_eq_some.mp h
      obtain rfl := Option.some.inj h
      exact hbefore.happen hmay

/-- What is read off a run holds of an account history. -/
theorem exists_accountHistory {β : Type} {script : List (Action κ ⊕ AccountEvent)}
    {f : List (Transition κ) × Service κ × List AccountEvent → β} {b : β}
    (h : (accountRun? setup base script).map f = some b) :
    ∃ tr s log, AccountHistory setup base tr s log ∧ f (tr, s, log) = b := by
  obtain ⟨⟨tr, s, log⟩, hrun, hb⟩ := Option.map_eq_some_iff.mp h
  exact ⟨tr, s, log, accountHistory_of_run? hrun, hb⟩

end Service

end TxDelivery
