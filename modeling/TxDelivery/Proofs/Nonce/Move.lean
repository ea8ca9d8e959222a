import TxDelivery.Proofs.FairLock
import TxDelivery.Proofs.Operation.Move

/-!
# The nonce in a step

What a step does about the nonce (`TxDelivery.Service.NonceMove`). A submission that has the nonce
lock asks the chain for the nonce or takes the one after the last, has the transaction signed with
it, and with the signature commits it (`TxDelivery.Service.Commits`); a reset forgets it
(`TxDelivery.Service.Resets`). **Nothing else touches the nonce**, and nobody else is at work on it.

The cases are those of the nonce and not those of the program. Each says

* which operation goes on, and what its stage is before and after; all others stay where they are;
* what is known of the nonce afterwards;
* what is seen of the step: a question for the nonce, for a signature, or for a broadcast;
* that the nonce lock is still there for whoever goes on with the nonce.

There are half a dozen of these cases, while a service has several dozen kinds of steps, and whoever
reasons about nonces goes through the former. That every step is one of them is
`TxDelivery.Service.nonceMove_of_step?`, which goes through the latter.

Nearly all steps do nothing. For these it has to be shown that they commit nothing and reset
nothing, which is a matter of the action alone: a commitment is the reply to a signer, and a reset
is an operation that goes on with the lock. For steps of deliveries, of bookkeepers and of the world
outside it is therefore one lemma (`TxDelivery.Service.nonceMove_still_of_action`). In particular
supervisors and listeners leave the nonce and its lock alone, whatever they do
(`TxDelivery.Service.nonce_of_isOfDelivery`): a replacement keeps the nonce of what it replaces, and
a nonce found too low in a replacement resets nothing.
-/

namespace TxDelivery

variable {κ : Type}

/-- Whether a submission is at work on the nonce: it is asked for, or signed with. -/
def Submission.Stage.holdsNonce : Submission.Stage → Bool
  | .fetching | .signing _ => true
  | .pricing | .estimating | .queued | .broadcasting _ _ | .resetting _ => false

/-- Whether a step is one of a supervisor or of a listener. -/
def Action.isOfDelivery : Action κ → Bool
  | .tick _ | .expire _ | .join _ | .receive _ | .poll _ | .lapse _ | .crash _
  | .reply (.supervisor _) _ | .reply (.listener _) _ => true
  | _ => false

namespace Service

open Operation

/-- **A step commits a nonce**: the signature with it is there. -/
def Commits (s : Service κ) (a : Action κ) (i : OperationId) (n : Nonce) : Prop :=
  (∃ signed, a = .reply (.operation i) (.signed signed)) ∧
    ∃ sub, s.stage? i = some (.submitting sub) ∧ sub.stage = .signing n

/-- **A step resets the nonce**: a caller wanted it, or a first broadcast was refused because its
nonce was too low. -/
def Resets (s : Service κ) (a : Action κ) : Prop :=
  ∃ i, a = .resume i ∧ (s.stage? i = some .resetting ∨
    ∃ sub e, s.stage? i = some (.submitting sub) ∧ sub.stage = .resetting e)

/-- Whether an operation waits to forget the nonce. -/
def forgets : Operation.Stage κ → Bool
  | .resetting => true
  | .submitting sub => match sub.stage with
    | .resetting _ => true
    | _ => false
  | _ => false

theorem forgets_iff {st : Operation.Stage κ} : forgets st = true ↔ st = .resetting ∨
    ∃ sub e, st = .submitting sub ∧ sub.stage = .resetting e := by
  cases st with
  | submitting sub => cases hs : sub.stage <;> simp [forgets, hs]
  | _ => simp [forgets]

theorem resets_resume_iff {s : Service κ} {i : OperationId} :
    s.Resets (.resume i) ↔ (s.stage? i).any forgets = true := by
  rw [Option.any_eq_true]
  constructor
  · rintro ⟨j, ha, hj⟩
    obtain rfl : i = j := by simpa using ha
    rcases hj with hst | ⟨sub, e, hst, hs⟩
    · exact ⟨_, hst, rfl⟩
    · exact ⟨_, hst, forgets_iff.mpr (.inr ⟨sub, e, rfl, hs⟩)⟩
  · rintro ⟨st, hst, hforgets⟩
    rcases forgets_iff.mp hforgets with rfl | ⟨sub, e, rfl, hs⟩
    · exact ⟨i, rfl, .inl hst⟩
    · exact ⟨i, rfl, .inr ⟨sub, e, hst, hs⟩⟩

instance (s : Service κ) (a : Action κ) : Decidable (s.Resets a) :=
  match a with
  | .resume _ => decidable_of_iff _ resets_resume_iff.symm
  | .begin _ | .drop _ | .reply _ _ | .tick _ | .expire _ | .join _ | .receive _ | .poll _
  | .lapse _ | .crash _ | .startBookkeeper | .close | .takeConfirm _ | .takeError _ | .mark _
  | .stop _ | .subscribe _ | .drain _ _ | .unsubscribe _ _ | .wait _ => .isFalse <| by simp [Resets]

variable [DecidableEq κ]

/-- **What a step does about the nonce.** -/
inductive NonceMove (setup : Setup κ) (s : Service κ) (a : Action κ) (t : Service κ)
    (seen : List Observation) : Prop where
  /-- Nothing, and nobody begins to work on it. -/
  | still (hn : t.nonce = s.nonce) (hcommit : ∀ i n, ¬ s.Commits a i n) (hreset : ¬ s.Resets a)
      (hasked : ∀ party account, .called party (.nonce account) ∉ seen)
      (hold : ∀ j sub, t.stage? j = some (.submitting sub) → sub.stage.holdsNonce = true →
        s.stage? j = some (.submitting sub) ∧
          (s.nonceLock.OwnedBy j → t.nonceLock.OwnedBy j))
  /-- A submission asks the chain for it. -/
  | fetch {i : OperationId} {sub : Submission κ} (ha : a = .resume i)
      (hst : s.stage? i = some (.submitting sub)) (hs : sub.stage = .queued)
      (hheld : s.nonceLock.heldBy i = true) (hnonce : s.nonce = .unknown)
      (hn : t.nonce = s.nonce) (hlock : t.nonceLock = s.nonceLock)
      (hseen : seen = [.called (.operation i) (.nonce setup.address)])
      (ht : t.stage? i = some (.submitting { sub with stage := .fetching }))
      (hothers : ∀ j, i ≠ j → t.stage? j = s.stage? j)
  /-- A submission takes the one after the last. -/
  | take {i : OperationId} {sub : Submission κ} {last : Nonce} (ha : a = .resume i)
      (hst : s.stage? i = some (.submitting sub)) (hs : sub.stage = .queued)
      (hheld : s.nonceLock.heldBy i = true) (hnonce : s.nonce = .known last)
      (hn : t.nonce = s.nonce) (hlock : t.nonceLock = s.nonceLock)
      (hseen : seen = [.called (.operation i) (.sign { sub.tx with nonce := last + 1 })])
      (ht : t.stage? i = some (.submitting { sub with stage := .signing (last + 1) }))
      (hothers : ∀ j, i ≠ j → t.stage? j = s.stage? j)
  /-- The chain answers with it. -/
  | answered {i : OperationId} {sub : Submission κ} {n : Nonce}
      (ha : a = .reply (.operation i) (.nonce n)) (hst : s.stage? i = some (.submitting sub))
      (hs : sub.stage = .fetching) (hn : t.nonce = s.nonce) (hlock : t.nonceLock = s.nonceLock)
      (hseen : seen = [.called (.operation i) (.sign { sub.tx with nonce := n })])
      (ht : t.stage? i = some (.submitting { sub with stage := .signing n }))
      (hothers : ∀ j, i ≠ j → t.stage? j = s.stage? j)
  /-- The signature with it is there. -/
  | commit {i : OperationId} {sub : Submission κ} {n : Nonce} {signed : SignedTx}
      (ha : a = .reply (.operation i) (.signed signed))
      (hst : s.stage? i = some (.submitting sub)) (hs : sub.stage = .signing n)
      (hn : t.nonce = .known n)
      (hseen : seen = [.called (.operation i) (.broadcast signed)])
      (ht : ∃ deadline, t.stage? i =
        some (.submitting { sub with stage := .broadcasting signed deadline }))
      (hothers : ∀ j, i ≠ j → t.stage? j = s.stage? j)
  /-- It is forgotten. -/
  | reset {i : OperationId} (hreset : s.Resets a) (ha : a = .resume i)
      (hheld : s.nonceLock.heldBy i = true) (hn : t.nonce = .unknown) (hseen : seen = [])
      (ht : ∃ answer, t.stage? i = some (.ended answer))
      (hothers : ∀ j, i ≠ j → t.stage? j = s.stage? j)

variable {setup : Setup κ} {s t : Service κ} {a : Action κ} {seen : List Observation}
  {i : OperationId} {r : Request κ} {st st' : Operation.Stage κ}

omit [DecidableEq κ] in
/-- A reply that is no signature commits nothing. -/
theorem not_commits_reply {reply : Reply} (h : ∀ signed, reply ≠ .signed signed) {j : OperationId}
    {n : Nonce} : ¬ s.Commits (.reply (.operation i) reply) j n := by
  rintro ⟨⟨signed, ha⟩, -⟩
  simp only [Action.reply.injEq] at ha
  exact h signed ha.2

omit [DecidableEq κ] in
/-- What is not at work on the nonce when it gets a reply commits nothing. -/
theorem not_commits_of_stage {reply : Reply} (hst : s.stage? i = some st)
    (h : ∀ sub n, st = .submitting sub → sub.stage ≠ .signing n) {j : OperationId} {n : Nonce} :
    ¬ s.Commits (.reply (.operation i) reply) j n := by
  rintro ⟨⟨signed, ha⟩, sub, hst', hs⟩
  simp only [Action.reply.injEq, Party.operation.injEq] at ha
  obtain ⟨rfl, -⟩ := ha
  exact h sub n (Option.some.inj (hst.symm.trans hst')) hs

omit [DecidableEq κ] in
/-- Who goes on with a lock without resetting resets nothing. -/
theorem not_resets_resume (hst : s.stage? i = some st) (h : st ≠ .resetting)
    (h' : ∀ sub e, st = .submitting sub → sub.stage ≠ .resetting e) : ¬ s.Resets (.resume i) := by
  rintro ⟨j, ha, hj⟩
  obtain rfl : i = j := by simpa using ha
  rcases hj with hj | ⟨sub, e, hj, hs⟩
  · exact h (Option.some.inj (hst.symm.trans hj))
  · exact h' sub e (Option.some.inj (hst.symm.trans hj)) hs

omit [DecidableEq κ] in
/-- Coming and leaving do not take the lock from anybody else. -/
theorem ownedBy_of_lock {lock : FairLock OperationId} {j : OperationId} (hij : i ≠ j)
    (hlock : lock = s.nonceLock ∨ lock = s.nonceLock.enter i .exclusive ∨
      lock = s.nonceLock.leave i) (h : s.nonceLock.OwnedBy j) : lock.OwnedBy j := by
  rcases hlock with rfl | rfl | rfl
  · exact h
  · exact h.enter
  · exact h.leave (Ne.symm hij)

omit [DecidableEq κ] in
/-- A step in which an operation does nothing about the nonce. -/
theorem nonceMove_still_of_put (hst : s.stage? i = some st)
    (hcommit : ∀ j n, ¬ s.Commits a j n) (hreset : ¬ s.Resets a)
    (hasked : ∀ party account, .called party (.nonce account) ∉ seen)
    (ht : t.operations = put s.operations i st') (hn : t.nonce = s.nonce)
    (hlock : t.nonceLock = s.nonceLock ∨ t.nonceLock = s.nonceLock.enter i .exclusive ∨
      t.nonceLock = s.nonceLock.leave i)
    (hidle : ∀ sub, st' = .submitting sub → sub.stage.holdsNonce = false) :
    NonceMove setup s a t seen := by
  refine .still hn hcommit hreset hasked fun j sub hj hholds => ?_
  by_cases hij : i = j
  · subst hij
    have hsub := Option.some.inj ((stage?_put_self ht hst).symm.trans hj)
    rw [hidle sub hsub] at hholds
    contradiction
  · exact ⟨(stage?_put_of_ne ht hij).symm.trans hj, ownedBy_of_lock hij hlock⟩

omit [DecidableEq κ] in
/-- A step in which an operation begins. -/
theorem nonceMove_still_of_append
    (hasked : ∀ party account, .called party (.nonce account) ∉ seen)
    (ht : t.operations = s.operations ++ [⟨r, st⟩]) (hn : t.nonce = s.nonce)
    (hlock : t.nonceLock = s.nonceLock ∨
      t.nonceLock = s.nonceLock.enter s.operations.length .exclusive)
    (hidle : ∀ sub, st = .submitting sub → sub.stage.holdsNonce = false) :
    NonceMove setup s (.begin r) t seen := by
  refine .still hn ?_ ?_ hasked fun j sub hj hholds => ?_
  · rintro j n ⟨⟨signed, ha⟩, -⟩
    contradiction
  · rintro ⟨j, ha, -⟩
    contradiction
  · rw [stage?_of_append ht] at hj
    split at hj
    case isTrue =>
      rw [hidle sub (Option.some.inj hj)] at hholds
      contradiction
    case isFalse hne =>
      refine ⟨hj, ownedBy_of_lock (Ne.symm hne) ?_⟩
      rcases hlock with hlock | hlock
      · exact .inl hlock
      · exact .inr (.inl hlock)

end Service

namespace Submission

/-- A submission that opens is not at work on the nonce yet. -/
theorem Opening.nonce {lock lock' : FairLock OperationId} {i : OperationId} {sub : Submission κ}
    {seen : List Observation} (h : Opening lock i sub lock' seen) :
    sub.stage.holdsNonce = false ∧ (lock' = lock ∨ lock' = lock.enter i .exclusive) ∧
      ∀ party account, .called party (.nonce account) ∉ seen := by
  cases h with
  | pricing hs | estimating hs => exact ⟨by rw [hs]; rfl, .inl rfl, by simp⟩
  | queued hs => exact ⟨by rw [hs]; rfl, .inr rfl, by simp⟩

end Submission

namespace Service

open Operation

variable [DecidableEq κ] {setup : Setup κ} {s t : Service κ} {a : Action κ}
  {seen : List Observation} {i : OperationId}

omit [DecidableEq κ] in
/-- **A refusal** resets the nonce if it was too low, and else leaves it alone. -/
theorem nonceMove_of_refusal {sub : Submission κ} {e : DeliveryError} {n : NonceState}
    {lock : FairLock OperationId} {m : Metrics} (hst : s.stage? i = some (.submitting sub))
    (href : Submission.Refusal s i sub a e n lock m seen)
    (ht : t.operations = put s.operations i (.ended (.failed e))) (hn : t.nonce = n)
    (hlock : t.nonceLock = lock) : NonceMove setup s a t seen := by
  have hfailed {e' : ChainError} (j : OperationId) (n : Nonce) :
      ¬ s.Commits (.reply (.operation i) (.failed e')) j n :=
    not_commits_reply (by simp)
  have hnever {reply : Reply} : ¬ s.Resets (.reply (.operation i) reply) := by
    rintro ⟨j, ha, -⟩
    contradiction
  cases href with
  | price | gas =>
    exact nonceMove_still_of_put hst hfailed hnever (by simp) ht hn (.inl hlock) (by simp)
  | broadcast =>
    exact nonceMove_still_of_put hst hfailed hnever (by simp) ht hn (.inl hlock) (by simp)
  | nonce | sign =>
    exact nonceMove_still_of_put hst hfailed hnever (by simp) ht hn (.inr (.inr hlock)) (by simp)
  | forgotten hs hheld =>
    exact .reset ⟨i, rfl, .inr ⟨sub, _, hst, hs⟩⟩ rfl hheld hn rfl ⟨_, stage?_put_self ht hst⟩
      fun j hij => stage?_put_of_ne ht hij

theorem nonceMove_of_operationStep (h : OperationStep setup s a (t, seen)) :
    NonceMove setup s a t seen := by
  have hnever {reply : Reply} {i : OperationId} : ¬ s.Resets (.reply (.operation i) reply) := by
    rintro ⟨j, ha, -⟩
    contradiction
  have hresume {i j : OperationId} {n : Nonce} : ¬ s.Commits (.resume i) j n := by
    rintro ⟨⟨signed, ha⟩, -⟩
    contradiction
  have hdrop {i : OperationId} : (∀ j n, ¬ s.Commits (.drop i) j n) ∧ ¬ s.Resets (.drop i) := by
    constructor
    · rintro j n ⟨⟨signed, ha⟩, -⟩
      contradiction
    · rintro ⟨j, ha, -⟩
      contradiction
  cases h with
  | submit _ _ hopen =>
    obtain ⟨hidle, hlock, hasked⟩ := hopen.nonce
    exact nonceMove_still_of_append hasked rfl rfl hlock fun sub hsub => by cases hsub; exact hidle
  | enter | estimate | replace =>
    exact nonceMove_still_of_append (by simp) rfl rfl (.inl rfl) (by simp)
  | forget => exact nonceMove_still_of_append (by simp) rfl rfl (.inr rfl) (by simp)
  | duplicate hst | mark hst | read hst =>
    exact nonceMove_still_of_put hst (fun _ _ => hresume)
      (not_resets_resume hst (by simp) (by simp)) (by simp) rfl rfl (.inl rfl) (by simp)
  | enqueue hst _ _ _ _ _ hopen =>
    obtain ⟨hidle, hlock, hasked⟩ := hopen.nonce
    refine nonceMove_still_of_put hst (fun _ _ => hresume)
      (not_resets_resume hst (by simp) (by simp)) (fun party account hmem => ?_) rfl rfl
      (hlock.imp_right .inl) fun sub hsub => by cases hsub; exact hidle
    rcases List.mem_append.mp hmem with hmem | hmem
    · split at hmem <;> simp at hmem
    · exact hasked party account hmem
  | fetch hst hs hheld hnonce =>
    exact .fetch rfl hst hs hheld hnonce rfl rfl rfl (stage?_put_self rfl hst)
      fun j hij => stage?_put_of_ne rfl hij
  | sign hst hs hheld hnonce =>
    exact .take rfl hst hs hheld hnonce rfl rfl rfl (stage?_put_self rfl hst)
      fun j hij => stage?_put_of_ne rfl hij
  | @forgotten i hst hheld =>
    exact .reset ⟨i, rfl, .inl hst⟩ rfl hheld rfl rfl ⟨_, stage?_put_self rfl hst⟩
      fun j hij => stage?_put_of_ne rfl hij
  | price hst hs hsub hne hopen =>
    obtain ⟨hidle, hlock, hasked⟩ := hopen.nonce
    exact nonceMove_still_of_put hst (fun _ _ => not_commits_reply (by simp)) hnever hasked rfl rfl
      (hlock.imp_right .inl) fun sub hsub => by cases hsub; exact hidle
  | gas hst =>
    exact nonceMove_still_of_put hst (fun _ _ => not_commits_reply (by simp)) hnever (by simp) rfl
      rfl (.inr (.inl rfl)) fun sub hsub => by cases hsub; rfl
  | nonce hst hs =>
    exact .answered rfl hst hs rfl rfl rfl (stage?_put_self rfl hst)
      fun j hij => stage?_put_of_ne rfl hij
  | signed hst hs =>
    exact .commit rfl hst hs rfl rfl ⟨_, stage?_put_self rfl hst⟩
      fun j hij => stage?_put_of_ne rfl hij
  | tooLow hst hs =>
    exact nonceMove_still_of_put hst (fun _ _ => not_commits_reply (by simp)) hnever (by simp) rfl
      rfl (.inr (.inl rfl)) fun sub hsub => by cases hsub; rfl
  | refuse hst _ href => exact nonceMove_of_refusal hst href rfl rfl rfl
  | refuseQueued hst _ href => exact nonceMove_of_refusal hst href rfl rfl rfl
  | launchDetached hst | launchAttached hst | launchQueued hst =>
    exact nonceMove_still_of_put hst (fun _ _ => not_commits_reply (by simp)) hnever (by simp) rfl
      rfl (.inl rfl) (by simp)
  | answer hst hs =>
    refine nonceMove_still_of_put hst (fun _ _ => not_commits_of_stage hst ?_) hnever ?_ rfl rfl
      (.inl rfl) (by simp)
    · rintro sub n rfl
      simp at hs
    · intro party account hmem
      simp at hmem
  | @escalate i e e' reply hst =>
    refine nonceMove_still_of_put hst (fun _ _ => not_commits_of_stage hst (by simp)) hnever ?_ rfl
      rfl (.inl rfl) (by simp)
    intro party account hmem
    cases hs : e'.stage <;> simp [Escalation.call, hs] at hmem
  | drop hst | dropWaiting hst =>
    exact nonceMove_still_of_put hst hdrop.1 hdrop.2 (by simp) rfl rfl (.inr (.inr rfl)) (by simp)

omit [DecidableEq κ] in
/-- **Deliveries do not ask for nonces.** -/
theorem not_asked_of_proceeds {now : Nat} {d : DeliveryId} {x x' : Delivery} {m m' : Metrics}
    (h : x.Proceeds setup now d m a x' m' seen) (party : Party) (account : Address) :
    .called party (.nonce account) ∉ seen := by
  have hlistener {l : Listener} :
      .called party (.nonce account) ∉ l.call?.toList.map (Observation.called (.listener d)) := by
    cases hl : l.stage <;> simp [Listener.call?, hl]
  cases h with
  | tick | note | noteStopped | keep | retry | broadcast | adopt | reject | crash => simp
  | @ask e e' =>
    cases hs : e'.stage <;> simp [Escalation.call, hs]
  | receive | poll => exact hlistener
  | lapse => exact List.not_mem_cons_of_ne_of_not_mem (by simp) hlistener
  | answer =>
    intro hmem
    rcases List.mem_append.mp hmem with hmem | hmem
    · simp at hmem
    · exact hlistener hmem

omit [DecidableEq κ] in
/-- The steps of deliveries, bookkeepers and the outside world are about no operation. -/
theorem nonceMove_still_of_action (hcommit : ∀ i reply, a ≠ .reply (.operation i) reply)
    (hreset : ∀ i, a ≠ .resume i)
    (hasked : ∀ party account, .called party (.nonce account) ∉ seen)
    (hn : t.nonce = s.nonce) (hlock : t.nonceLock = s.nonceLock)
    (hold : ∀ j sub, t.stage? j = some (.submitting sub) → s.stage? j = some (.submitting sub)) :
    NonceMove setup s a t seen := by
  refine .still hn ?_ ?_ hasked fun j sub hj _ => ⟨hold j sub hj, fun h => hlock ▸ h⟩
  · rintro i n ⟨⟨signed, ha⟩, -⟩
    exact hcommit i _ ha
  · rintro ⟨i, ha, -⟩
    exact hreset i ha

omit [DecidableEq κ] in
theorem nonceMove_of_deliveryStep (h : DeliveryStep setup s a (t, seen)) :
    NonceMove setup s a t seen := by
  cases h with
  | @conclude d x _ outcome hx hends =>
    refine nonceMove_still_of_action ?_ ?_ (by simp) rfl rfl fun j sub hj => ?_
    · rintro i reply rfl
      cases hends
    · rintro i rfl
      cases hends
    · rcases handOver_eq s.operations x.owner outcome with ⟨-, hops⟩ | ⟨i, -, hops⟩
      · rw [hops] at hj
        exact hj
      · rw [stage?_of_put hops] at hj
        split at hj
        · simp at hj
        · exact hj
  | proceed hx hproceeds =>
    refine nonceMove_still_of_action ?_ ?_ (not_asked_of_proceeds hproceeds) rfl rfl
      fun j sub hj => hj
    · rintro i reply rfl
      cases hproceeds
    · rintro i rfl
      cases hproceeds

/-- **What every step does about the nonce.** -/
theorem nonceMove_of_step? (h : s.step? setup a = some (t, seen)) :
    NonceMove setup s a t seen := by
  cases step_of_step? h with
  | operation h => exact nonceMove_of_operationStep h
  | delivery h => exact nonceMove_of_deliveryStep h
  | bookkeeper h =>
    cases h <;>
      exact nonceMove_still_of_action (by simp) (by simp) (by simp) rfl rfl fun j sub hj => hj
  | outside h =>
    cases h <;>
      exact nonceMove_still_of_action (by simp) (by simp) (by simp) rfl rfl fun j sub hj => hj

/-- **Supervisors and listeners leave the nonce and its lock alone**, whatever they do. -/
theorem nonce_of_isOfDelivery (h : s.step? setup a = some (t, seen))
    (ha : a.isOfDelivery = true) : t.nonce = s.nonce ∧ t.nonceLock = s.nonceLock := by
  cases step_of_step? h with
  | operation h =>
    cases h with
    | refuse _ _ href | refuseQueued _ _ href => cases href <;> simp [Action.isOfDelivery] at ha
    | _ => simp [Action.isOfDelivery] at ha
  | delivery h => cases h <;> exact ⟨rfl, rfl⟩
  | bookkeeper h => cases h <;> exact ⟨rfl, rfl⟩
  | outside h => cases h <;> exact ⟨rfl, rfl⟩

end Service

end TxDelivery
