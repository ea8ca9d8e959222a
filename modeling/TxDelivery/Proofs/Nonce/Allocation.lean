import TxDelivery.Proofs.Nonce.Sequence
import TxDelivery.Proofs.Operation.Alone

/-!
# Handing out a nonce, step by step

`TxDelivery.NonceState.allocate` hands out a nonce at one stroke: the chain is asked if need be, the
work is done, and only its success is remembered. In the service the same takes up to three steps of
a submission, and anybody else may act between them. **It comes to the same all the same**
(`TxDelivery.Service.History.allocates`): from the moment at which a submission goes on with the
nonce lock, what becomes of it and of what is known of the nonce is what
`TxDelivery.NonceState.allocate` gives for the answer of the chain and the work of the signer.

The reason is the lock. Whoever is at work on the nonce owns it, so that no step of another party
changes what is known (`TxDelivery.Service.nonce_of_works`), and the steps of the submission itself
are five: the answer with the nonce, the signature, a failure of either, and a caller who drops it
(`TxDelivery.Service.WorkMove`). The invariant of a run is how far the submission has come
(`TxDelivery.Service.Allocates`). A submission that is dropped half-way has no place in
`TxDelivery.NonceState.allocate`, which always comes to an end; it leaves the nonce as it found it.

## Several callers

Between two resets the callers get their nonces one after another, in whatever order they take their
steps: the nonces committed are those of `TxDelivery.NonceState.allocateMany`, as many as were
committed, and so is what is known of the nonce afterwards
(`TxDelivery.Service.History.commits_eq_allocateMany`). As long as nobody at work on the nonce fails
or is dropped the chain is asked as often as `TxDelivery.NonceState.fetches` says
(`TxDelivery.Service.History.fetchCount_eq_fetches`), which is once.
-/

namespace TxDelivery

/-! ### The cache alone -/

namespace NonceState

variable {ε α : Type} {s : NonceState} {fetch : Except ε Nonce} {work : Nonce → Except ε α}
  {n : Nonce} {e : ε} {a : α}

/-- Without a nonce to work with nothing is handed out. -/
theorem allocate_of_candidate_error (h : s.candidate fetch = .error e) :
    s.allocate fetch work = (.error e, s) := by
  rw [allocate, h]

/-- Work that fails hands out nothing. -/
theorem allocate_of_work_error (h : s.candidate fetch = .ok n) (hwork : work n = .error e) :
    s.allocate fetch work = (.error e, s) := by
  simp only [allocate, h, hwork]

/-- Work that succeeds is remembered. -/
theorem allocate_of_work_ok (h : s.candidate fetch = .ok n) (hwork : work n = .ok a) :
    s.allocate fetch work = (.ok a, .known n) := by
  simp only [allocate, h, hwork]

theorem candidate_unknown : unknown.candidate fetch = fetch := rfl

theorem candidate_known : (known n).candidate fetch = .ok (n + 1) := rfl

end NonceState

namespace Service

/-- One nonce, and those after it. -/
theorem consecutive_cons (m : Nonce) (k : Nat) :
    consecutive m (k + 1) = m :: consecutive (m + 1) k := by
  rw [consecutive, List.range_succ_eq_map, List.map_cons, List.map_map]
  refine congrArg₂ List.cons (by simp) (List.map_congr_left fun j _ => ?_)
  simp only [Function.comp_apply, Nat.succ_eq_add_one, Nat.add_comm j 1, UInt64.ofNat_add,
    UInt64.add_assoc]
  rfl

end Service

namespace NonceState

open Service

variable {ε : Type} (fetch : Except ε Nonce)

/-- **Once a nonce is known** the callers get those after it, and nobody asks the chain. -/
theorem allocateMany_known (k : Nat) (n : Nonce) :
    allocateMany fetch k (known n) =
      ((consecutive (n + 1) k).map .ok, known (n + UInt64.ofNat k)) := by
  induction k generalizing n with
  | zero => simp [allocateMany, consecutive]
  | succ k ih =>
    have hlast : n + 1 + UInt64.ofNat k = n + UInt64.ofNat (k + 1) := by
      rw [Nat.add_comm k 1, UInt64.ofNat_add, UInt64.add_assoc]
      rfl
    have hfirst : (known n).allocate fetch pure = (.ok (n + 1), known (n + 1)) :=
      allocate_of_work_ok candidate_known rfl
    simp only [allocateMany, hfirst, ih, consecutive_cons, List.map_cons, hlast]

theorem fetches_known (k : Nat) (n : Nonce) : fetches fetch k (known n) = 0 := by
  induction k generalizing n with
  | zero => rfl
  | succ k ih =>
    have hfirst : (known n).allocate fetch pure = (.ok (n + 1), known (n + 1)) :=
      allocate_of_work_ok candidate_known rfl
    simp only [fetches, hfirst, ih]
    rfl

/-- The first of several callers gets the answer of the chain. -/
theorem allocate_unknown (m : Nonce) :
    unknown.allocate (.ok m : Except ε Nonce) pure = (.ok m, known m) :=
  allocate_of_work_ok candidate_unknown rfl

/-- **While no nonce is known** the callers get the answer of the chain and the nonces after it. -/
theorem allocateMany_unknown (k : Nat) (m : Nonce) :
    allocateMany (.ok m : Except ε Nonce) (k + 1) unknown =
      ((consecutive m (k + 1)).map .ok, known (m + UInt64.ofNat k)) := by
  simp only [allocateMany, allocate_unknown, allocateMany_known, consecutive_cons, List.map_cons]

/-- The chain is asked once, for the first of them. -/
theorem fetches_unknown (k : Nat) (m : Nonce) :
    fetches (.ok m : Except ε Nonce) (k + 1) unknown = 1 := by
  simp only [fetches, allocate_unknown, fetches_known]
  rfl

end NonceState

/-- **A nonce handed out to a transaction**: the chain is asked if need be, the work is the
signature. -/
def Answers.allocate (w : Answers) (sender : Address) (cache : NonceState) (tx : Transaction) :
    Except ChainError SignedTx × NonceState :=
  cache.allocate (w.nonce sender) fun n => w.sign { tx with nonce := n }

/-- What a result or a failure can be as a reply. -/
theorem Reply.of_ofExcept {α : Type} {f : α → Reply} {r : Except ChainError α} {reply : Reply}
    (h : some (Reply.ofExcept f r) = some reply) :
    (∃ x, r = .ok x ∧ reply = f x) ∨ ∃ e, r = .error e ∧ reply = .failed e := by
  obtain rfl := Option.some.inj h
  cases r with
  | ok x => exact .inl ⟨x, rfl, rfl⟩
  | error e => exact .inr ⟨e, rfl, rfl⟩

variable {κ : Type}

namespace Service

open Operation

/-! ### At work on the nonce -/

/-- **An operation is at work on the nonce**: it asks for it, or is signed with it. -/
def WorksOnNonce (s : Service κ) (i : OperationId) : Prop :=
  ∃ sub, s.stage? i = some (.submitting sub) ∧ sub.stage.holdsNonce = true

/-- **A step seen from a submission at work on the nonce.** -/
inductive WorkMove (s : Service κ) (i : OperationId) (sub : Submission κ) (a : Action κ)
    (t : Service κ) : Prop where
  /-- It waits. -/
  | still (ht : t.stage? i = some (.submitting sub)) (hn : t.nonce = s.nonce)
  /-- The chain answers with the nonce. -/
  | answered {n : Nonce} (ha : a = .reply (.operation i) (.nonce n)) (hs : sub.stage = .fetching)
      (ht : t.stage? i = some (.submitting { sub with stage := .signing n }))
      (hn : t.nonce = s.nonce)
  /-- The signature is there. -/
  | signed {n : Nonce} {signed : SignedTx} {deadline : Nat}
      (ha : a = .reply (.operation i) (.signed signed)) (hs : sub.stage = .signing n)
      (ht : t.stage? i = some (.submitting { sub with stage := .broadcasting signed deadline }))
      (hn : t.nonce = .known n)
  /-- The chain has no nonce for it. -/
  | fetchFailed {e : ChainError} (ha : a = .reply (.operation i) (.failed e))
      (hs : sub.stage = .fetching) (ht : t.stage? i = some (.ended (.failed (.nonce e))))
      (hn : t.nonce = s.nonce)
  /-- The signer fails. -/
  | signFailed {n : Nonce} {e : ChainError} (ha : a = .reply (.operation i) (.failed e))
      (hs : sub.stage = .signing n) (ht : t.stage? i = some (.ended (.failed (.sign e))))
      (hn : t.nonce = s.nonce)
  /-- The caller drops it. -/
  | dropped (ha : a = .drop i) (ht : t.stage? i = some .dropped) (hn : t.nonce = s.nonce)

variable [DecidableEq κ] {setup : Setup κ} {s t : Service κ} {i : OperationId}
  {sub : Submission κ} {a : Action κ} {seen : List Observation} {tr : List (Transition κ)}

/-- **As long as a submission is at work on the nonce nobody changes what is known of it**: whoever
commits or forgets the nonce has the lock, which is the submission's. -/
theorem nonce_of_works (hs : s.NonceGuarded) (h : s.step? setup a = some (t, seen))
    (hst : s.stage? i = some (.submitting sub)) (hholds : sub.stage.holdsNonce = true)
    (ht : t.stage? i = some (.submitting sub)) : t.nonce = s.nonce := by
  have hown := hs.ownedBy hst hholds
  cases nonceMove_of_step? h with
  | still hn | fetch _ _ _ _ _ hn | take _ _ _ _ _ hn | answered _ _ _ hn => exact hn
  | @commit j sub' n signed _ hj hs' _ _ hj' =>
    obtain rfl : j = i := (hs.ownedBy hj (by rw [hs']; rfl)).unique hown
    obtain ⟨deadline, hj'⟩ := hj'
    obtain rfl := Operation.Stage.submitting.inj (Option.some.inj (hj'.symm.trans ht))
    contradiction
  | @reset j _ _ hheld _ _ hj' =>
    obtain rfl : j = i := hown.eq_of_heldBy hheld
    obtain ⟨answer, hj'⟩ := hj'
    exact absurd (hj'.symm.trans ht) (by simp)

/-- A step in which an operation goes on, seen from a submission at work on the nonce. -/
theorem workMove_of_put (hs : s.NonceGuarded) (h : s.step? setup a = some (t, seen))
    (hst : s.stage? i = some (.submitting sub)) (hholds : sub.stage.holdsNonce = true)
    {j : OperationId} {st st' : Operation.Stage κ} (hj : s.stage? j = some st)
    (ht : t.operations = put s.operations j st')
    (hself : j = i → st = .submitting sub → WorkMove s i sub a t) : WorkMove s i sub a t := by
  by_cases hji : j = i
  · subst hji
    exact hself rfl (Option.some.inj (hj.symm.trans hst))
  · have hst' := (stage?_put_of_ne ht hji).trans hst
    exact .still hst' (nonce_of_works hs h hst hholds hst')

theorem workMove_of_operationStep (hs : s.NonceGuarded) (h : s.step? setup a = some (t, seen))
    (hstep : OperationStep setup s a (t, seen)) (hst : s.stage? i = some (.submitting sub))
    (hholds : sub.stage.holdsNonce = true) : WorkMove s i sub a t := by
  have hput {j : OperationId} {st st' : Operation.Stage κ} (hj : s.stage? j = some st)
      (ht : t.operations = put s.operations j st')
      (hself : j = i → st = .submitting sub → WorkMove s i sub a t) : WorkMove s i sub a t :=
    workMove_of_put hs h hst hholds hj ht hself
  have happend {r : Request κ} {st : Operation.Stage κ}
      (ht : t.operations = s.operations ++ [⟨r, st⟩]) : WorkMove s i sub a t := by
    have hst' : t.stage? i = some (.submitting sub) := by
      rw [stage?_of_append ht, if_neg (Nat.ne_of_lt (lt_length_of_stage? hst)), hst]
    exact .still hst' (nonce_of_works hs h hst hholds hst')
  -- An operation in another stage is another one.
  have hidle {j : OperationId} {sub' : Submission κ} {st' : Operation.Stage κ}
      (hj : s.stage? j = some (.submitting sub')) (hidle : sub'.stage.holdsNonce = false)
      (ht : t.operations = put s.operations j st') : WorkMove s i sub a t := by
    refine hput hj ht fun _ hsub => ?_
    obtain rfl := Operation.Stage.submitting.inj hsub
    rw [hidle] at hholds
    contradiction
  have hrefuse {j : OperationId} {sub' : Submission κ} {e : DeliveryError} {n : NonceState}
      {lock : FairLock OperationId} {m : Metrics} (hj : s.stage? j = some (.submitting sub'))
      (href : Submission.Refusal s j sub' a e n lock m seen)
      (ht : t.operations = put s.operations j (.ended (.failed e))) (hn : t.nonce = n) :
      WorkMove s i sub a t := by
    cases href with
    | price hs' | gas hs' | broadcast hs' | forgotten hs' => exact hidle hj (by rw [hs']; rfl) ht
    | nonce hs' =>
      refine hput hj ht fun hji hsub => ?_
      obtain rfl := hji
      obtain rfl := Operation.Stage.submitting.inj hsub
      exact .fetchFailed rfl hs' (stage?_put_self ht hj) hn
    | sign hs' =>
      refine hput hj ht fun hji hsub => ?_
      obtain rfl := hji
      obtain rfl := Operation.Stage.submitting.inj hsub
      exact .signFailed rfl hs' (stage?_put_self ht hj) hn
  cases hstep with
  | submit | enter | estimate | replace | forget => exact happend rfl
  | duplicate hj | mark hj | read hj | enqueue hj | forgotten hj =>
    exact hput hj rfl fun _ hsub => by contradiction
  | escalate hj | dropWaiting hj => exact hput hj rfl fun _ hsub => by contradiction
  | answer hj hs' =>
    refine hput hj rfl fun _ hsub => ?_
    rcases hs' with rfl | ⟨e, rfl⟩ <;> contradiction
  | fetch hj hs' | sign hj hs' | price hj hs' | gas hj hs' | tooLow hj hs' =>
    exact hidle hj (by rw [hs']; rfl) rfl
  | launchDetached hj hs' | launchAttached hj hs' | launchQueued hj hs' =>
    exact hidle hj (by rw [hs']; rfl) rfl
  | nonce hj hs' =>
    refine hput hj rfl fun hji hsub => ?_
    obtain rfl := hji
    obtain rfl := Operation.Stage.submitting.inj hsub
    exact .answered rfl hs' (stage?_put_self rfl hj) rfl
  | signed hj hs' =>
    refine hput hj rfl fun hji hsub => ?_
    obtain rfl := hji
    obtain rfl := Operation.Stage.submitting.inj hsub
    exact .signed rfl hs' (stage?_put_self rfl hj) rfl
  | refuse hj _ href | refuseQueued hj _ href => exact hrefuse hj href rfl rfl
  | drop hj =>
    refine hput hj rfl fun hji _ => ?_
    obtain rfl := hji
    exact .dropped rfl (stage?_put_self rfl hj) rfl

/-- **Every step, seen from a submission at work on the nonce**, is one of the six kinds. -/
theorem workMove_of_step? (hs : s.NonceGuarded) (howned : s.Owned)
    (h : s.step? setup a = some (t, seen)) (hst : s.stage? i = some (.submitting sub))
    (hholds : sub.stage.holdsNonce = true) : WorkMove s i sub a t := by
  have hsame (hops : t.operations = s.operations) : WorkMove s i sub a t := by
    have hst' : t.stage? i = some (.submitting sub) := by rw [stage?, hops, ← stage?, hst]
    exact .still hst' (nonce_of_works hs h hst hholds hst')
  cases operationsMove_of_step? h with
  | operation hstep => exact workMove_of_operationStep hs h hstep hst hholds
  | still ht => exact hsame ht
  | handed hx hends howner ht =>
    have hj := howned.owner_of_isOpen hx hends.isOpen _ howner
    exact workMove_of_put hs h hst hholds hj ht fun _ hsub => by contradiction

/-! ### One submission with the lock -/

variable {w : Answers} {cache : NonceState}

/-- Whether what an operation is told in a step is what `w` answers. -/
def Transition.Tells (setup : Setup κ) (w : Answers) (i : OperationId) (e : Transition κ) : Prop :=
  ∀ reply, e.action = .reply (.operation i) reply →
    (e.before.pending? setup (.operation i)).bind w.reply? = some reply

/-- **How far the nonce has been handed out to a submission** that found `cache` when it went on
with the lock. -/
inductive Allocates (setup : Setup κ) (w : Answers) (i : OperationId) (sub : Submission κ)
    (cache : NonceState) (t : Service κ) : Prop where
  /-- The chain is asked. -/
  | fetching (ht : t.stage? i = some (.submitting { sub with stage := .fetching }))
      (hn : t.nonce = cache) (hcache : cache = .unknown)
  /-- The signer is at work. -/
  | signing {n : Nonce} (ht : t.stage? i = some (.submitting { sub with stage := .signing n }))
      (hn : t.nonce = cache) (hcandidate : cache.candidate (w.nonce setup.address) = .ok n)
  /-- The nonce is handed out. -/
  | done {signed : SignedTx} {deadline : Nat}
      (ht : t.stage? i = some (.submitting { sub with stage := .broadcasting signed deadline }))
      (h : w.allocate setup.address cache sub.tx = (.ok signed, t.nonce))
  /-- The nonce is not handed out. -/
  | failed {e : ChainError} {err : DeliveryError} (herr : err = .nonce e ∨ err = .sign e)
      (ht : t.stage? i = some (.ended (.failed err)))
      (h : w.allocate setup.address cache sub.tx = (.error e, t.nonce))
  /-- The submission was dropped before it came to that. -/
  | dropped (ht : t.stage? i = some .dropped) (hn : t.nonce = cache)

/-- **A submission that goes on with the lock** asks the chain, or takes the nonce after the
last. -/
theorem allocates_of_resume (hst : s.stage? i = some (.submitting sub)) (hs : sub.stage = .queued)
    (h : s.step? setup (.resume i) = some (t, seen)) :
    (.called (.operation i) (.nonce setup.address) ∈ seen ↔ s.nonce.asksChain = true) ∧
      Allocates setup w i sub s.nonce t := by
  have hresume : s.resume? setup i = some (t, seen) := h
  rw [resume?_of_submitting hst] at hresume
  replace hresume := (Option.ite_none_right_eq_some.mp hresume).2
  have hself (st : Operation.Stage κ) : (s.setOperation i st).stage? i = some st :=
    stage?_put_self rfl hst
  simp only [resumeSubmission, hs] at hresume
  cases hn : s.nonce with
  | unknown =>
    simp only [hn, NonceState.candidate?, Option.some.injEq, Prod.mk.injEq] at hresume
    obtain ⟨rfl, rfl⟩ := hresume
    exact ⟨by simp [NonceState.asksChain, NonceState.candidate?], .fetching (hself _) hn rfl⟩
  | known last =>
    simp only [hn, NonceState.candidate?, Option.some.injEq, signWith, Prod.mk.injEq] at hresume
    obtain ⟨rfl, rfl⟩ := hresume
    exact ⟨by simp [NonceState.asksChain, NonceState.candidate?],
      .signing (hself _) hn NonceState.candidate_known⟩

omit [DecidableEq κ] in
/-- What an operation is told is what `w` answers to what it asks. -/
theorem Transition.Tells.reply? {e : Transition κ} {reply : Reply} {call : Call}
    (h : e.Tells setup w i) (ha : e.action = .reply (.operation i) reply)
    (hcall : e.before.pending? setup (.operation i) = some call) :
    w.reply? call = some reply := by
  have hreply := h reply ha
  rwa [hcall, Option.bind_some] at hreply

/-- **The nonce is handed out step by step**, as long as the submission is at work on it. -/
theorem Allocates.step {e : Transition κ} (hs : e.before.NonceGuarded) (howned : e.before.Owned)
    (h : Allocates setup w i sub cache e.before)
    (hstep : e.before.step? setup e.action = some (e.after, e.seen))
    (hworks : e.before.WorksOnNonce i) (htells : e.Tells setup w i) :
    Allocates setup w i sub cache e.after := by
  obtain ⟨sub', hst, hholds⟩ := hworks
  have hmove := workMove_of_step? hs howned hstep hst hholds
  have hcall : e.before.pending? setup (.operation i) = _ := pending?_of_submitting hst
  cases h with
  | fetching ht hn hcache =>
    obtain rfl := Operation.Stage.submitting.inj (Option.some.inj (ht.symm.trans hst))
    cases hmove with
    | still ht' hn' => exact .fetching ht' (hn'.trans hn) hcache
    | @answered n ha _ ht' hn' =>
      obtain ⟨m, hm, heq⟩ | ⟨_, -, heq⟩ := Reply.of_ofExcept (htells.reply? ha hcall)
      · obtain rfl := Reply.nonce.inj heq
        exact .signing ht' (hn'.trans hn) (by rw [hcache]; exact hm)
      · contradiction
    | @fetchFailed e' ha _ ht' hn' =>
      obtain ⟨m, -, heq⟩ | ⟨_, he, heq⟩ := Reply.of_ofExcept (htells.reply? ha hcall)
      · contradiction
      · obtain rfl := Reply.failed.inj heq
        refine .failed (.inl rfl) ht' ?_
        rw [hn', hn, hcache]
        exact NonceState.allocate_of_candidate_error he
    | signed _ hs' | signFailed _ hs' => contradiction
    | dropped _ ht' hn' => exact .dropped ht' (hn'.trans hn)
  | @signing n ht hn hcandidate =>
    obtain rfl := Operation.Stage.submitting.inj (Option.some.inj (ht.symm.trans hst))
    cases hmove with
    | still ht' hn' => exact .signing ht' (hn'.trans hn) hcandidate
    | answered _ hs' | fetchFailed _ hs' => contradiction
    | @signed n' signed deadline ha hs' ht' hn' =>
      obtain rfl : n = n' := by simpa using hs'
      obtain ⟨_, hsigned, heq⟩ | ⟨_, -, heq⟩ := Reply.of_ofExcept (htells.reply? ha hcall)
      · obtain rfl := Reply.signed.inj heq
        refine .done ht' ?_
        rw [hn']
        exact NonceState.allocate_of_work_ok hcandidate hsigned
      · contradiction
    | @signFailed n' e' ha hs' ht' hn' =>
      obtain ⟨_, -, heq⟩ | ⟨_, he, heq⟩ := Reply.of_ofExcept (htells.reply? ha hcall)
      · contradiction
      · obtain rfl := Reply.failed.inj heq
        refine .failed (.inr rfl) ht' ?_
        rw [hn', hn]
        exact NonceState.allocate_of_work_error hcandidate he
    | dropped _ ht' hn' => exact .dropped ht' (hn'.trans hn)
  | done ht =>
    obtain rfl := Operation.Stage.submitting.inj (Option.some.inj (ht.symm.trans hst))
    contradiction
  | failed _ ht | dropped ht => exact absurd (ht.symm.trans hst) (by simp)

/-- **Handing out a nonce comes to `TxDelivery.NonceState.allocate`.** At some moment of a run a
submission goes on with the nonce lock. Then

* it asks the chain exactly if `TxDelivery.NonceState.asksChain` says so, and
* as long as it is at work on the nonce, and is told what `w` answers, nobody else changes what is
  known of the nonce; once it is not, its end and what is known of the nonce are what
  `TxDelivery.NonceState.allocate` gives for these answers, or its caller dropped it and the nonce
  is as it was. -/
theorem History.allocates {pre : List (Transition κ)} {u : Service κ}
    (hpre : History setup .start pre s) (hst : s.stage? i = some (.submitting sub))
    (hs : sub.stage = .queued) (hresume : s.step? setup (.resume i) = some (t, seen))
    (h : History setup t tr u) (hworks : ∀ e ∈ tr, e.before.WorksOnNonce i)
    (htells : ∀ e ∈ tr, e.Tells setup w i) :
    (.called (.operation i) (.nonce setup.address) ∈ seen ↔ s.nonce.asksChain = true) ∧
      Allocates setup w i sub s.nonce u := by
  obtain ⟨hasks, hfirst⟩ := allocates_of_resume hst hs hresume
  refine ⟨hasks, ?_⟩
  induction h with
  | nil => exact hfirst
  | @snoc tr v u a seen' h hstep ih =>
    have hbefore : History setup .start _ v := (hpre.snoc hresume).append h
    have hv : Allocates setup w i sub s.nonce v :=
      ih (fun e he => hworks e (List.mem_append_left _ he))
        (fun e he => htells e (List.mem_append_left _ he)) hfirst
    have hlast : (⟨v, a, seen', u⟩ : Transition κ) ∈ tr ++ [⟨v, a, seen', u⟩] := by simp
    exact Allocates.step hbefore.nonceGuarded hbefore.owned hv hstep (hworks _ hlast)
      (htells _ hlast)

/-! ### Several submissions between two resets -/

/-- **What is committed between two resets** is what so many callers get one after another, and so
is what is known of the nonce afterwards. -/
theorem History.commits_eq_allocateMany {pre mid : List (Transition κ)}
    (h : History setup .start pre t) (hmid : History setup t mid s)
    (hpre : ∀ e, pre.getLast? = some e → e.IsReset) (hresets : ∀ e ∈ mid, ¬ e.IsReset) {m : Nonce}
    (hfirst : (commits mid).head? = some (i, m)) :
    ((commits mid).map fun c => .ok c.2, s.nonce) =
      NonceState.allocateMany (.ok m : Except ChainError Nonce) (commits mid).length .unknown := by
  obtain ⟨hnum, -⟩ := hmid.numbered h.nonceGuarded (h.fresh hpre) hresets
  cases hnum with
  | nothing hcommits =>
    rw [hcommits] at hfirst
    contradiction
  | @counting i' m' k hcommits hfirst' _ hnonce =>
    obtain ⟨rfl, rfl⟩ : i' = i ∧ m' = m := by simpa using hfirst'.symm.trans hfirst
    have hlen : (commits mid).length = k + 1 := by
      simpa [consecutive] using congrArg List.length hcommits
    rw [hlen, NonceState.allocateMany_unknown, ← hcommits, hnonce, List.map_map]
    rfl

/-- Whether the chain is asked for the nonce in a step. -/
def Transition.fetches (e : Transition κ) : Bool := e.seen.any fun
  | .called _ (.nonce _) => true
  | _ => false

/-- **How often the chain was asked for the nonce** in a run. -/
def fetchCount (tr : List (Transition κ)) : Nat := tr.countP Transition.fetches

/-- **How often the chain was asked since the last reset**, if nobody at work on the nonce failed or
was dropped. -/
inductive FetchedOnce (tr : List (Transition κ)) (s : Service κ) : Prop where
  /-- Nobody needed the nonce yet. -/
  | never (hcount : fetchCount tr = 0) (hfresh : s.Fresh)
  /-- Who asked is at work on the nonce. -/
  | works {i : OperationId} (hcount : fetchCount tr = 1) (hworks : s.WorksOnNonce i)
  /-- The nonce is known. -/
  | known {n : Nonce} (hcount : fetchCount tr = 1) (hnonce : s.nonce = .known n)

omit [DecidableEq κ] in
theorem Transition.fetches_iff {e : Transition κ} :
    e.fetches = true ↔ ∃ party account, .called party (.nonce account) ∈ e.seen := by
  rw [fetches, List.any_eq_true]
  constructor
  · rintro ⟨o, ho, hasks⟩
    split at hasks
    case h_1 party account => exact ⟨party, account, ho⟩
    case h_2 => contradiction
  · rintro ⟨party, account, ho⟩
    exact ⟨_, ho, rfl⟩

omit [DecidableEq κ] in
theorem fetchCount_concat (tr : List (Transition κ)) (e : Transition κ) :
    fetchCount (tr ++ [e]) = fetchCount tr + if e.fetches then 1 else 0 := by
  rw [fetchCount, List.countP_append, List.countP_singleton, fetchCount]

omit [DecidableEq κ] in
/-- A step in which nobody asks. -/
theorem fetchCount_of_quiet {e : Transition κ}
    (h : ∀ party account, .called party (.nonce account) ∉ e.seen) :
    fetchCount (tr ++ [e]) = fetchCount tr := by
  have hquiet : ¬ e.fetches = true := by
    rw [Transition.fetches_iff]
    rintro ⟨party, account, ho⟩
    exact h party account ho
  rw [fetchCount_concat, if_neg hquiet, Nat.add_zero]

/-- **One step since the last reset**, in which nobody at work on the nonce fails. -/
theorem FetchedOnce.step (hs : s.NonceGuarded) (howned : s.Owned) (h : FetchedOnce tr s)
    (hstep : s.step? setup a = some (t, seen)) (hreset : ¬ s.Resets a)
    (hkeep : ∀ i, s.WorksOnNonce i → ¬ Transition.Fails ⟨s, a, seen, t⟩ i) :
    FetchedOnce (tr ++ [⟨s, a, seen, t⟩]) t := by
  cases h with
  | never hcount hfresh =>
    have hidle {i : OperationId} {sub : Submission κ} (hst : s.stage? i = some (.submitting sub))
        (hholds : sub.stage.holdsNonce = true) : False := by
      rw [hfresh.idle i sub hst] at hholds
      contradiction
    cases nonceMove_of_step? hstep with
    | still hn _ _ hquiet hold =>
      refine .never ((fetchCount_of_quiet hquiet).trans hcount) ⟨hn.trans hfresh.nonce, ?_⟩
      intro i sub ht
      refine Bool.eq_false_iff.mpr fun hholds => ?_
      exact hidle (hold i sub ht hholds).1 hholds
    | @fetch i sub _ _ _ _ _ _ _ hseen ht =>
      have hasks : (⟨s, a, seen, t⟩ : Transition κ).fetches = true :=
        Transition.fetches_iff.mpr ⟨.operation i, setup.address, by simp [hseen]⟩
      exact .works (by rw [fetchCount_concat, hcount, if_pos hasks]) ⟨_, ht, rfl⟩
    | take _ _ _ _ hknown => exact absurd (hfresh.nonce.symm.trans hknown) (by simp)
    | answered _ hst hs' | commit _ hst hs' => exact (hidle hst (by rw [hs']; rfl)).elim
    | reset hreset' => exact absurd hreset' hreset
  | @works i hcount hworks =>
    obtain ⟨sub, hst, hholds⟩ := id hworks
    -- Who asks has the lock, which is the submission's, and the submission asks for nothing.
    have hquiet (party : Party) (account : Address) : .called party (.nonce account) ∉ seen := by
      intro hmem
      obtain ⟨j, sub', -, hst', hs', hheld, -⟩ := fetches_of_asked hstep hmem
      obtain rfl := (hs.ownedBy hst hholds).eq_of_heldBy hheld
      obtain rfl := Operation.Stage.submitting.inj (Option.some.inj (hst'.symm.trans hst))
      rw [hs'] at hholds
      contradiction
    have hcount' : fetchCount (tr ++ [⟨s, a, seen, t⟩]) = 1 :=
      (fetchCount_of_quiet hquiet).trans hcount
    cases workMove_of_step? hs howned hstep hst hholds with
    | still ht => exact .works hcount' ⟨sub, ht, hholds⟩
    | answered _ _ ht => exact .works hcount' ⟨_, ht, rfl⟩
    | signed _ _ _ hn => exact .known hcount' hn
    | fetchFailed ha | signFailed ha => exact absurd (.inr ⟨_, ha⟩) (hkeep i hworks)
    | dropped ha => exact absurd (.inl ha) (hkeep i hworks)
  | @known n hcount hnonce =>
    have hquiet (party : Party) (account : Address) : .called party (.nonce account) ∉ seen := by
      intro hmem
      obtain ⟨_, _, -, -, -, -, hunknown⟩ := fetches_of_asked hstep hmem
      exact absurd (hnonce.symm.trans hunknown) (by simp)
    have hcount' : fetchCount (tr ++ [⟨s, a, seen, t⟩]) = 1 :=
      (fetchCount_of_quiet hquiet).trans hcount
    cases nonceMove_of_step? hstep with
    | still hn | fetch _ _ _ _ _ hn | take _ _ _ _ _ hn | answered _ _ _ hn =>
      exact .known hcount' (hn.trans hnonce)
    | commit _ _ _ hn => exact .known hcount' hn
    | reset hreset' => exact absurd hreset' hreset

/-- Since the last reset the chain was asked once at most. -/
theorem History.fetchedOnce {mid : List (Transition κ)} (hmid : History setup t mid s)
    (ht : t.NonceGuarded) (howned : t.Owned) (hfresh : t.Fresh) (hresets : ∀ e ∈ mid, ¬ e.IsReset)
    (hkeep : ∀ e ∈ mid, ∀ i, e.before.WorksOnNonce i → ¬ e.Fails i) :
    FetchedOnce mid s ∧ s.NonceGuarded ∧ s.Owned := by
  induction hmid with
  | nil => exact ⟨.never rfl hfresh, ht, howned⟩
  | @snoc mid u v a seen hmid hstep ih =>
    have hlast : (⟨u, a, seen, v⟩ : Transition κ) ∈ mid ++ [⟨u, a, seen, v⟩] := by simp
    obtain ⟨honce, hu, huowned⟩ := ih (fun e he => hresets e (List.mem_append_left _ he))
      fun e he => hkeep e (List.mem_append_left _ he)
    exact ⟨honce.step hu huowned hstep (hresets _ hlast) (hkeep _ hlast), hu.step hstep,
      huowned.step hstep⟩

/-- **The chain is asked once between two resets**, as `TxDelivery.NonceState.fetches` says, if
something is committed and nobody at work on the nonce fails or is dropped. -/
theorem History.fetchCount_eq_fetches {pre mid : List (Transition κ)}
    (h : History setup .start pre t) (hmid : History setup t mid s)
    (hpre : ∀ e, pre.getLast? = some e → e.IsReset) (hresets : ∀ e ∈ mid, ¬ e.IsReset)
    (hkeep : ∀ e ∈ mid, ∀ i, e.before.WorksOnNonce i → ¬ e.Fails i) {m : Nonce}
    (hfirst : (commits mid).head? = some (i, m)) :
    fetchCount mid =
      NonceState.fetches (.ok m : Except ChainError Nonce) (commits mid).length .unknown := by
  obtain ⟨k, hlen⟩ : ∃ k, (commits mid).length = k + 1 := by
    obtain ⟨cs, hcs⟩ := List.head?_eq_some_iff.mp hfirst
    exact ⟨cs.length, by rw [hcs, List.length_cons]⟩
  rw [hlen, NonceState.fetches_unknown]
  obtain ⟨honce, -⟩ := hmid.fetchedOnce h.nonceGuarded h.owned (h.fresh hpre) hresets hkeep
  cases honce with
  | works hcount | known hcount => exact hcount
  | never _ hfresh =>
    -- What was committed is known.
    have hcommits := congrArg Prod.snd (h.commits_eq_allocateMany hmid hpre hresets hfirst)
    rw [hlen, NonceState.allocateMany_unknown, hfresh.nonce] at hcommits
    contradiction

end Service

end TxDelivery
