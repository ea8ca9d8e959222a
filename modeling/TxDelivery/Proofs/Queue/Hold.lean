import TxDelivery.Proofs.Delivery.Life
import TxDelivery.Proofs.FairLock

/-!
# Holding a key

A send through the queue that makes a first broadcast holds its key, and the status the key gets
back if the broadcast fails (`TxDelivery.Service.holding?`). Operations change the statuses by
taking hold of a key, by letting go of it again, and by setting a status as a caller asked; there
are six ways (`TxDelivery.Service.StatusMove`).

**Whoever holds a key has the status lock** (`TxDelivery.Service.History.statusGuarded`), so that
one key is held at a time and nobody reads a status meanwhile.

The status that a key is to get back is kept with the send, not in the table. So the table alone
does not tell what is going on: a key that is pending there may be one that will have been new all
along. What makes this harmless is that nobody can look. Who holds a key is therefore made into
something that can be asked of a state, without a list of its own: it is read off the stages of the
operations, and changes with them (`TxDelivery.Service.holding?_of_put`).

## The invariant

It says of the lock whom it belongs to and of its line who wants it how
(`TxDelivery.Service.StatusGuarded`). The second is there for the first: an operation whose request
is to write wants the lock for itself, and is its only owner when it has it. Nothing else in the
line is of interest; who waits in it, and in which order, is about everybody's progress and not
about keys.

A step changes what one operation holds, and for the others only the lock may have changed. It is
entered by those who come last and left by those who hold nothing, and neither takes it away from
its owner (`TxDelivery.Service.ownedBy_leave_of_holding?`). The end of a delivery might free an
operation, but that one waited for the delivery, past the queue, and holds no key
(`TxDelivery.Service.holding?_of_deliveryStep`).
-/

namespace TxDelivery

variable {κ : Type}

/-- The key that an operation in a stage holds, and the status the key had before. -/
def Operation.Stage.holding? : Operation.Stage κ → Option (κ × TxStatus)
  | .submitting sub =>
    match sub.origin with
    | .queue key previous => some (key, previous)
    | .detached | .attached => none
  | _ => none

theorem Operation.Stage.holding?_submitting {sub : Submission κ} {key : κ} {previous : TxStatus}
    (h : sub.origin = .queue key previous) :
    (Operation.Stage.submitting sub).holding? = some (key, previous) := by
  simp only [holding?, h]

/-- Who holds a key submits for it. -/
theorem Operation.Stage.submitting_of_holding? {st : Operation.Stage κ} {key : κ}
    {previous : TxStatus} (h : st.holding? = some (key, previous)) :
    ∃ sub, st = .submitting sub ∧ sub.origin = .queue key previous := by
  cases st with
  | submitting sub =>
    cases horigin : sub.origin <;> simp only [holding?, horigin] at h
    case queue key' previous' =>
      obtain ⟨rfl, rfl⟩ : key' = key ∧ previous' = previous := by simpa using h
      exact ⟨sub, rfl, horigin⟩
    all_goals contradiction
  | _ => contradiction

/-- Whether an operation is on its way past the queue: its first broadcast is made for a caller, or
the caller waits for the delivery. -/
def Operation.Stage.isDirect : Operation.Stage κ → Bool
  | .submitting sub =>
    match sub.origin with
    | .queue _ _ => false
    | .detached | .attached => true
  | .supervising _ => true
  | _ => false

namespace Service

open Operation

/-- **The key an operation holds**, and the status the key had before. -/
def holding? (s : Service κ) (i : OperationId) : Option (κ × TxStatus) :=
  (s.stage? i).bind Stage.holding?

variable {s t : Service κ} {i j : OperationId} {r : Request κ} {st st' : Operation.Stage κ}

theorem holding?_eq (hst : s.stage? i = some st) : s.holding? i = st.holding? := by
  rw [holding?, hst, Option.bind_some]

/-- What is held once an operation was put into a stage. -/
theorem holding?_of_put (hst : s.stage? i = some st)
    (ht : t.operations = put s.operations i st') (j : OperationId) :
    t.holding? j = if i = j then st'.holding? else s.holding? j := by
  by_cases hij : i = j
  · subst hij
    rw [if_pos rfl, holding?_eq (stage?_put_self ht hst)]
  · rw [if_neg hij, holding?, stage?_put_of_ne ht hij, ← holding?]

/-- An operation that goes on and holds what it held. -/
theorem holding?_put_eq (hst : s.stage? i = some st) (ht : t.operations = put s.operations i st')
    (hsame : st'.holding? = st.holding?) (j : OperationId) : t.holding? j = s.holding? j := by
  rw [holding?_of_put hst ht]
  split
  case isTrue hij => rw [hsame, ← hij, holding?_eq hst]
  case isFalse => rfl

/-- An operation that begins holds nothing. -/
theorem holding?_append_eq (ht : t.operations = s.operations ++ [⟨r, st⟩])
    (hnone : st.holding? = none) (j : OperationId) : t.holding? j = s.holding? j := by
  rw [holding?, stage?_of_append ht]
  split
  case isTrue hj => rw [Option.bind_some, hnone, holding?, hj, stage?_length, Option.bind_none]
  case isFalse => rfl

variable [DecidableEq κ]

/-- **What a step of an operation does to the statuses.** -/
inductive StatusMove (setup : Setup κ) (s : Service κ) (a : Action κ) (t : Service κ) : Prop where
  /-- Nothing; whoever holds a key keeps it and the status lock. -/
  | still (hold : ∀ j, t.holding? j = s.holding? j)
      (hlock : ∀ j, s.holding? j ≠ none → s.statusLock.OwnedBy (.operation j) →
        t.statusLock.OwnedBy (.operation j))
      (hstatuses : t.statuses = s.statuses)
      (hdeliveries : t.deliveries = s.deliveries ∨
        ∃ i st, s.stage? i = some st ∧ st.isDirect = true)
  /-- The status of a key is set, as a caller asked. -/
  | marked {i : OperationId} {tx : Transaction} {status : TxStatus} (ha : a = .resume i)
      (hr : s.request? i = some (.mark tx status)) (hst : s.stage? i = some .entering)
      (hheld : s.statusLock.heldBy (.operation i) = true)
      (hold : ∀ j, t.holding? j = s.holding? j)
      (hlock : t.statusLock = s.statusLock.leave (.operation i))
      (hstatuses : t.statuses = s.statuses.set (setup.keyOf tx) status)
      (hdeliveries : t.deliveries = s.deliveries)
  /-- A key is taken hold of, and becomes pending. -/
  | opens {i : OperationId} {tx : Transaction} {options : DeliveryOptions} (ha : a = .resume i)
      (hr : s.request? i = some (.enqueue tx options)) (hst : s.stage? i = some .entering)
      (hheld : s.statusLock.heldBy (.operation i) = true)
      (hprevious : s.statuses.get (setup.keyOf tx) = .notFound ∨
        s.statuses.get (setup.keyOf tx) = .error)
      (hold : ∀ j, t.holding? j =
        if i = j then some (setup.keyOf tx, s.statuses.get (setup.keyOf tx)) else s.holding? j)
      (hlock : t.statusLock = s.statusLock)
      (hstatuses : t.statuses = s.statuses.set (setup.keyOf tx) .pending)
      (hdeliveries : t.deliveries = s.deliveries)
  /-- The broadcast fails, and the key gets its status back. -/
  | refused {i : OperationId} {key : κ} {previous : TxStatus} {e : DeliveryError}
      (hi : s.holding? i = some (key, previous)) (ht : t.stage? i = some (.ended (.failed e)))
      (hold : ∀ j, t.holding? j = if i = j then none else s.holding? j)
      (hlock : t.statusLock = s.statusLock.leave (.operation i))
      (hstatuses : t.statuses = s.statuses.restore key previous)
      (hdeliveries : t.deliveries = s.deliveries)
  /-- The caller drops the send, and the key stays pending. -/
  | dropped {i : OperationId} {key : κ} {previous : TxStatus} (ha : a = .drop i)
      (hi : s.holding? i = some (key, previous)) (ht : t.stage? i = some .dropped)
      (hold : ∀ j, t.holding? j = if i = j then none else s.holding? j)
      (hlock : t.statusLock = s.statusLock.leave (.operation i))
      (hstatuses : t.statuses = s.statuses) (hdeliveries : t.deliveries = s.deliveries)
  /-- The broadcast is accepted, and a delivery starts for the key. -/
  | launched {i : OperationId} {sub : Submission κ} {key : κ} {previous : TxStatus}
      {signed : SignedTx} {deadline : Nat} {hash : Hash}
      (ha : a = .reply (.operation i) (.accepted hash)) (hst : s.stage? i = some (.submitting sub))
      (hs : sub.stage = .broadcasting signed deadline) (horigin : sub.origin = .queue key previous)
      (ht : t.stage? i = some (.ended (.enqueued (some signed.hash))))
      (hold : ∀ j, t.holding? j = if i = j then none else s.holding? j)
      (hlock : t.statusLock = s.statusLock.leave (.operation i))
      (hstatuses : t.statuses = s.statuses)
      (hdeliveries : t.deliveries =
        s.deliveries ++ [.start setup.config s.now none sub.options deadline signed])

variable {setup : Setup κ} {a : Action κ} {seen : List Observation}

omit [DecidableEq κ] in
/-- Others who leave the lock leave it to whoever holds a key. -/
theorem ownedBy_leave_of_holding? (hi : s.holding? i = none) (hj : s.holding? j ≠ none)
    (hown : s.statusLock.OwnedBy (.operation j)) :
    (s.statusLock.leave (.operation i)).OwnedBy (.operation j) := by
  refine hown.leave fun hij => hj ?_
  obtain rfl : j = i := Party.operation.inj hij
  exact hi

omit [DecidableEq κ] in
/-- A broadcast that is asked for without the queue holds no key. -/
theorem holding?_of_broadcast? {tx : Transaction} {options : DeliveryOptions} {origin : Origin κ}
    {sub : Submission κ} (hr : r.broadcast? = some (tx, options, origin))
    (hsub : sub.Begins setup origin tx options) : (Stage.submitting sub).holding? = none := by
  rw [Stage.holding?, hsub.origin_eq]
  cases r <;> simp only [Request.broadcast?, Option.some.injEq, Prod.mk.injEq] at hr <;>
    first | contradiction | rw [← hr.2.2]

/-- **Every step of an operation** is one of the six. -/
theorem statusMove_of_operationStep (h : OperationStep setup s a (t, seen)) :
    StatusMove setup s a t := by
  cases h with
  | submit hr hsub =>
    exact .still (holding?_append_eq rfl (holding?_of_broadcast? hr hsub)) (fun _ _ hown => hown)
      rfl (.inl rfl)
  | enter =>
    exact .still (holding?_append_eq rfl rfl) (fun _ _ hown => hown.enter) rfl (.inl rfl)
  | estimate | replace | forget =>
    exact .still (holding?_append_eq rfl rfl) (fun _ _ hown => hown) rfl (.inl rfl)
  | duplicate hst | read hst =>
    exact .still (holding?_put_eq hst rfl rfl)
      (fun _ hj hown => ownedBy_leave_of_holding? (holding?_eq hst) hj hown) rfl (.inl rfl)
  | mark hst hr hheld =>
    exact .marked rfl hr hst hheld (holding?_put_eq hst rfl rfl) rfl rfl rfl
  | @enqueue i tx options previous sub lock seen hst hr hheld hget hprevious hsub hopen =>
    subst hget
    refine .opens rfl hr hst hheld hprevious (fun j => ?_) rfl rfl rfl
    rw [holding?_of_put hst rfl, Operation.Stage.holding?_submitting hsub.origin_eq]
  | fetch hst | sign hst | nonce hst | signed hst | tooLow hst | gas hst =>
    exact .still (holding?_put_eq hst rfl rfl) (fun _ _ hown => hown) rfl (.inl rfl)
  | price hst _ hsub =>
    refine .still (holding?_put_eq hst rfl ?_) (fun _ _ hown => hown) rfl (.inl rfl)
    simp only [Operation.Stage.holding?]
    rw [hsub]
  | forgotten hst =>
    exact .still (holding?_put_eq hst rfl rfl) (fun _ _ hown => hown) rfl (.inl rfl)
  | answer hst hs' =>
    refine .still (holding?_put_eq hst rfl ?_) (fun _ _ hown => hown) rfl (.inl rfl)
    rcases hs' with rfl | ⟨e, rfl⟩ <;> rfl
  | escalate hst =>
    exact .still (holding?_put_eq hst rfl rfl) (fun _ _ hown => hown) rfl (.inl rfl)
  | refuse hst hother =>
    refine .still (holding?_put_eq hst rfl ?_) (fun _ _ hown => hown) rfl (.inl rfl)
    rcases hother with horigin | horigin <;> simp only [Operation.Stage.holding?, horigin]
  | launchDetached hst _ hother | launchAttached hst _ hother =>
    refine .still (holding?_put_eq hst rfl ?_) (fun _ _ hown => hown) rfl (.inr ⟨_, _, hst, ?_⟩)
    · simp only [Operation.Stage.holding?, hother]
    · simp only [Operation.Stage.isDirect, hother]
  | refuseQueued hst hqueue =>
    refine .refused ((holding?_eq hst).trans (Operation.Stage.holding?_submitting hqueue))
      (stage?_put_self rfl hst) (fun j => ?_) rfl rfl rfl
    rw [holding?_of_put hst rfl]
    rfl
  | launchQueued hst hs hqueue =>
    refine .launched rfl hst hs hqueue (stage?_put_self rfl hst) (fun j => ?_) rfl rfl rfl
    rw [holding?_of_put hst rfl]
    rfl
  | @drop i st hst =>
    cases hholding : st.holding? with
    | none =>
      exact .still (holding?_put_eq hst rfl (by rw [hholding]; rfl))
        (fun _ hj hown => ownedBy_leave_of_holding? ((holding?_eq hst).trans hholding) hj hown)
        rfl (.inl rfl)
    | some held =>
      obtain ⟨key, previous⟩ := held
      refine .dropped rfl ((holding?_eq hst).trans hholding) (stage?_put_self rfl hst)
        (fun j => ?_) rfl rfl rfl
      rw [holding?_of_put hst rfl]
      rfl
  | dropWaiting hst =>
    exact .still (holding?_put_eq hst rfl rfl)
      (fun _ hj hown => ownedBy_leave_of_holding? (holding?_eq hst) hj hown) rfl
      (.inr ⟨_, _, hst, rfl⟩)

/-! ### The status lock -/

/-- **Whoever holds a key has the status lock.** -/
structure StatusGuarded (s : Service κ) : Prop where
  /-- Operations want the lock as their requests say. -/
  wants : ∀ {i : OperationId} {access : Access}, s.statusLock.Wants (.operation i) access →
    (s.request? i).bind Request.access? = some access
  /-- Who holds a key has the lock. -/
  owned : ∀ {i : OperationId}, s.holding? i ≠ none → s.statusLock.OwnedBy (.operation i)

omit [DecidableEq κ] in
/-- **One key is held at a time.** -/
theorem StatusGuarded.unique (hs : s.StatusGuarded) (hi : s.holding? i ≠ none)
    (hj : s.holding? j ≠ none) : i = j :=
  Party.operation.inj ((hs.owned hi).unique (hs.owned hj))

omit [DecidableEq κ] in
/-- An operation that wants the status lock for itself, and holds it, is its owner. -/
theorem StatusGuarded.ownedBy (hs : s.StatusGuarded)
    (hr : (s.request? i).bind Request.access? = some .exclusive)
    (hheld : s.statusLock.heldBy (.operation i) = true) : s.statusLock.OwnedBy (.operation i) :=
  FairLock.ownedBy_of_mem_holders (FairLock.heldBy_iff.mp hheld) fun _ hw =>
    Option.some.inj ((hs.wants hw).symm.trans hr)

/-- The lock is wanted by those who wanted it, and by an operation that begins so. -/
theorem statusWants_of_step? (h : s.step? setup a = some (t, seen)) {access : Access}
    (hw : t.statusLock.Wants (.operation i) access) : s.statusLock.Wants (.operation i) access ∨
      (t.request? i).bind Request.access? = some access := by
  have hleave {party : Party} (hw : (s.statusLock.leave party).Wants (.operation i) access) :
      s.statusLock.Wants (.operation i) access := (FairLock.wants_leave.mp hw).1
  have hkeeper {b : BookkeeperId} {access' : Access}
      (hw : (s.statusLock.enter (.bookkeeper b) access').Wants (.operation i) access) :
      s.statusLock.Wants (.operation i) access := by
    rcases FairLock.wants_enter.mp hw with hw | ⟨hparty, -⟩
    · exact hw
    · contradiction
  cases step_of_step? h with
  | operation h =>
    cases h with
    | @enter r access' hr =>
      rcases FairLock.wants_enter.mp hw with hw | ⟨hparty, rfl⟩
      · exact .inl hw
      · obtain rfl : i = s.operations.length := Party.operation.inj hparty
        refine .inr ?_
        rw [request?_of_append rfl, if_pos rfl]
        exact hr
    | duplicate | mark | read | refuseQueued | launchQueued | drop | dropWaiting =>
      exact .inl (hleave hw)
    | _ => exact .inl hw
  | delivery h => cases h <;> exact .inl hw
  | bookkeeper h =>
    cases h with
    | takeConfirm | takeError => exact .inl (hkeeper hw)
    | mark => exact .inl (hleave hw)
    | start | stop => exact .inl hw
  | outside h => cases h <;> exact .inl hw

omit [DecidableEq κ] in
/-- The end of a delivery takes no key from anybody: whoever gets the outcome waited for it. -/
theorem holding?_of_deliveryStep (howned : s.Owned) (h : DeliveryStep setup s a (t, seen))
    (j : OperationId) : t.holding? j = s.holding? j := by
  cases h with
  | proceed => rfl
  | @conclude d x _ outcome hx hends =>
    rcases handOver_eq s.operations x.owner outcome with ⟨-, hops⟩ | ⟨i, howner, hops⟩
    · simp only [holding?, stage?, hops]
    · have hst := howned.owner_of_isOpen hx hends.isOpen i howner
      have hsame : (Stage.ended (.delivered outcome) : Stage κ).holding? =
          (Stage.supervising d).holding? := rfl
      exact holding?_put_eq hst hops hsame j

/-- **The status lock stays with whoever holds a key.** -/
theorem StatusGuarded.step (hs : s.StatusGuarded) (howned : s.Owned)
    (h : s.step? setup a = some (t, seen)) : t.StatusGuarded := by
  refine ⟨fun {i access} hw => ?_, fun {j} hj => ?_⟩
  -- Who wants the lock wants it as before, and who takes hold of a key has come to own it.
  · rcases statusWants_of_step? h hw with hw | hr
    · obtain ⟨r, hr, haccess⟩ := Option.bind_eq_some_iff.mp (hs.wants hw)
      rw [request?_of_step? h hr]
      exact haccess
    · exact hr
  · cases step_of_step? h with
    | operation h =>
      cases statusMove_of_operationStep h with
      | still hold hlock =>
        rw [hold] at hj
        exact hlock j hj (hs.owned hj)
      | @marked i tx status _ _ hst _ hold hlock =>
        rw [hold] at hj
        rw [hlock]
        exact ownedBy_leave_of_holding? (holding?_eq hst) hj (hs.owned hj)
      | @opens i tx options _ hr _ hheld _ hold hlock =>
        rw [hold] at hj
        rw [hlock]
        by_cases hij : i = j
        · subst hij
          exact hs.ownedBy (by rw [hr]; rfl) hheld
        · rw [if_neg hij] at hj
          exact hs.owned hj
      | @refused i _ _ _ hi _ hold | @dropped i _ _ _ hi _ hold =>
        rw [hold] at hj
        by_cases hij : i = j
        · rw [if_pos hij] at hj
          exact absurd rfl hj
        · rw [if_neg hij] at hj
          exact absurd (hs.unique (by rw [hi]; simp) hj) hij
      | @launched i sub _ _ _ _ _ _ hst _ horigin _ hold =>
        have hi := (holding?_eq hst).trans (Operation.Stage.holding?_submitting horigin)
        rw [hold] at hj
        by_cases hij : i = j
        · rw [if_pos hij] at hj
          exact absurd rfl hj
        · rw [if_neg hij] at hj
          exact absurd (hs.unique (by rw [hi]; simp) hj) hij
    | delivery h =>
      have hlock : t.statusLock = s.statusLock := by cases h <;> rfl
      rw [hlock]
      exact hs.owned (holding?_of_deliveryStep howned h j ▸ hj)
    | bookkeeper h =>
      cases h with
      | start | stop => exact hs.owned hj
      | takeConfirm | takeError => exact (hs.owned hj).enter
      | mark => exact (hs.owned hj).leave (by simp)
    | outside h => cases h <;> exact hs.owned hj

/-- **At every moment whoever holds a key has the status lock.** -/
theorem History.statusGuarded {tr : List (Transition κ)} (h : History setup .start tr s) :
    s.StatusGuarded := by
  induction h with
  | nil =>
    refine ⟨fun {i access} hw => ?_, fun {i} hi => ?_⟩
    · simp [FairLock.Wants, Service.start, FairLock.free] at hw
    · simp [Service.start, holding?, stage?] at hi
  | snoc h hstep ih => exact ih.step h.owned hstep

end Service

end TxDelivery
