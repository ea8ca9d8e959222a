import TxDelivery.Proofs.Delivery.OneOutcome
import TxDelivery.Proofs.Queue.Hold

/-!
# One send through the queue

A send through the queue waits for the status lock, takes hold of its key with the lock, and lets go
of both at once: with a refusal, with a delivery, or by being dropped
(`TxDelivery.Service.HolderMove`). A send whose key is under way or finished is over as soon as it
has the lock (`TxDelivery.Service.SendMove`).

**While a key is held nobody else gets to the statuses** (`TxDelivery.Service.Transition.Quiet`), to
read them (`TxDelivery.Service.History.not_reads`) or to write them, so that they are the ones the
send found but for its key, which is pending (`TxDelivery.Service.History.sendStory`).

## A story

What is to be said about a send is about an interval of the run, from the step in which it gets the
lock to the one in which it ends. An interval is not found in a state. So the invariant is about the
run as well: it is cut at the step with which the send got the lock, and says of everything since
then that the send held its key and that nobody else got to the statuses
(`TxDelivery.Service.HeldSince`). A send that still waits, or that is over, has no such step
(`TxDelivery.Service.SendStory`).

The induction follows the run step by step, and each of the three chapters has a table of its own: a
send that waits goes on waiting, is dropped, or goes on with the lock
(`TxDelivery.Service.WaitMove`); one that goes on with the lock is over or takes hold of its key;
and one that holds its key goes on holding it or lets go in one of the three ways. The first table
is for every operation that waits for the status lock, reader or writer, because it also says what
the others are doing meanwhile.

Nobody else gets to the statuses, because to do so one has to go on with the status lock, and the
lock belongs to whoever holds the key (`TxDelivery.Service.Transition.quiet_of_ownedBy`). Others may
still enter its line, and may be dropped while they wait.
-/

namespace TxDelivery

namespace Service

variable {κ : Type} [DecidableEq κ] {setup : Setup κ} {s t : Service κ} {a : Action κ}
  {seen : List Observation} {i j : OperationId} {key : κ} {previous : TxStatus}
  {tr : List (Transition κ)} {tx : Transaction} {options : DeliveryOptions} {r : Request κ}
  {e : Transition κ}

/-! ### Waiting for the status lock -/

/-- **A step seen from an operation that waits for the status lock.** -/
inductive WaitMove (s : Service κ) (i : OperationId) (a : Action κ) (t : Service κ) : Prop where
  /-- It goes on waiting. -/
  | waits (ht : t.stage? i = some .entering)
  /-- Its caller drops it. -/
  | dropped (ha : a = .drop i) (ht : t.stage? i = some .dropped)
  /-- It goes on with the lock. -/
  | entered (ha : a = .resume i) (hheld : s.statusLock.heldBy (.operation i) = true)

/-- Whoever waits for the status lock goes on once the lock is there, and not with a reply. -/
theorem heldBy_of_entering (h : s.step? setup a = some (t, seen))
    (hi : s.stage? i = some .entering)
    (ha : a = .resume i ∨ ∃ reply, a = .reply (.operation i) reply) :
    a = .resume i ∧ s.statusLock.heldBy (.operation i) = true := by
  have hother {st : Operation.Stage κ} (hst : s.stage? i = some st) : st = .entering :=
    Option.some.inj (hst.symm.trans hi)
  rcases ha with rfl | ⟨reply, rfl⟩
  · cases operationStep_of_resume? h with
    | duplicate _ _ hheld | enqueue _ _ hheld | mark _ _ hheld | read _ _ hheld =>
      exact ⟨rfl, hheld⟩
    | fetch hst | sign hst | forgotten hst => exact absurd (hother hst) (by simp)
    | refuse hst _ href | refuseQueued hst _ href =>
      cases href
      exact absurd (hother hst) (by simp)
  · cases operationStep_of_replyOperation? h with
    | price hst | gas hst | nonce hst | signed hst | tooLow hst | launchDetached hst
    | launchAttached hst | launchQueued hst | escalate hst =>
      exact absurd (hother hst) (by simp)
    | refuse hst _ href | refuseQueued hst _ href =>
      cases href <;> exact absurd (hother hst) (by simp)
    | answer hst hs =>
      obtain rfl := hother hst
      simp at hs

/-- **Every step, seen from an operation that waits for the status lock.** -/
theorem waitMove_of_step? (hs : s.Owned) (h : s.step? setup a = some (t, seen))
    (hi : s.stage? i = some .entering) : WaitMove s i a t := by
  cases operationMove_of_step? h (j := i) with
  | still ht => exact .waits (ht.trans hi)
  | begun hj =>
    rw [hj, stage?_length] at hi
    contradiction
  | moved ha =>
    obtain ⟨rfl, hheld⟩ := heldBy_of_entering h hi ha
    exact .entered rfl hheld
  | waits _ hst => simp [hi] at hst
  | delivered hx howner hends =>
    have hst := hs.owner_of_isOpen hx hends.isOpen i howner
    simp [hi] at hst
  | dropped ha _ _ _ ht => exact .dropped ha ht

/-- Whoever wants the status lock begins by waiting for it. -/
theorem entering_of_begin {access : Access} (hr : r.access? = some access)
    (h : s.step? setup (.begin r) = some (t, seen)) :
    t.stage? s.operations.length = some .entering := by
  have hstep : OperationStep setup s (.begin r) (t, seen) :=
    Option.some.inj h ▸ operationStep_of_begin r
  cases hstep with
  | submit hr' => cases r <;> simp [Request.broadcast?, Request.access?] at hr hr'
  | enter => rw [stage?_of_append rfl, if_pos rfl]
  | estimate | replace | forget => simp [Request.access?] at hr
  | refuse _ _ href | refuseQueued _ _ href => cases href

/-- **An operation that waited for the status lock goes on with it**, and has it for itself. -/
structure Transition.Takes (e : Transition κ) (i : OperationId) : Prop where
  /-- The operation goes on. -/
  action : e.action = .resume i
  /-- It had waited for the lock. -/
  waited : e.before.stage? i = some .entering
  /-- The lock is its own. -/
  owned : e.before.statusLock.OwnedBy (.operation i)

/-- **Nobody but one operation gets to the statuses in a step**: whoever else waits for the status
lock, to read or to write, goes on waiting unless its caller drops it. -/
structure Transition.Quiet (e : Transition κ) (i : OperationId) : Prop where
  /-- No other operation goes on with the lock. -/
  waits : ∀ j, j ≠ i → e.before.stage? j = some .entering →
    e.after.stage? j = some .entering ∨ e.after.stage? j = some .dropped
  /-- No bookkeeper does. -/
  unmarked : ∀ b, e.action ≠ .mark b

/-- **Whoever has the status lock for itself keeps the others away.** -/
theorem Transition.quiet_of_ownedBy (hs : s.Owned)
    (hown : s.statusLock.OwnedBy (.operation i)) (h : s.step? setup a = some (t, seen)) :
    Transition.Quiet ⟨s, a, seen, t⟩ i := by
  refine ⟨fun j hji hj => ?_, ?_⟩
  · cases waitMove_of_step? hs h hj with
    | waits ht => exact .inl ht
    | dropped _ ht => exact .inr ht
    | entered _ hheld => exact absurd (Party.operation.inj (hown.eq_of_heldBy hheld)) hji
  · rintro b rfl
    have hmark : BookkeeperStep setup s (.mark b) (t, seen) := bookkeeperStep_of_mark? h
    cases hmark with
    | mark _ _ hheld => exact absurd (hown.eq_of_heldBy hheld) (by simp)

/-! ### Reading -/

/-- **Somebody reads a status in a step.** -/
structure Transition.Reads (e : Transition κ) (j : OperationId) : Prop where
  /-- A status was asked for. -/
  request : ∃ key, e.before.request? j = some (.status key)
  /-- It is told. -/
  told : ∃ status, e.after.stage? j = some (.ended (.status status))
  /-- It had not been told before. -/
  untold : ∀ status, e.before.stage? j ≠ some (.ended (.status status))

/-- **A status is read with the lock**, and it is the one of that moment. -/
theorem stage?_of_read (h : s.step? setup (.resume i) = some (t, seen))
    (hi : s.stage? i = some .entering) (hr : s.request? i = some (.status key)) :
    t.stage? i = some (.ended (.status (s.statuses.get key))) := by
  have hother {st : Operation.Stage κ} (hst : s.stage? i = some st) : st = .entering :=
    Option.some.inj (hst.symm.trans hi)
  cases operationStep_of_resume? h with
  | read hst hr' =>
    obtain rfl := by simpa using hr'.symm.trans hr
    exact stage?_put_self rfl hst
  | duplicate _ hr' | enqueue _ hr' | mark _ hr' => simp [hr] at hr'
  | fetch hst | sign hst | forgotten hst => exact absurd (hother hst) (by simp)
  | refuse hst _ href | refuseQueued hst _ href =>
    cases href
    exact absurd (hother hst) (by simp)

/-- **A reader waits for the status lock until it is over.** -/
theorem History.reader (h : History setup .start tr s) (hr : s.request? i = some (.status key)) :
    s.stage? i = some .entering ∨
      ∃ st, s.stage? i = some st ∧ st.isActive = false ∧ ∀ d, st ≠ .supervising d := by
  induction h with
  | nil => simp [Service.start, request?] at hr
  | @snoc tr t u a seen h hstep ih =>
    cases hr' : t.request? i with
    | none =>
      obtain ⟨rfl, rfl⟩ := begin_of_request? hstep hr' hr
      exact .inl (entering_of_begin rfl hstep)
    | some r =>
      obtain rfl : r = .status key :=
        Option.some.inj ((request?_of_step? hstep hr').symm.trans hr)
      rcases ih hr' with hst | ⟨st, hst, hactive, hwait⟩
      · cases waitMove_of_step? h.owned hstep hst with
        | waits ht => exact .inl ht
        | dropped _ ht => exact .inr ⟨_, ht, rfl, by simp⟩
        | entered ha => exact .inr ⟨_, stage?_of_read (ha ▸ hstep) hst hr', rfl, by simp⟩
      · exact .inr ⟨st, stage?_of_ended h.owned hstep hst hactive hwait, hactive, hwait⟩

/-- **Nobody reads a status while a send keeps the others away.** -/
theorem History.not_reads (h : History setup .start tr s)
    (hr : s.request? i = some (.enqueue tx options)) (he : e ∈ tr) (hquiet : e.Quiet i)
    (j : OperationId) : ¬ e.Reads j := by
  rintro ⟨⟨key, hj⟩, ⟨status, htold⟩, huntold⟩
  obtain ⟨pre, post, rfl⟩ := List.append_of_mem he
  obtain ⟨hpre, hstep, hpost⟩ := h.around
  have hji : j ≠ i := by
    rintro rfl
    have hsame := ((History.single hstep).append hpost).request?_eq hj
    simp [hr] at hsame
  rcases hpre.reader hj with hst | ⟨st, hst, hactive, hwait⟩
  · rcases hquiet.waits j hji hst with ht | ht <;> simp [htold] at ht
  · rw [stage?_of_ended hpre.owned hstep hst hactive hwait] at htold
    exact huntold status (hst.trans htold)

/-! ### With the lock -/

/-- **What a send through the queue does with the status lock.** -/
inductive SendMove (s : Service κ) (i : OperationId) (key : κ) (t : Service κ) : Prop where
  /-- Nothing: the key is under way or finished. -/
  | unneeded (hstatus : s.statuses.get key = .pending ∨ s.statuses.get key = .finished)
      (ht : t.stage? i = some (.ended (.enqueued none))) (hstatuses : t.statuses = s.statuses)
  /-- It takes hold of the key, which becomes pending. -/
  | opened (hprevious : s.statuses.get key = .notFound ∨ s.statuses.get key = .error)
      (ht : t.holding? i = some (key, s.statuses.get key))
      (hstatuses : t.statuses = s.statuses.set key .pending)

/-- **A send through the queue that goes on with the status lock.** -/
theorem sendMove_of_resume (h : s.step? setup (.resume i) = some (t, seen))
    (hi : s.stage? i = some .entering) (hr : s.request? i = some (.enqueue tx options)) :
    SendMove s i (setup.keyOf tx) t := by
  have hother {st : Operation.Stage κ} (hst : s.stage? i = some st) : st = .entering :=
    Option.some.inj (hst.symm.trans hi)
  cases operationStep_of_resume? h with
  | duplicate hst hr' _ hdup =>
    obtain ⟨rfl, rfl⟩ := by simpa using hr'.symm.trans hr
    exact .unneeded (hdup.imp (·.1) (·.1)) (stage?_put_self rfl hst) rfl
  | enqueue hst hr' _ hget hprevious hsub =>
    obtain ⟨rfl, rfl⟩ := by simpa using hr'.symm.trans hr
    subst hget
    refine .opened hprevious ?_ rfl
    rw [holding?_of_put hst rfl, if_pos rfl]
    exact Operation.Stage.holding?_submitting hsub.origin_eq
  | mark _ hr' | read _ hr' => simp [hr] at hr'
  | fetch hst | sign hst | forgotten hst => exact absurd (hother hst) (by simp)
  | refuse hst _ href | refuseQueued hst _ href =>
    cases href
    exact absurd (hother hst) (by simp)

/-! ### Holding a key -/

/-- **A step seen from an operation that holds a key.** -/
inductive HolderMove (setup : Setup κ) (s : Service κ) (i : OperationId) (key : κ)
    (previous : TxStatus) (a : Action κ) (t : Service κ) : Prop where
  /-- It goes on holding the key, and the statuses stay as they are. -/
  | holds (ht : t.holding? i = some (key, previous)) (hstatuses : t.statuses = s.statuses)
  /-- It fails, and the key gets its status back. -/
  | refused {e : DeliveryError} (ht : t.stage? i = some (.ended (.failed e)))
      (hstatuses : t.statuses = s.statuses.restore key previous)
  /-- Its caller drops it, and the key stays as it is. -/
  | dropped (ha : a = .drop i) (ht : t.stage? i = some .dropped)
      (hstatuses : t.statuses = s.statuses)
  /-- Its broadcast is accepted, and a delivery starts. -/
  | launched {x : Delivery} {hash : Hash} (ha : a = .reply (.operation i) (.accepted hash))
      (hbroadcast : ∃ sub signed deadline, s.stage? i = some (.submitting sub) ∧
        sub.stage = .broadcasting signed deadline)
      (ht : t.stage? i = some (.ended (.enqueued (some x.current.hash))))
      (hdeliveries : t.deliveries = s.deliveries ++ [x]) (hopen : x.isOpen = true)
      (hstatuses : t.statuses = s.statuses)

/-- **Every step, seen from an operation that holds a key.** -/
theorem holderMove_of_step? (howned : s.Owned) (hs : s.StatusGuarded)
    (hi : s.holding? i = some (key, previous)) (h : s.step? setup a = some (t, seen)) :
    HolderMove setup s i key previous a t := by
  have hown : s.statusLock.OwnedBy (.operation i) := hs.owned (by simp [hi])
  -- Of the operations, the only one that holds a key is this one.
  have honly {j : OperationId} {key' : κ} {previous' : TxStatus}
      (hj : s.holding? j = some (key', previous')) : j = i ∧ key' = key ∧ previous' = previous := by
    obtain rfl : j = i := hs.unique (by simp [hj]) (by simp [hi])
    exact ⟨rfl, by simpa using hj.symm.trans hi⟩
  have hother {j : OperationId} (hj : s.stage? j = some .entering)
      (hheld : s.statusLock.heldBy (.operation j) = true) : False := by
    obtain rfl := Party.operation.inj (hown.eq_of_heldBy hheld)
    rw [holding?_eq hj] at hi
    contradiction
  have hquiet := (Transition.quiet_of_ownedBy howned hown h).unmarked
  cases step_of_step? h with
  | operation h =>
    cases statusMove_of_operationStep h with
    | still hold _ hstatuses => exact .holds ((hold i).trans hi) hstatuses
    | marked _ _ hst hheld | opens _ _ hst hheld => exact (hother hst hheld).elim
    | refused hj ht _ _ hstatuses =>
      obtain ⟨rfl, rfl, rfl⟩ := honly hj
      exact .refused ht hstatuses
    | dropped ha hj ht _ _ hstatuses =>
      obtain ⟨rfl, rfl, rfl⟩ := honly hj
      exact .dropped ha ht hstatuses
    | launched ha hst hstage horigin ht _ _ hstatuses hdeliveries =>
      obtain ⟨rfl, rfl, rfl⟩ :=
        honly ((holding?_eq hst).trans (Operation.Stage.holding?_submitting horigin))
      exact .launched ha ⟨_, _, _, hst, hstage⟩ ht hdeliveries rfl hstatuses
  | delivery h =>
    refine .holds ((holding?_of_deliveryStep howned h i).trans hi) ?_
    cases h <;> rfl
  | bookkeeper h =>
    cases h with
    | mark => exact absurd rfl (hquiet _)
    | start | takeConfirm | takeError | stop => exact .holds hi rfl
  | outside h => cases h <;> exact .holds hi rfl

/-- **A send holds its key** since the step that gave it the status lock. -/
structure HeldSince (i : OperationId) (key : κ) (e : Transition κ) (mid : List (Transition κ))
    (s : Service κ) : Prop where
  /-- The send got the lock. -/
  takes : e.Takes i
  /-- It found the key neither under way nor finished. -/
  previous : e.before.statuses.get key = .notFound ∨ e.before.statuses.get key = .error
  /-- It has held the key ever since. -/
  holds : s.holding? i = some (key, e.before.statuses.get key)
  /-- The statuses are the ones it found, but for the key. -/
  statuses : s.statuses = e.before.statuses.set key .pending
  /-- So they have been all the time. -/
  between : ∀ e' ∈ mid, e'.before.statuses = e.before.statuses.set key .pending
  /-- Nobody else got to them. -/
  quiet : ∀ e' ∈ e :: mid, e'.Quiet i

variable {mid : List (Transition κ)} {f : Transition κ}

/-- One step further nobody else has got to the statuses. -/
theorem HeldSince.quiet_concat (h : HeldSince i key e mid s) (hf : f.Quiet i) :
    ∀ e' ∈ e :: (mid ++ [f]), e'.Quiet i := by
  intro e' he'
  rw [← List.cons_append] at he'
  rcases List.mem_append.mp he' with he' | he'
  · exact h.quiet e' he'
  · obtain rfl := List.mem_singleton.mp he'
    exact hf

/-- One step further the statuses have been the same. -/
theorem HeldSince.between_concat (h : HeldSince i key e mid s) (hf : f.before = s) :
    ∀ e' ∈ mid ++ [f], e'.before.statuses = e.before.statuses.set key .pending := by
  intro e' he'
  rcases List.mem_append.mp he' with he' | he'
  · exact h.between e' he'
  · obtain rfl := List.mem_singleton.mp he'
    exact hf ▸ h.statuses

/-- **How far a send through the queue has come.** -/
inductive SendStory (tr : List (Transition κ)) (i : OperationId) (key : κ) (s : Service κ) :
    Prop where
  /-- It waits for the status lock. -/
  | waiting (hst : s.stage? i = some .entering)
  /-- It holds its key. -/
  | holding {pre mid : List (Transition κ)} {e : Transition κ} (htr : tr = pre ++ e :: mid)
      (hheld : HeldSince i key e mid s)
  /-- It is over. -/
  | done {st : Operation.Stage κ} (hst : s.stage? i = some st) (hactive : st.isActive = false)
      (hwait : ∀ d, st ≠ .supervising d)

/-- **The story of a send through the queue**, up to any moment. -/
theorem History.sendStory (h : History setup .start tr s)
    (hr : s.request? i = some (.enqueue tx options)) : SendStory tr i (setup.keyOf tx) s := by
  induction h with
  | nil => simp [Service.start, request?] at hr
  | @snoc tr t u a seen h hstep ih =>
    have hs := h.statusGuarded
    cases hr' : t.request? i with
    | none =>
      -- The send begins with this step.
      obtain ⟨rfl, rfl⟩ := begin_of_request? hstep hr' hr
      exact .waiting (entering_of_begin rfl hstep)
    | some r =>
      obtain rfl : r = .enqueue tx options :=
        Option.some.inj ((request?_of_step? hstep hr').symm.trans hr)
      cases ih hr' with
      | waiting hst =>
        cases waitMove_of_step? h.owned hstep hst with
        | waits ht => exact .waiting ht
        | dropped _ ht => exact .done ht rfl (by simp)
        | entered ha hheld =>
          subst ha
          have hown := hs.ownedBy (by rw [hr']; rfl) hheld
          cases sendMove_of_resume hstep hst hr' with
          | unneeded _ ht => exact .done ht rfl (by simp)
          | opened hprevious ht hstatuses =>
            -- Here the step is found with which the send takes the lock.
            refine .holding rfl ⟨⟨rfl, hst, hown⟩, hprevious, ht, hstatuses, by simp, ?_⟩
            intro e' he'
            obtain rfl := List.mem_singleton.mp he'
            exact Transition.quiet_of_ownedBy h.owned hown hstep
      | @holding pre mid e htr hheld =>
        have hown := hs.owned (i := i) (by simp [hheld.holds])
        cases holderMove_of_step? h.owned hs hheld.holds hstep with
        | holds ht hstatuses =>
          have htr' : tr ++ [⟨t, a, seen, u⟩] = pre ++ e :: (mid ++ [⟨t, a, seen, u⟩]) := by
            rw [htr, List.append_assoc, List.cons_append]
          exact .holding htr' ⟨hheld.takes, hheld.previous, ht, hstatuses.trans hheld.statuses,
            hheld.between_concat rfl,
            hheld.quiet_concat (Transition.quiet_of_ownedBy h.owned hown hstep)⟩
        | refused ht | dropped _ ht | launched _ _ ht => exact .done ht rfl (by simp)
      | done hst hactive hwait =>
        exact .done (stage?_of_ended h.owned hstep hst hactive hwait) hactive hwait

/-- **Only the step with which an operation is over** may start a delivery for it, unless the
operation waits for one. -/
theorem History.eq_of_launches {pre post : List (Transition κ)} {f : Transition κ}
    (h : History setup .start (pre ++ f :: post) s) {st st' : Operation.Stage κ}
    (hbefore : f.before.stage? i = some st) (hnot : st.isAccepted = false)
    (hafter : f.after.stage? i = some st') (hactive : st'.isActive = false)
    (hwait : ∀ d, st' ≠ .supervising d) : ∀ e ∈ pre ++ f :: post, ∀ d, e.Launches i d → e = f := by
  obtain ⟨hpre, hstep, hpost⟩ := h.around
  intro e he d hlaunch
  rcases List.mem_append.mp he with he | he
  · obtain ⟨st', hst', haccepted⟩ := hpre.isAccepted e he hlaunch
    obtain rfl := Option.some.inj (hbefore.symm.trans hst')
    rw [hnot] at haccepted
    contradiction
  · rcases List.mem_cons.mp he with rfl | he
    · rfl
    · obtain ⟨-, ⟨sub, signed, deadline, hsub, -⟩, -⟩ := hlaunch
      obtain ⟨-, hkept⟩ := hpost.stage?_eq_of_ended (hpre.owned.step hstep) hafter hactive hwait
      obtain rfl := Option.some.inj ((hkept e he).symm.trans hsub)
      contradiction

end Service

end TxDelivery
