import Mathlib.Data.List.Nodup
import TxDelivery.Proofs.Operation.Course
import TxDelivery.Proofs.Queue.Hold

/-!
# The lines of the locks

Whoever stands in the line of a lock has asked for it and not left it yet, and how far a party has
come tells whether that is so. **In the line of each lock stand exactly those whose stage wants the
lock, each of them once** (`TxDelivery.Service.History.lined`): a party that ends, by itself or
dropped at whatever point, leaves no trace in a line, and one that comes back for a lock it had
before has left it in between.

For the nonce lock these are the submissions from their place in the line to their signature, those
that come back to reset the nonce, and the resets; for the status lock the operations on the
statuses, the sends through the queue until their first broadcast is answered, and the bookkeepers
that mark a key.

## How it is kept

A line could be checked against the stages of all parties after every step. It is enough to look at
one: in a step one party at most changes what it wants, and the lock follows
(`TxDelivery.FairLock.Follows`). It enters the line if it begins to want the lock, leaves it if it
no longer does, and otherwise the line is as it was. **A lock that follows what its parties want
stays in order** (`TxDelivery.FairLock.InOrder.follows`), whatever the lock is for, and this is
where it matters that nobody stands in a line twice: leaving takes away every entry of a party.

So a step comes down to `TxDelivery.Service.LineMove`, which names the party and how both locks
follow. There are three kinds of parties to go through. An operation that goes on is looked at with
its stage before and after; a submission that opens or is refused has the lock it needs taken and
given back by the same two lemmas wherever it comes from; a bookkeeper has to do with the status
lock only. Deliveries want no lock, and a caller who is handed an outcome wants none either.
-/

namespace TxDelivery

namespace FairLock

variable {α : Type} {l l' : FairLock α} {x y : α} {access : Access} {wants wants' : α → Bool}

/-- Those who stand in line, the first first. -/
def line (l : FairLock α) : List α := l.queue.map (·.1)

/-- `x` stands in line ahead of `y`; a party that stood in line twice would be ahead of itself. -/
def Ahead (l : FairLock α) (x y : α) : Prop := [x, y].Sublist l.line

/-- **A line in order**: those who want the lock stand in it, each of them once. -/
structure InOrder (l : FairLock α) (wants : α → Bool) : Prop where
  /-- Nobody stands in line twice. -/
  nodup : l.line.Nodup
  /-- Those stand in line who want the lock. -/
  mem_iff : ∀ x, x ∈ l.line ↔ wants x = true

theorem line_enter : (l.enter x access).line = l.line ++ [x] := by
  simp [line, enter]

theorem line_leave [DecidableEq α] : (l.leave x).line = l.line.filter fun y => y ≠ x := by
  simp only [line, leave, List.filter_map]
  rfl

/-- Who holds the lock stands in line. -/
theorem mem_line_of_mem_holders (h : x ∈ l.holders) : x ∈ l.line := by
  obtain ⟨queue⟩ := l
  rcases queue with _ | ⟨⟨z, _ | _⟩, rest⟩
  · simp [holders] at h
  · rcases List.mem_cons.mp h with rfl | h
    · exact List.mem_cons_self
    · obtain ⟨e, he, rfl⟩ := List.mem_map.mp h
      exact List.mem_cons_of_mem _ (List.mem_map_of_mem ((List.takeWhile_sublist _).subset he))
  · obtain rfl : x = z := by simpa [holders] using h
    exact List.mem_cons_self

/-- The first in line holds the lock. -/
theorem head_mem_holders {rest : List α} (h : l.line = x :: rest) : x ∈ l.holders := by
  obtain ⟨queue⟩ := l
  rcases queue with _ | ⟨⟨z, _ | _⟩, queue⟩ <;> simp [line] at h
  · simp [holders, h.1]
  · simp [holders, h.1]

/-- **Who stands in line without the lock has somebody ahead who has it.** -/
theorem exists_ahead (hmem : x ∈ l.line) (hx : x ∉ l.holders) :
    ∃ y ∈ l.holders, l.Ahead y x := by
  cases hline : l.line with
  | nil => simp [hline] at hmem
  | cons first rest =>
    have hfirst := head_mem_holders hline
    rw [hline] at hmem
    rcases List.mem_cons.mp hmem with rfl | hrest
    · exact absurd hfirst hx
    · refine ⟨first, hfirst, ?_⟩
      rw [Ahead, hline]
      exact (List.singleton_sublist.mpr hrest).cons_cons first

/-- The owner of the lock has nobody ahead. -/
theorem OwnedBy.not_ahead (h : l.OwnedBy x) (hnodup : l.line.Nodup) : ¬ l.Ahead y x := by
  obtain ⟨rest, hq⟩ := h
  have hline : l.line = x :: rest.map (·.1) := by rw [line, hq, List.map_cons]
  rw [hline] at hnodup
  intro hahead
  rw [Ahead, hline] at hahead
  have hmem : x ∈ rest.map (·.1) := by
    cases hahead with
    | cons _ hsub => exact hsub.subset (by simp)
    | cons_cons _ hsub => exact List.singleton_sublist.mp hsub
  exact (List.nodup_cons.mp hnodup).1 hmem

/-- Who is ahead stands in line. -/
theorem Ahead.mem_left (h : l.Ahead x y) : x ∈ l.line := List.Sublist.subset h (by simp)

/-- So does who is behind. -/
theorem Ahead.mem_right (h : l.Ahead x y) : y ∈ l.line := List.Sublist.subset h (by simp)

/-- **Who is ahead in a line that is in order has the earlier place.** -/
theorem Ahead.idxOf_lt [DecidableEq α] (h : l.Ahead x y) (hnodup : l.line.Nodup) :
    l.line.idxOf x < l.line.idxOf y := by
  obtain ⟨pre, post, hline, hpre⟩ : ∃ pre post, l.line = pre ++ x :: post ∧ x ∉ pre := by
    obtain ⟨pre, post, hline⟩ := List.append_of_mem h.mem_left
    refine ⟨pre, post, hline, fun hmem => ?_⟩
    rw [hline] at hnodup
    exact List.disjoint_of_nodup_append hnodup hmem List.mem_cons_self
  have hy : y ∉ pre ∧ y ≠ x := by
    rw [Ahead, hline, List.sublist_append_iff] at h
    obtain ⟨l₁, l₂, hsplit, h₁, h₂⟩ := h
    have hrest : y ∈ post := by
      rcases l₁ with _ | ⟨z, l₁⟩
      · obtain rfl : [x, y] = l₂ := by simpa using hsplit
        cases h₂ with
        | cons _ hsub => exact hsub.subset (by simp)
        | cons_cons _ hsub => exact List.singleton_sublist.mp hsub
      · obtain rfl : x = z := by simpa using (List.cons.inj hsplit).1
        exact absurd (h₁.subset List.mem_cons_self) hpre
    rw [hline] at hnodup
    refine ⟨fun hmem => List.disjoint_of_nodup_append hnodup hmem (List.mem_cons_of_mem _ hrest),
      fun heq => ?_⟩
    exact (List.nodup_cons.mp hnodup.of_append_right).1 (heq ▸ hrest)
  rw [hline, List.idxOf_append_of_notMem hpre, List.idxOf_append_of_notMem hy.1,
    List.idxOf_cons_self, List.idxOf_cons_ne _ (Ne.symm hy.2)]
  omega

variable [DecidableEq α]

/-- **How the lock follows what a party wants**: it enters the line when it begins to want the lock,
and leaves it when it no longer does. -/
inductive Follows (l : FairLock α) (x : α) : Bool → Bool → FairLock α → Prop where
  /-- The party wants what it wanted. -/
  | stays {b : Bool} : Follows l x b b l
  /-- The party begins to want the lock. -/
  | enters {access : Access} : Follows l x false true (l.enter x access)
  /-- The party does not want the lock any more. -/
  | leaves {b : Bool} : Follows l x b false (l.leave x)

omit [DecidableEq α] in
theorem inOrder_free : (free : FairLock α).InOrder fun _ => false :=
  ⟨List.nodup_nil, fun _ => by simp [line, free]⟩

omit [DecidableEq α] in
/-- Nobody changes what it wants. -/
theorem InOrder.congr (h : l.InOrder wants) (hwants : ∀ y, wants' y = wants y) :
    l.InOrder wants' :=
  ⟨h.nodup, fun y => by rw [h.mem_iff, hwants]⟩

/-- **A lock that follows what its parties want stays in order.** -/
theorem InOrder.follows (h : l.InOrder wants) (hfollows : l.Follows x (wants x) (wants' x) l')
    (hothers : ∀ y, y ≠ x → wants' y = wants y) : l'.InOrder wants' := by
  generalize hb : wants x = b at hfollows
  generalize hb' : wants' x = b' at hfollows
  cases hfollows with
  | stays =>
    refine h.congr fun y => ?_
    by_cases hy : y = x
    · rw [hy, hb, hb']
    · exact hothers y hy
  | enters =>
    have hx : x ∉ l.line := by rw [h.mem_iff, hb]; simp
    refine ⟨?_, fun y => ?_⟩
    · rw [line_enter]
      exact List.nodup_append.mpr ⟨h.nodup, List.nodup_singleton x,
        fun a ha b hbmem hab => hx (List.mem_singleton.mp hbmem ▸ hab ▸ ha)⟩
    · rw [line_enter, List.mem_append, List.mem_singleton, h.mem_iff]
      by_cases hy : y = x
      · simp [hy, hb']
      · simp [hy, hothers y hy]
  | leaves =>
    refine ⟨?_, fun y => ?_⟩
    · rw [line_leave]
      exact h.nodup.filter _
    · rw [line_leave, List.mem_filter, h.mem_iff]
      by_cases hy : y = x
      · simp [hy, hb']
      · simp [hy, hothers y hy]

end FairLock

variable {κ : Type}

/-- Whether a submission stands in the line of the nonce lock. -/
def Submission.Stage.wantsNonce : Submission.Stage → Bool
  | .queued | .fetching | .signing _ | .resetting _ => true
  | .pricing | .estimating | .broadcasting _ _ => false

/-- Whether an operation in a stage stands in the line of the nonce lock. -/
def Operation.Stage.wantsNonce : Operation.Stage κ → Bool
  | .submitting sub => sub.stage.wantsNonce
  | .resetting => true
  | _ => false

/-- Whether an operation in a stage stands in the line of the status lock. -/
def Operation.Stage.wantsStatuses : Operation.Stage κ → Bool
  | .entering => true
  | st => st.holding?.isSome

section Submissions

variable {s : Service κ} {lock lock' : FairLock OperationId} {i : OperationId} {sub : Submission κ}
  {a : Action κ} {e : DeliveryError} {n : NonceState} {m : Metrics} {seen : List Observation}

/-- A submission that opens enters the line of the nonce lock if it wants the lock. -/
theorem Submission.Opening.follows (h : Opening lock i sub lock' seen) :
    lock.Follows i false sub.stage.wantsNonce lock' := by
  cases h with
  | pricing hs | estimating hs =>
    rw [hs]
    exact .stays
  | queued hs =>
    rw [hs]
    exact .enters

/-- A submission that is refused leaves the nonce lock if it wanted it. -/
theorem Submission.Refusal.follows (h : Refusal s i sub a e n lock m seen) :
    s.nonceLock.Follows i sub.stage.wantsNonce false lock := by
  cases h with
  | price hs | gas hs | broadcast hs =>
    rw [hs]
    exact .stays
  | nonce | sign | forgotten => exact .leaves

end Submissions

/-- Whether a bookkeeper marks a key, or waits to. -/
def Bookkeeper.isMarking (k : Bookkeeper κ) : Bool :=
  match k.stage with
  | .marking _ _ => true
  | .idle | .stopped => false

namespace Service

open Operation

/-- Whether an operation has asked for the nonce lock and not left it. -/
def wantsNonce (s : Service κ) (i : OperationId) : Bool := (s.stage? i).any (·.wantsNonce)

/-- Whether a party has asked for the status lock and not left it. -/
def wantsStatuses (s : Service κ) : Party → Bool
  | .operation i => (s.stage? i).any (·.wantsStatuses)
  | .bookkeeper b => s.bookkeepers[b]?.any (·.isMarking)
  | .supervisor _ | .listener _ => false

/-- **The lines of both locks are in order.** -/
structure Lined (s : Service κ) : Prop where
  /-- In the line of the nonce lock stand those who want it. -/
  nonce : s.nonceLock.InOrder s.wantsNonce
  /-- In the line of the status lock stand those who want it. -/
  statuses : s.statusLock.InOrder s.wantsStatuses

variable {s t : Service κ} {i : OperationId} {b : BookkeeperId} {r : Request κ}
  {st st' : Operation.Stage κ}

theorem wantsNonce_eq (hst : s.stage? i = some st) : s.wantsNonce i = st.wantsNonce := by
  simp [wantsNonce, hst]

theorem wantsStatuses_eq (hst : s.stage? i = some st) :
    s.wantsStatuses (.operation i) = st.wantsStatuses := by
  simp [wantsStatuses, hst]

/-- **What a step does to the two lines**: one party follows what it wants. -/
inductive LineMove (s t : Service κ) : Prop where
  /-- Nobody changes what it wants. -/
  | still (hops : t.operations = s.operations) (hkeepers : t.bookkeepers = s.bookkeepers)
      (hnonce : t.nonceLock = s.nonceLock) (hstatuses : t.statusLock = s.statusLock)
  /-- An operation goes on. -/
  | operation {i : OperationId}
      (hnonce : s.nonceLock.Follows i (s.wantsNonce i) (t.wantsNonce i) t.nonceLock)
      (hstatuses : s.statusLock.Follows (.operation i) (s.wantsStatuses (.operation i))
        (t.wantsStatuses (.operation i)) t.statusLock)
      (hothers : ∀ j, j ≠ i → t.stage? j = s.stage? j) (hkeepers : t.bookkeepers = s.bookkeepers)
  /-- A bookkeeper goes on. -/
  | bookkeeper {b : BookkeeperId} (hops : t.operations = s.operations)
      (hnonce : t.nonceLock = s.nonceLock)
      (hstatuses : s.statusLock.Follows (.bookkeeper b) (s.wantsStatuses (.bookkeeper b))
        (t.wantsStatuses (.bookkeeper b)) t.statusLock)
      (hothers : ∀ b', b' ≠ b → t.bookkeepers[b']? = s.bookkeepers[b']?)

/-- **The lines stay in order.** -/
theorem Lined.move (hs : s.Lined) (h : LineMove s t) : t.Lined := by
  cases h with
  | still hops hkeepers hnonce hstatuses =>
    refine ⟨hnonce ▸ hs.nonce.congr fun i => ?_, hstatuses ▸ hs.statuses.congr fun p => ?_⟩
    · simp only [wantsNonce, stage?, hops]
    · cases p <;> simp only [wantsStatuses, stage?, hops, hkeepers]
  | @operation i hnonce hstatuses hothers hkeepers =>
    refine ⟨hs.nonce.follows hnonce fun j hj => ?_, hs.statuses.follows hstatuses fun p hp => ?_⟩
    · rw [wantsNonce, hothers j hj, ← wantsNonce]
    · cases p with
      | operation j => rw [wantsStatuses, hothers j fun hji => hp (hji ▸ rfl), ← wantsStatuses]
      | bookkeeper b => simp only [wantsStatuses, hkeepers]
      | supervisor d => rfl
      | listener d => rfl
  | @bookkeeper b hops hnonce hstatuses hothers =>
    refine ⟨hnonce ▸ hs.nonce.congr fun i => ?_, hs.statuses.follows hstatuses fun p hp => ?_⟩
    · simp only [wantsNonce, stage?, hops]
    · cases p with
      | operation j => simp only [wantsStatuses, stage?, hops]
      | bookkeeper b' => simp only [wantsStatuses, hothers b' fun hb => hp (hb ▸ rfl)]
      | supervisor d => rfl
      | listener d => rfl

variable [DecidableEq κ] {setup : Setup κ} {a : Action κ} {seen : List Observation}
  {tr : List (Transition κ)}

omit [DecidableEq κ] in
/-- An operation goes on, and both locks follow its stage. -/
theorem lineMove_of_put (hst : s.stage? i = some st) (ht : t.operations = put s.operations i st')
    (hnonce : s.nonceLock.Follows i st.wantsNonce st'.wantsNonce t.nonceLock)
    (hstatuses : s.statusLock.Follows (.operation i) st.wantsStatuses st'.wantsStatuses
      t.statusLock) (hkeepers : t.bookkeepers = s.bookkeepers) : LineMove s t := by
  have ht' := stage?_put_self ht hst
  refine .operation (i := i) ?_ ?_ (fun j hj => stage?_put_of_ne ht (Ne.symm hj)) hkeepers
  · rwa [wantsNonce_eq hst, wantsNonce_eq ht']
  · rwa [wantsStatuses_eq hst, wantsStatuses_eq ht']

omit [DecidableEq κ] in
/-- An operation begins, and both locks follow its stage. -/
theorem lineMove_of_append (ht : t.operations = s.operations ++ [⟨r, st⟩])
    (hnonce : s.nonceLock.Follows s.operations.length false st.wantsNonce t.nonceLock)
    (hstatuses : s.statusLock.Follows (.operation s.operations.length) false st.wantsStatuses
      t.statusLock) (hkeepers : t.bookkeepers = s.bookkeepers) : LineMove s t := by
  have ht' : t.stage? s.operations.length = some st := by rw [stage?_of_append ht, if_pos rfl]
  refine .operation (i := s.operations.length) ?_ ?_ (fun j hj => ?_) hkeepers
  · rw [wantsNonce_eq ht', wantsNonce, stage?_length]
    exact hnonce
  · rw [wantsStatuses_eq ht', wantsStatuses, stage?_length]
    exact hstatuses
  · rw [stage?_of_append ht, if_neg hj]

omit [DecidableEq κ] in
/-- Who makes a broadcast past the queue has nothing to do with the status lock. -/
theorem statusLock_follows_of_direct {sub : Submission κ}
    (h : sub.origin = .detached ∨ sub.origin = .attached) (hst' : st'.wantsStatuses = false) :
    s.statusLock.Follows (.operation i) (Stage.submitting sub).wantsStatuses st'.wantsStatuses
      s.statusLock := by
  have hst : (Stage.submitting sub).wantsStatuses = false := by
    rcases h with h | h <;> simp [Stage.wantsStatuses, Stage.holding?, h]
  rw [hst, hst']
  exact .stays

omit [DecidableEq κ] in
/-- Who broadcasts has left the nonce lock. -/
theorem nonceLock_follows_of_broadcasting {sub : Submission κ} {signed : SignedTx} {deadline : Nat}
    (hs : sub.stage = .broadcasting signed deadline) (hst' : st'.wantsNonce = false) :
    s.nonceLock.Follows i (Stage.submitting sub).wantsNonce st'.wantsNonce s.nonceLock := by
  rw [hst', Stage.wantsNonce, hs]
  exact .stays

omit [DecidableEq κ] in
/-- A broadcast for the queue is made under the status lock. -/
theorem wantsStatuses_of_queue {sub : Submission κ} {key : κ} {previous : TxStatus}
    (h : sub.origin = .queue key previous) : (Stage.submitting sub).wantsStatuses = true := by
  simp [Stage.wantsStatuses, Stage.holding?, h]

/-- **Every step of an operation** lets both locks follow what the operation wants. -/
theorem lineMove_of_operationStep (h : OperationStep setup s a (t, seen)) : LineMove s t := by
  -- A submission goes on for whoever asked for it, and wants the status lock as before.
  have hsame {i : OperationId} {sub sub' : Submission κ} (horigin : sub'.origin = sub.origin) :
      s.statusLock.Follows (.operation i) (Stage.submitting sub).wantsStatuses
        (Stage.submitting sub').wantsStatuses s.statusLock := by
    have heq : (Stage.submitting sub').wantsStatuses = (Stage.submitting sub).wantsStatuses := by
      simp only [Stage.wantsStatuses, Stage.holding?, horigin]
    rw [heq]
    exact .stays
  cases h with
  | submit hr hsub hopen =>
    refine lineMove_of_append rfl hopen.follows ?_ rfl
    rw [Stage.wantsStatuses, holding?_of_broadcast? hr hsub]
    · exact .stays
    · simp
  | enter => exact lineMove_of_append rfl .stays .enters rfl
  | estimate | replace => exact lineMove_of_append rfl .stays .stays rfl
  | forget => exact lineMove_of_append rfl .enters .stays rfl
  | duplicate hst | mark hst | read hst => exact lineMove_of_put hst rfl .stays .leaves rfl
  | enqueue hst _ _ _ _ hsub hopen =>
    refine lineMove_of_put hst rfl hopen.follows ?_ rfl
    rw [wantsStatuses_of_queue hsub.origin_eq]
    exact .stays
  | fetch hst hs | sign hst hs | nonce hst hs =>
    refine lineMove_of_put hst rfl ?_ (hsame rfl) rfl
    simp only [Stage.wantsNonce, hs]
    exact .stays
  | forgotten hst => exact lineMove_of_put hst rfl .leaves .stays rfl
  | @price i sub sub' p lock _ hst hs hsub _ hopen =>
    have horigin : sub'.origin = sub.origin := by rw [hsub]
    refine lineMove_of_put hst rfl ?_ (hsame horigin) rfl
    simp only [Stage.wantsNonce, hs]
    exact hopen.follows
  | gas hst hs | tooLow hst hs =>
    refine lineMove_of_put hst rfl ?_ (hsame rfl) rfl
    simp only [Stage.wantsNonce, hs]
    exact .enters
  | signed hst => exact lineMove_of_put hst rfl .leaves (hsame rfl) rfl
  | refuse hst horigin href =>
    exact lineMove_of_put hst rfl href.follows (statusLock_follows_of_direct horigin rfl) rfl
  | refuseQueued hst _ href => exact lineMove_of_put hst rfl href.follows .leaves rfl
  | launchDetached hst hs horigin =>
    exact lineMove_of_put hst rfl (nonceLock_follows_of_broadcasting hs rfl)
      (statusLock_follows_of_direct (.inl horigin) rfl) rfl
  | launchAttached hst hs horigin =>
    exact lineMove_of_put hst rfl (nonceLock_follows_of_broadcasting hs rfl)
      (statusLock_follows_of_direct (.inr horigin) rfl) rfl
  | launchQueued hst hs =>
    exact lineMove_of_put hst rfl (nonceLock_follows_of_broadcasting hs rfl) .leaves rfl
  | answer hst hs =>
    rcases hs with rfl | ⟨e, rfl⟩ <;> exact lineMove_of_put hst rfl .stays .stays rfl
  | escalate hst => exact lineMove_of_put hst rfl .stays .stays rfl
  | drop hst | dropWaiting hst => exact lineMove_of_put hst rfl .leaves .leaves rfl

omit [DecidableEq κ] in
/-- A bookkeeper goes on, and the status lock follows its stage. -/
theorem lineMove_of_set {k k' : Bookkeeper κ} (hk : s.bookkeepers[b]? = some k)
    (ht : t.bookkeepers = s.bookkeepers.set b k') (hops : t.operations = s.operations)
    (hnonce : t.nonceLock = s.nonceLock)
    (hstatuses : s.statusLock.Follows (.bookkeeper b) k.isMarking k'.isMarking t.statusLock) :
    LineMove s t := by
  have hlt : b < s.bookkeepers.length := (List.getElem?_eq_some_iff.mp hk).1
  have hk' : t.bookkeepers[b]? = some k' := by rw [ht, List.getElem?_set_self hlt]
  refine .bookkeeper (b := b) hops hnonce ?_ fun b' hb' => ?_
  · simpa only [wantsStatuses, hk, hk', Option.any_some] using hstatuses
  · rw [ht, List.getElem?_set_ne (Ne.symm hb')]

/-- **Every step of a bookkeeper** lets the status lock follow what the bookkeeper wants. -/
theorem lineMove_of_bookkeeperStep (h : BookkeeperStep setup s a (t, seen)) : LineMove s t := by
  cases h with
  | start =>
    refine .bookkeeper (b := s.bookkeepers.length) rfl rfl ?_ fun b' hb' => ?_
    · simp only [wantsStatuses, List.getElem?_concat_length, List.getElem?_eq_none (Nat.le_refl _)]
      exact .stays
    · rw [getElem?_append_singleton, if_neg hb']
  | takeConfirm hk hs | takeError hk hs =>
    refine lineMove_of_set hk rfl rfl rfl ?_
    simp only [Bookkeeper.isMarking, hs]
    exact .enters
  | mark hk => exact lineMove_of_set hk rfl rfl rfl .leaves
  | stop hk hs =>
    refine lineMove_of_set hk rfl rfl rfl ?_
    simp only [Bookkeeper.isMarking, hs]
    exact .stays

/-- **Every step** lets the locks follow what the parties want. -/
theorem lineMove_of_step? (howned : s.Owned) (h : s.step? setup a = some (t, seen)) :
    LineMove s t := by
  cases step_of_step? h with
  | operation h => exact lineMove_of_operationStep h
  | delivery h =>
    cases h with
    | proceed => exact .still rfl rfl rfl rfl
    | @conclude d x a outcome hx hends =>
      rcases handOver_eq s.operations x.owner outcome with ⟨-, hops⟩ | ⟨i, howner, hops⟩
      · exact .still hops rfl rfl rfl
      · have hst := howned.owner_of_isOpen hx hends.isOpen i howner
        exact lineMove_of_put hst hops .stays .stays rfl
  | bookkeeper h => exact lineMove_of_bookkeeperStep h
  | outside h => cases h <;> exact .still rfl rfl rfl rfl

/-- **At every moment the lines of both locks are in order.** -/
theorem History.lined (h : History setup .start tr s) : s.Lined := by
  induction h with
  | nil =>
    refine ⟨FairLock.inOrder_free.congr fun i => ?_, FairLock.inOrder_free.congr fun p => ?_⟩
    · simp [wantsNonce, Service.start, stage?]
    · cases p <;> simp [wantsStatuses, Service.start, stage?]
  | snoc h hstep ih => exact ih.move (lineMove_of_step? h.owned hstep)

end Service

end TxDelivery
