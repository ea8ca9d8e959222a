import TxDelivery.Proofs.Operation.Submission
import TxDelivery.Proofs.Queue.Account

/-!
# What is done to the statuses

A step of a service changes the statuses in three ways (`TxDelivery.Service.TableMove`): a
bookkeeper or a caller marks a key, a send takes hold of a key, or a key gets its status back. If
keys are marked as finished or failed only, **what is stored is sound at every moment**
(`TxDelivery.Service.History.sound_statuses`): no key is stored twice, and none as not found.

Here nothing is assumed about how a service is used, and there may be callers who set statuses by
hand. So this is a coarser look at a step than the table of what operations do to the queue: it does
not say who has which lock or what becomes of deliveries, and in return there are no exceptions to
it (`TxDelivery.Service.tableMove_of_step?`). To mark a key is one thing, whoever does it
(`TxDelivery.Service.marked?`); the status is the one a bookkeeper has in hand or the one a caller
asked for.

That a key is new is not to be stored. Of the three ways only marking could do it: a key that is
taken hold of is stored as pending, and one that gets back the status of a new key is forgotten. A
bookkeeper marks what became of a delivery. It is for callers that there is a condition on the run
(`TxDelivery.Service.MarksOutcomes`), and a request that is in the state was begun in the run
(`TxDelivery.Service.History.begun`), so that the condition is found to hold for it however long the
request has waited for the lock.

By the same table a key that is held was held before, or was new or failed in the table
(`TxDelivery.Service.holding?_of_step?`).
-/

namespace TxDelivery

namespace Service

variable {κ : Type} [DecidableEq κ] {setup : Setup κ} {s t : Service κ} {a : Action κ}
  {seen : List Observation} {i : OperationId} {key : κ} {previous status : TxStatus}
  {tr tr' : List (Transition κ)} {r : Request κ}

omit [DecidableEq κ] in
/-- The key a step marks and the status the key gets: a bookkeeper marks what it took, a caller what
it asked for. -/
def marked? (setup : Setup κ) (s : Service κ) : Action κ → Option (κ × TxStatus)
  | .mark b =>
    match s.bookkeepers[b]?.map Bookkeeper.stage with
    | some (.marking key status) => some (key, status)
    | _ => none
  | .resume i =>
    match s.stage? i, s.request? i with
    | some .entering, some (.mark tx status) => some (setup.keyOf tx, status)
    | _, _ => none
  | _ => none

omit [DecidableEq κ] in
/-- Who marks a key. -/
theorem marked?_cases (h : s.marked? setup a = some (key, status)) :
    (∃ (b : BookkeeperId) (k : Bookkeeper κ), s.bookkeepers[b]? = some k ∧
      k.stage = .marking key status) ∨
    ∃ i tx, s.request? i = some (.mark tx status) ∧ setup.keyOf tx = key := by
  cases a with
  | mark b =>
    simp only [marked?] at h
    split at h
    case h_1 hstage =>
      obtain ⟨rfl, rfl⟩ := by simpa using h
      obtain ⟨k, hk, hstage⟩ := Option.map_eq_some_iff.mp hstage
      exact .inl ⟨b, k, hk, hstage⟩
    case h_2 => contradiction
  | resume i =>
    simp only [marked?] at h
    split at h
    case h_1 hr =>
      obtain ⟨hkey, rfl⟩ := by simpa using h
      exact .inr ⟨i, _, hr, hkey⟩
    case h_2 => contradiction
  | _ => contradiction

/-- **A step seen from the statuses.** -/
inductive TableMove (setup : Setup κ) (s : Service κ) (a : Action κ) (t : Service κ) : Prop where
  /-- They stay as they are. -/
  | still (ht : t.statuses = s.statuses)
  /-- A key is marked. -/
  | marked {key : κ} {status : TxStatus} (hmarked : s.marked? setup a = some (key, status))
      (ht : t.statuses = s.statuses.set key status)
  /-- A key is taken hold of. -/
  | opened {key : κ} (hprevious : s.statuses.get key = .notFound ∨ s.statuses.get key = .error)
      (ht : t.statuses = s.statuses.set key .pending)
  /-- A key gets its status back from who held it. -/
  | refused {i : OperationId} {key : κ} {previous : TxStatus}
      (hi : s.holding? i = some (key, previous))
      (ht : t.statuses = s.statuses.restore key previous)

/-- **Every step, seen from the statuses.** -/
theorem tableMove_of_step? (h : s.step? setup a = some (t, seen)) : TableMove setup s a t := by
  cases step_of_step? h with
  | operation h =>
    cases statusMove_of_operationStep h with
    | still _ _ hstatuses | dropped _ _ _ _ _ hstatuses | launched _ _ _ _ _ _ _ hstatuses =>
      exact .still hstatuses
    | marked ha hr hst _ _ _ hstatuses =>
      refine .marked ?_ hstatuses
      rw [ha, marked?, hst, hr]
    | opens _ _ _ _ hprevious _ _ hstatuses => exact .opened hprevious hstatuses
    | refused hi _ _ _ hstatuses => exact .refused hi hstatuses
  | delivery h => cases h <;> exact .still rfl
  | bookkeeper h =>
    cases h with
    | mark hk hs =>
      refine .marked ?_ rfl
      rw [marked?, hk, Option.map_some, hs]
    | start | takeConfirm | takeError | stop => exact .still rfl
  | outside h => cases h <;> exact .still rfl

/-- **Whoever holds a key has held it before**, or takes hold of it now. -/
theorem holding?_of_step? (howned : s.Owned) (h : s.step? setup a = some (t, seen))
    (hi : t.holding? i = some (key, previous)) :
    s.holding? i = some (key, previous) ∨
      s.statuses.get key = previous ∧ (previous = .notFound ∨ previous = .error) := by
  cases step_of_step? h with
  | operation h =>
    have hgone {j : OperationId} (hold : t.holding? i = if j = i then none else s.holding? i) :
        s.holding? i = some (key, previous) := by
      rw [hi] at hold
      split at hold
      case isTrue => contradiction
      case isFalse => exact hold.symm
    cases statusMove_of_operationStep h with
    | still hold | marked _ _ _ _ hold => exact .inl ((hold i).symm.trans hi)
    | opens _ _ _ _ hprevious hold =>
      rw [hold] at hi
      split at hi
      case isTrue =>
        obtain ⟨rfl, rfl⟩ := by simpa using hi
        exact .inr ⟨rfl, hprevious⟩
      case isFalse => exact .inl hi
    | refused _ _ hold | dropped _ _ _ hold | launched _ _ _ _ _ hold => exact .inl (hgone (hold i))
  | delivery h => exact .inl ((holding?_of_deliveryStep howned h i).symm.trans hi)
  | bookkeeper h => cases h <;> exact .inl hi
  | outside h => cases h <;> exact .inl hi

/-! ### What is stored -/

/-- **Callers mark keys as finished or as failed.** -/
def MarksOutcomes (tr : List (Transition κ)) : Prop :=
  ∀ e ∈ tr, ∀ tx status, e.action = .begin (.mark tx status) →
    status = .finished ∨ status = .error

omit [DecidableEq κ] in
theorem MarksOutcomes.of_append (h : MarksOutcomes (tr ++ tr')) : MarksOutcomes tr :=
  fun e he => h e (List.mem_append_left _ he)

/-- **What is asked was begun.** -/
theorem History.begun (h : History setup .start tr s) (hr : s.request? i = some r) :
    ∃ e ∈ tr, e.action = .begin r := by
  obtain ⟨pre, e, mid, rfl, ha, -⟩ := h.exists_begin hr
  exact ⟨e, List.mem_append_right _ List.mem_cons_self, ha⟩

/-- Keys are marked as finished or as failed, by bookkeepers and by callers. -/
theorem History.status_of_marked? (h : History setup .start tr s) (hmarks : MarksOutcomes tr)
    (hmarked : s.marked? setup a = some (key, status)) :
    status = .finished ∨ status = .error := by
  rcases marked?_cases hmarked with ⟨b, k, hk, hstage⟩ | ⟨i, tx, hr, -⟩
  · exact h.keeping.marks k (List.mem_of_getElem? hk) key status hstage
  · obtain ⟨e, he, ha⟩ := h.begun hr
    exact hmarks e he tx status ha

/-- **What is stored is sound at every moment.** -/
theorem History.sound_statuses (h : History setup .start tr s) (hmarks : MarksOutcomes tr) :
    s.statuses.Sound := by
  induction h with
  | nil => exact StatusTable.sound_empty
  | snoc h hstep ih =>
    have hs := ih hmarks.of_append
    cases tableMove_of_step? hstep with
    | still ht => exact ht ▸ hs
    | marked hmarked ht =>
      rw [ht]
      refine hs.set ?_
      rcases h.status_of_marked? hmarks.of_append hmarked with rfl | rfl <;> simp
    | opened _ ht =>
      rw [ht]
      exact hs.set (by simp)
    | refused _ ht =>
      rw [ht]
      exact hs.restore

end Service

end TxDelivery
