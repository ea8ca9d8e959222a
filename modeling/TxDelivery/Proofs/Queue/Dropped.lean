import TxDelivery.Proofs.Queue.Send
import TxDelivery.Proofs.Queue.Table

/-!
# Dropping a send through the queue

A caller may drop a send through the queue at any moment. As long as the send waits for the status
lock nothing comes of it. Afterwards the send holds its key, which is pending, and it is not there
any more to give the key its status back: **the key has the status it had before exactly if the send
was dropped while it waited for the lock** (`TxDelivery.Service.History.dropped_restores_iff`).

A key that is left so is stuck (`TxDelivery.Service.Stuck`): nothing is under way for it, it stays
pending until somebody marks it, and no send for it makes a broadcast meanwhile
(`TxDelivery.Service.dropped_stuck_droppedRun`).

The status the key had before is not in the state of the service any more when the send is dropped,
except with the send itself: it is the one the send was to give back, or, if the send has not taken
hold of the key yet, the one the key has (`TxDelivery.Service.statusBefore`). So the statement can
be about the drop alone, whatever came before. The story of the send says at which of three points
it is dropped. If it waits nothing was changed; if it holds its key the key is pending and was not;
and if it was over it could not be dropped.

## Why nobody helps

A send that finds its key pending takes it to be under way and leaves it to whoever is at it
(`TxDelivery.Service.Stuck.unneeded`), which here is nobody. So being stuck is kept by every step
that does not mark the key (`TxDelivery.Service.Stuck.step`): to give a key a status one has to hold
it, and to take hold of it one has to find it new or failed. A bookkeeper marks it only if the key
was sent past the queue as well; otherwise it comes free by hand.

Nothing is assumed about the run, but for the last part that nobody marks the key. Other callers may
send past the queue, set statuses and drop what they like, and there may be any number of
bookkeepers.
-/

namespace TxDelivery

namespace Service

variable {κ : Type} [DecidableEq κ] {setup : Setup κ} {s t : Service κ} {a : Action κ}
  {seen : List Observation} {i j : OperationId} {key : κ} {tr pre post : List (Transition κ)}
  {e f : Transition κ} {tx tx' : Transaction} {options options' : DeliveryOptions}

/-- **The status a key had before a send**: the one the send is to give back, if it has taken hold
of the key, and otherwise the one the key has. -/
def statusBefore (s : Service κ) (i : OperationId) (key : κ) : TxStatus :=
  match s.holding? i with
  | some (_, previous) => previous
  | none => s.statuses.get key

/-- **What is dropped was under way**, and the statuses stay as they are. -/
theorem of_drop (h : s.step? setup (.drop i) = some (t, seen)) :
    (∃ st, s.stage? i = some st ∧ (st.isActive = true ∨ ∃ d, st = .supervising d)) ∧
      t.stage? i = some .dropped ∧ t.statuses = s.statuses := by
  have hdrop : OperationStep setup s (.drop i) (t, seen) := operationStep_of_drop? h
  cases hdrop with
  | @drop _ st hst hended hdropped hwait =>
    refine ⟨⟨st, hst, .inl ?_⟩, stage?_put_self rfl hst, rfl⟩
    cases st with
    | ended answer => exact absurd rfl (hended answer)
    | dropped => exact absurd rfl hdropped
    | supervising d => exact absurd rfl (hwait d)
    | _ => rfl
  | dropWaiting hst => exact ⟨⟨_, hst, .inr ⟨_, rfl⟩⟩, stage?_put_self rfl hst, rfl⟩
  | refuse _ _ href | refuseQueued _ _ href => cases href

/-! ### Stuck keys -/

/-- **A key is stuck**: it is pending, and nobody holds it who would give it its status back. -/
structure Stuck (s : Service κ) (key : κ) : Prop where
  /-- The key is pending. -/
  pending : s.statuses.get key = .pending
  /-- Nobody holds it. -/
  free : ∀ i previous, s.holding? i ≠ some (key, previous)

/-- **Nobody marks a key**, neither a bookkeeper nor a caller. -/
def Unmarked (setup : Setup κ) (key : κ) (tr : List (Transition κ)) : Prop :=
  ∀ e ∈ tr, ∀ status, e.before.marked? setup e.action ≠ some (key, status)

/-- **A stuck key stays stuck** in a step that does not mark it. -/
theorem Stuck.step (hs : s.Stuck key) (howned : s.Owned) (h : s.step? setup a = some (t, seen))
    (hmarked : ∀ status, s.marked? setup a ≠ some (key, status)) : t.Stuck key := by
  refine ⟨?_, fun i previous hi => ?_⟩
  · cases tableMove_of_step? h with
    | still ht => rw [ht, hs.pending]
    | marked hkey ht =>
      rw [ht, StatusTable.get_set, if_neg, hs.pending]
      rintro rfl
      exact hmarked _ hkey
    | opened _ ht => rw [ht, StatusTable.get_set, hs.pending, ite_self]
    | refused hi ht =>
      -- Only who holds the key could give it another status back.
      rw [ht, StatusTable.get_restore, if_neg, hs.pending]
      rintro rfl
      exact hs.free _ _ hi
  · rcases holding?_of_step? howned h hi with hi | ⟨hget, hprevious⟩
    · exact hs.free i previous hi
    · -- A pending key is not taken hold of.
      rw [hs.pending] at hget
      subst hget
      simp at hprevious

/-- **A stuck key stays stuck until it is marked.** -/
theorem History.stuck (h : History setup s tr t) (hs : s.Stuck key) (howned : s.Owned)
    (hunmarked : Unmarked setup key tr) : t.Stuck key := by
  have hboth : t.Owned ∧ t.Stuck key :=
    h.invariant (P := fun t => t.Owned ∧ t.Stuck key) ⟨howned, hs⟩ fun e he hstep ih =>
      ⟨ih.1.step hstep, ih.2.step ih.1 hstep (hunmarked e he)⟩
  exact hboth.2

/-- **A stuck key is not sent**: whoever gets the status lock for a send of it leaves with nothing.
-/
theorem Stuck.unneeded (hs : s.Stuck key) (h : s.step? setup (.resume j) = some (t, seen))
    (hj : s.stage? j = some .entering) (hr : s.request? j = some (.enqueue tx' options'))
    (hkey : setup.keyOf tx' = key) : t.stage? j = some (.ended (.enqueued none)) := by
  subst hkey
  cases sendMove_of_resume h hj hr with
  | unneeded _ ht => exact ht
  | opened hprevious => simp [hs.pending] at hprevious

/-- **No send of a stuck key makes a broadcast**, as long as nobody marks the key. -/
theorem History.unneeded_of_stuck (h : History setup s tr t) (hs : s.Stuck key) (howned : s.Owned)
    (hunmarked : Unmarked setup key tr) (he : e ∈ tr) (htakes : e.Takes j)
    (hr : e.before.request? j = some (.enqueue tx' options')) (hkey : setup.keyOf tx' = key) :
    e.after.stage? j = some (.ended (.enqueued none)) := by
  obtain ⟨pre, post, rfl⟩ := List.append_of_mem he
  obtain ⟨hpre, hstep, -⟩ := h.around
  have hstuck := hpre.stuck hs howned fun e' he' => hunmarked e' (List.mem_append_left _ he')
  rw [htakes.action] at hstep
  exact hstuck.unneeded hstep htakes.waited hr hkey

/-- **A send that held its key leaves it stuck** when it is dropped. -/
theorem HeldSince.stuck {mid : List (Transition κ)} (hheld : HeldSince i key e mid s)
    (howned : s.Owned) (hguarded : s.StatusGuarded)
    (h : s.step? setup (.drop i) = some (t, seen)) : t.Stuck key := by
  obtain ⟨-, ht, hsame⟩ := of_drop h
  have hpending : s.statuses.get key = .pending := by
    rw [hheld.statuses, StatusTable.get_set, if_pos rfl]
  refine ⟨hsame ▸ hpending, fun j previous hj => ?_⟩
  rcases holding?_of_step? howned h hj with hj' | ⟨hget, hprevious⟩
  · -- Only the send held a key, and it is not there any more.
    obtain rfl : j = i := hguarded.unique (by simp [hj']) (by simp [hheld.holds])
    rw [holding?_eq ht] at hj
    contradiction
  · rw [hpending] at hget
    subst hget
    simp at hprevious

/-- **When a dropped send leaves its key as it was.** A send through the queue that is dropped had
started no delivery and starts none. Its key has the status it had before exactly if the send still
waited for the status lock, and then nothing was changed at all. Otherwise the send had got the lock
and found the key neither under way nor finished; the key is pending then, and as long as nobody
marks it it stays pending, and no send of it makes a broadcast. -/
theorem History.dropped_restores_iff (h : History setup .start (pre ++ f :: post) s)
    (hr : f.before.request? i = some (.enqueue tx options)) (ha : f.action = .drop i) :
    (f.after.statuses.get (setup.keyOf tx) = f.before.statusBefore i (setup.keyOf tx) ↔
      f.before.stage? i = some .entering) ∧
    f.after.stage? i = some .dropped ∧ f.after.statuses = f.before.statuses ∧
    (∀ e ∈ pre ++ f :: post, ∀ d, ¬ e.Launches i d) ∧
    (f.before.stage? i ≠ some .entering →
      (∃ pre' mid e, pre = pre' ++ e :: mid ∧ HeldSince i (setup.keyOf tx) e mid f.before ∧
        f.before.statusBefore i (setup.keyOf tx) = e.before.statuses.get (setup.keyOf tx)) ∧
      (Unmarked setup (setup.keyOf tx) post →
        s.statuses.get (setup.keyOf tx) = .pending ∧
        ∀ e ∈ post, ∀ j tx' options', e.Takes j →
          e.before.request? j = some (.enqueue tx' options') → setup.keyOf tx' = setup.keyOf tx →
          e.after.stage? j = some (.ended (.enqueued none)))) := by
  obtain ⟨hpre, hstep, hpost⟩ := h.around
  rw [ha] at hstep
  obtain ⟨⟨st, hst, hunder⟩, hdropped, hsame⟩ := of_drop hstep
  have hnone (hnot : st.isAccepted = false) : ∀ e ∈ pre ++ f :: post, ∀ d, ¬ e.Launches i d := by
    intro e he d hlaunch
    obtain rfl := h.eq_of_launches hst hnot hdropped rfl (by simp) e he d hlaunch
    obtain ⟨⟨hash, ha'⟩, -⟩ := hlaunch
    simp [ha] at ha'
  cases hpre.sendStory hr with
  | waiting hwaiting =>
    obtain rfl := Option.some.inj (hst.symm.trans hwaiting)
    have hbefore : f.before.statusBefore i (setup.keyOf tx) =
        f.before.statuses.get (setup.keyOf tx) := by
      rw [statusBefore, holding?_eq hst]
      rfl
    exact ⟨⟨fun _ => hst, fun _ => by rw [hbefore, hsame]⟩, hdropped, hsame, hnone rfl,
      fun hnot => absurd hst hnot⟩
  | @holding pre' mid e hpre' hheld =>
    obtain ⟨st', hst', hholding⟩ := Option.bind_eq_some_iff.mp hheld.holds
    obtain ⟨sub, rfl, -⟩ := Operation.Stage.submitting_of_holding? hholding
    obtain rfl := Option.some.inj (hst.symm.trans hst')
    have hbefore : f.before.statusBefore i (setup.keyOf tx) =
        e.before.statuses.get (setup.keyOf tx) := by
      rw [statusBefore, hheld.holds]
    have hstuck := hheld.stuck hpre.owned hpre.statusGuarded hstep
    have howned := hpre.owned.step hstep
    refine ⟨⟨fun hget => ?_, fun hentering => ?_⟩, hdropped, hsame, hnone rfl, fun _ =>
      ⟨⟨pre', mid, e, hpre', hheld, hbefore⟩, fun hunmarked => ⟨?_, ?_⟩⟩⟩
    · rw [hstuck.pending, hbefore] at hget
      rcases hheld.previous with hprevious | hprevious <;> simp [hprevious] at hget
    · simp [hst] at hentering
    · exact (hpost.stuck hstuck howned hunmarked).pending
    · exact fun e' he' j tx' options' => hpost.unneeded_of_stuck hstuck howned hunmarked he'
  | done hdone hactive hwait =>
    obtain rfl := Option.some.inj (hst.symm.trans hdone)
    rcases hunder with hunder | ⟨d, rfl⟩
    · simp [hactive] at hunder
    · exact absurd rfl (hwait d)

/-- A run in which a key is marked as failed while a send of it waits for the status lock, and the
send is dropped. -/
def droppedWaitingRun : List (Action Unit) :=
  [.begin (.mark sampleTx .error), .begin (.enqueue sampleTx {}), .resume 0, .drop 1]

/-- In this run the key stays failed. -/
theorem dropped_restores_droppedWaitingRun :
    ∃ (pre : List (Transition Unit)) (f : Transition Unit) (post : List (Transition Unit))
      (s : Service Unit), History sampleSetup .start (pre ++ f :: post) s ∧
      (pre ++ f :: post).map (·.action) = droppedWaitingRun ∧ f.action = .drop 1 ∧
      f.before.statusBefore 1 () = .error ∧
      f.after.statuses.get () = f.before.statusBefore 1 () := by
  have hrun : (start.trace? sampleSetup droppedWaitingRun).bind (fun r => r.1[3]?.map fun e =>
      decide (e.action = .drop 1 ∧ e.before.request? 1 = some (.enqueue sampleTx {}) ∧
        e.before.stage? 1 = some .entering ∧ e.before.statusBefore 1 () = .error)) =
      some true := by decide
  obtain ⟨pre, f, post, s, h, has, hf⟩ := exists_history_at hrun
  obtain ⟨ha, hr, hst, hbefore⟩ := of_decide_eq_true hf
  exact ⟨pre, f, post, s, h, has, ha, hbefore, (h.dropped_restores_iff hr ha).1.mpr hst⟩

/-- A run in which a send is dropped while its nonce is asked for; then the status is read, and the
key is sent again. -/
def droppedRun : List (Action Unit) :=
  [.begin (.enqueue sampleTx {}), .resume 0, .resume 0, .drop 0, .begin (.status ()), .resume 1,
    .begin (.enqueue sampleTx {}), .resume 2]

/-- In this run nothing was known of the key before the send, nothing was broadcast, and the key is
pending after the send was dropped; whoever reads the status is told so, and the next send is not
made. -/
theorem dropped_stuck_droppedRun :
    ∃ (pre : List (Transition Unit)) (f : Transition Unit) (post : List (Transition Unit))
      (s : Service Unit), History sampleSetup .start (pre ++ f :: post) s ∧
      (pre ++ f :: post).map (·.action) = droppedRun ∧ f.action = .drop 0 ∧
      f.before.request? 0 = some (.enqueue sampleTx {}) ∧
      f.before.statusBefore 0 () = .notFound ∧ f.after.statuses.get () = .pending ∧
      s.stage? 1 = some (.ended (.status .pending)) ∧
      s.stage? 2 = some (.ended (.enqueued none)) ∧ s.deliveries = [] := by
  have hrun : (start.trace? sampleSetup droppedRun).bind (fun r => r.1[3]?.map fun e =>
      decide (e.action = .drop 0 ∧ e.before.request? 0 = some (.enqueue sampleTx {}) ∧
        e.before.statusBefore 0 () = .notFound ∧ e.after.statuses.get () = .pending ∧
        r.2.stage? 1 = some (.ended (.status .pending)) ∧
        r.2.stage? 2 = some (.ended (.enqueued none)) ∧ r.2.deliveries = [])) =
      some true := by decide
  obtain ⟨pre, f, post, s, h, has, hf⟩ := exists_history_at hrun
  exact ⟨pre, f, post, s, h, has, of_decide_eq_true hf⟩

end Service

end TxDelivery
