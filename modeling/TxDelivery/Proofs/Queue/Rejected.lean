import TxDelivery.Proofs.Queue.Send
import TxDelivery.Proofs.Queue.Table

/-!
# What a send through the queue leaves behind

The end of a send through the queue tells what became of the statuses
(`TxDelivery.Service.SendLeaves`). A send that fails, or that was not needed, leaves the very table
it found when it got the status lock, and no delivery; a send that is accepted leaves its key
pending, everything else as it was, and one delivery. **In between nobody else gets to the
statuses**, so that nobody reads a status that is taken back
(`TxDelivery.Service.History.rejected_invisible`).

The table is the very same, and not only one that answers alike. A key that was not found is marked
as pending, and when it gets its status back it has to go again; had it stayed as not found it could
still be told from one that was never sent. It does go, as being found is what a key is in the table
for, and a table has no key twice (`TxDelivery.StatusTable.Sound`). This is known of the table at
the moment the send takes the lock, and of no other moment need it be known.

## The end and the beginning

The statement is about the step with which a send ends, and says something of the step with which it
got the lock, which may be long ago. It is the story of the send that has kept the other end of the
thread (`TxDelivery.Service.History.sendStory`): up to the last moment the send has held its key,
since a step that is known, and in all steps since then nobody else got to the statuses
(`TxDelivery.Service.HeldSince`). What remains is to look at the last step
(`TxDelivery.Service.HeldSince.leaves`). A send that was not needed has no such story, as it is over
with the step with which it gets the lock; there both ends are the same step.

That there is one delivery or none in the whole run, and not only up to the end of the send, is
because an operation that is over starts nothing (`TxDelivery.Service.History.not_launches`).
-/

namespace TxDelivery

namespace Service

variable {κ : Type} [DecidableEq κ] {setup : Setup κ} {s t : Service κ} {i : OperationId} {key : κ}
  {pre post : List (Transition κ)} {e f : Transition κ} {tx : Transaction}
  {options : DeliveryOptions} {answer : Answer}

/-- **What a send leaves behind** that got the status lock with the step `e` of a run and ended with
the step `f`, by what its caller got. -/
inductive SendLeaves (i : OperationId) (key : κ) (tr : List (Transition κ)) (e f : Transition κ) :
    Answer → Prop where
  /-- The send failed: the statuses are those it found, and there is no delivery. -/
  | refused {error : DeliveryError}
      (hprevious : e.before.statuses.get key = .notFound ∨ e.before.statuses.get key = .error)
      (hstatuses : f.after.statuses = e.before.statuses)
      (hnone : ∀ e' ∈ tr, ∀ d, ¬ e'.Launches i d) : SendLeaves i key tr e f (.failed error)
  /-- The send was not needed: the same, as the key is under way or finished. -/
  | unneeded
      (hstatus : e.before.statuses.get key = .pending ∨ e.before.statuses.get key = .finished)
      (hstatuses : f.after.statuses = e.before.statuses)
      (hnone : ∀ e' ∈ tr, ∀ d, ¬ e'.Launches i d) : SendLeaves i key tr e f (.enqueued none)
  /-- The send was accepted: the key is pending, and there is one delivery, of what was sent. -/
  | accepted {x : Delivery}
      (hprevious : e.before.statuses.get key = .notFound ∨ e.before.statuses.get key = .error)
      (hstatuses : f.after.statuses = e.before.statuses.set key .pending)
      (hlaunches : f.Launches i f.before.deliveries.length)
      (hdeliveries : f.after.deliveries = f.before.deliveries ++ [x]) (hopen : x.isOpen = true)
      (hone : ∀ e' ∈ tr, ∀ d, e'.Launches i d → d = f.before.deliveries.length) :
      SendLeaves i key tr e f (.enqueued (some x.current.hash))

/-- **An operation that ends without a delivery** has none in the whole run. -/
theorem History.not_launches (h : History setup .start (pre ++ f :: post) s)
    (hafter : f.after.stage? i = some (.ended answer))
    (hnot : (Operation.Stage.ended answer : Operation.Stage κ).isAccepted = false) :
    ∀ e ∈ pre ++ f :: post, ∀ d, ¬ e.Launches i d := by
  obtain ⟨hpre, hstep, hpost⟩ := h.around
  obtain ⟨hfinal, -⟩ := hpost.stage?_eq_of_ended (hpre.owned.step hstep) hafter rfl (by simp)
  intro e he d hlaunch
  obtain ⟨st, hst, haccepted⟩ := h.isAccepted e he hlaunch
  obtain rfl := Option.some.inj (hfinal.symm.trans hst)
  rw [hnot] at haccepted
  contradiction

/-- **What a send leaves behind that held its key.** -/
theorem HeldSince.leaves {mid : List (Transition κ)} (hheld : HeldSince i key e mid f.before)
    (hsound : e.before.statuses.Sound) (h : History setup .start (pre ++ f :: post) s)
    (hafter : f.after.stage? i = some (.ended answer)) :
    SendLeaves i key (pre ++ f :: post) e f answer := by
  obtain ⟨hpre, hstep, -⟩ := h.around
  have hanswer {st : Operation.Stage κ} (ht : f.after.stage? i = some st) : .ended answer = st :=
    Option.some.inj (hafter.symm.trans ht)
  cases holderMove_of_step? hpre.owned hpre.statusGuarded hheld.holds hstep with
  | holds ht =>
    rw [holding?_eq hafter] at ht
    contradiction
  | dropped _ ht => exact absurd (hanswer ht) (by simp)
  | refused ht hstatuses =>
    obtain rfl := Operation.Stage.ended.inj (hanswer ht)
    refine .refused hheld.previous ?_ (h.not_launches hafter rfl)
    rw [hstatuses, hheld.statuses, hsound.restore_set]
  | @launched x hash ha hbroadcast ht hdeliveries hopen hstatuses =>
    obtain rfl := Operation.Stage.ended.inj (hanswer ht)
    refine .accepted hheld.previous (hstatuses.trans hheld.statuses) ⟨⟨hash, ha⟩, hbroadcast, rfl⟩
      hdeliveries hopen fun e' he' d hlaunch => ?_
    obtain ⟨sub, signed, deadline, hst, -⟩ := hbroadcast
    obtain rfl := h.eq_of_launches hst rfl hafter rfl (by simp) e' he' d hlaunch
    exact hlaunch.2.2

/-- **A rejected send is invisible.** A send through the queue that ends with the step `f` of a run
got the status lock with a step `e`, and from then on until it ended nobody else got to the
statuses, and nobody read one. If it failed, or was not needed, the table after `f` is the table
before `e`, and no delivery was ever started for it; if it was accepted the table differs in its key
alone, which is pending, and one delivery was started, of the transaction whose hash the caller got.
-/
theorem History.rejected_invisible (h : History setup .start (pre ++ f :: post) s)
    (hmarks : MarksOutcomes pre) (hr : f.before.request? i = some (.enqueue tx options))
    (hbefore : ∀ answer, f.before.stage? i ≠ some (.ended answer))
    (hafter : f.after.stage? i = some (.ended answer)) :
    ∃ pre' mid e, pre ++ [f] = pre' ++ e :: mid ∧ e.Takes i ∧
      (∀ e' ∈ e :: mid, e'.Quiet i ∧ ∀ j, ¬ e'.Reads j) ∧
      (∀ e' ∈ mid, e'.before.statuses = e.before.statuses.set (setup.keyOf tx) .pending) ∧
      SendLeaves i (setup.keyOf tx) (pre ++ f :: post) e f answer := by
  obtain ⟨hpre, hstep, -⟩ := h.around
  have howned := hpre.owned
  have hguarded := hpre.statusGuarded
  have hunread {pre' mid : List (Transition κ)} {e : Transition κ}
      (htr : pre ++ [f] = pre' ++ e :: mid) (hquiet : ∀ e' ∈ e :: mid, e'.Quiet i) :
      ∀ e' ∈ e :: mid, e'.Quiet i ∧ ∀ j, ¬ e'.Reads j := by
    intro e' he'
    have hmem : e' ∈ pre ++ [f] := htr ▸ List.mem_append_right _ he'
    exact ⟨hquiet e' he', (hpre.snoc hstep).not_reads (request?_of_step? hstep hr) hmem
      (hquiet e' he')⟩
  -- A send that waited until the step `f` takes the lock with it, and ends at once; a send that
  -- held its key before `f` took the lock earlier.
  cases hpre.sendStory hr with
  | waiting hst =>
    cases waitMove_of_step? howned hstep hst with
    | waits ht | dropped _ ht => simp [hafter] at ht
    | entered ha hheld =>
      have hown := hguarded.ownedBy (by rw [hr]; rfl) hheld
      have hquiet : f.Quiet i := Transition.quiet_of_ownedBy howned hown hstep
      rw [ha] at hstep
      cases sendMove_of_resume hstep hst hr with
      | opened _ ht =>
        rw [holding?_eq hafter] at ht
        contradiction
      | unneeded hstatus ht hstatuses =>
        obtain rfl : answer = .enqueued none := by simpa using hafter.symm.trans ht
        exact ⟨pre, [], f, rfl, ⟨ha, hst, hown⟩, hunread rfl (by simpa using hquiet), by simp,
          .unneeded hstatus hstatuses (h.not_launches hafter rfl)⟩
  | @holding pre' mid e hpre' hheld =>
    have hown := hguarded.owned (i := i) (by simp [hheld.holds])
    have hsound : e.before.statuses.Sound := by
      subst hpre'
      exact hpre.around.1.sound_statuses hmarks.of_append
    have htr : pre ++ [f] = pre' ++ e :: (mid ++ [f]) := by
      rw [hpre', List.append_assoc, List.cons_append]
    have hquiet := hheld.quiet_concat (Transition.quiet_of_ownedBy howned hown hstep)
    exact ⟨pre', mid ++ [f], e, htr, hheld.takes, hunread htr hquiet, hheld.between_concat rfl,
      hheld.leaves hsound h hafter⟩
  | done hst hactive hwait =>
    have hsame := stage?_of_ended howned hstep hst hactive hwait
    rw [hafter] at hsame
    obtain rfl := Option.some.inj hsame
    exact absurd hst (hbefore _)

/-- A run in which a key that had failed is sent again, and the nonce cannot be read; meanwhile
somebody wants to read the status. -/
def failedAgainRun : List (Action Unit) :=
  [.begin (.mark sampleTx .error), .resume 0, .begin (.enqueue sampleTx {}), .resume 1,
    .begin (.status ()), .resume 1, .reply (.operation 1) (.failed (.timeout 10))]

/-- In this run the key is stored as failed in the end, as it was before, and the reader has read
nothing. -/
theorem rejected_invisible_failedAgainRun :
    ∃ (pre : List (Transition Unit)) (f : Transition Unit) (post : List (Transition Unit))
      (s : Service Unit), History sampleSetup .start (pre ++ f :: post) s ∧
      (pre ++ f :: post).map (·.action) = failedAgainRun ∧ f.after.statuses = ⟨[((), .error)]⟩ ∧
      f.after.stage? 2 = some .entering ∧
      ∃ pre' mid e, pre ++ [f] = pre' ++ e :: mid ∧ e.Takes 1 ∧
        (∀ e' ∈ e :: mid, e'.Quiet 1 ∧ ∀ j, ¬ e'.Reads j) ∧
        SendLeaves 1 () (pre ++ f :: post) e f (.failed (.nonce (.timeout 10))) := by
  have hrun : (start.trace? sampleSetup failedAgainRun).bind (fun r => r.1[6]?.map fun e =>
      decide (e.before.request? 1 = some (.enqueue sampleTx {}) ∧
        (e.before.stage? 1).map Operation.Stage.isActive = some true ∧
        e.after.stage? 1 = some (.ended (.failed (.nonce (.timeout 10)))) ∧
        e.after.statuses = ⟨[((), .error)]⟩ ∧ e.after.stage? 2 = some .entering)) =
      some true := by decide
  obtain ⟨pre, f, post, s, h, has, hf⟩ := exists_history_at hrun
  obtain ⟨hr, hactive, hafter, hstatuses, hreader⟩ := of_decide_eq_true hf
  have hmarks : MarksOutcomes pre := by
    intro e he tx status ha
    have hmem : e.action ∈ failedAgainRun := by
      rw [← has]
      exact List.mem_map_of_mem (List.mem_append_left _ he)
    rw [ha] at hmem
    simp [failedAgainRun] at hmem
    exact .inr hmem.2
  have hbefore : ∀ answer, f.before.stage? 1 ≠ some (.ended answer) := by
    intro answer hst
    simp [hst, Operation.Stage.isActive] at hactive
  obtain ⟨pre', mid, e, htr, htakes, hquiet, -, hleaves⟩ :=
    h.rejected_invisible hmarks hr hbefore hafter
  exact ⟨pre, f, post, s, h, has, hstatuses, hreader, pre', mid, e, htr, htakes, hquiet, hleaves⟩

end Service

end TxDelivery
