import Mathlib.Algebra.Order.BigOperators.Group.List
import Mathlib.Algebra.Order.Group.Nat
import TxDelivery.Proofs.Queue.Send
import TxDelivery.Proofs.Queue.Table

/-!
# One delivery for each key

A run in which the queue has the service to itself (`TxDelivery.Service.QueueAlone`): callers
broadcast through the queue alone and set no statuses by hand, one bookkeeper is started at most,
and keys are read off what a transaction is about. In such a run **at most one delivery is under way
for a key, statuses take four steps only, and a key is confirmed once at most**
(`TxDelivery.Service.History.one_per_key`).

The ledgers of the keys are sound at every moment (`TxDelivery.Service.History.sound_ledger`), as no
step changes them but by a move. The rest is read off the ledgers, off the answers that readers get
(`TxDelivery.Service.History.status_of_read`), and off what is asked for a send, which holds its key
while it asks (`TxDelivery.Service.holding?_of_called`).

* Two deliveries under way for one key would be counted twice in a sum that is one at most
  (`TxDelivery.Service.eq_of_isOpen`).
* A reader gets what the table has, while nobody holds a key; so it is the status that is shown, and
  this one takes four steps, whereas the one in the table may also be taken back.
* A key that is finished stays so, and nothing is asked for it: to ask one has to hold the key, and
  a key that is finished is not held (`TxDelivery.Service.History.finished`).
* After a confirmation the ledger is settled, and no other can come
  (`TxDelivery.Service.History.confirmations_le`). It is not enough that the key becomes finished:
  between the confirmation and the mark any number of steps may go by.

## What is assumed

None of the conditions can be left out. A send past the queue makes a delivery for a key that may be
under way already. A status set by hand lets a send begin while another is under way. A second
bookkeeper follows the feeds from another point, and enters late what the first has entered. A key
that is read off what the signer changes is another key when the outcome comes. Dropping, on the
other hand, is allowed, and so are outcomes that are lost; they leave a key pending, and do not make
two things of one.
-/

namespace TxDelivery

namespace Service

variable {κ : Type} [DecidableEq κ] {setup : Setup κ} {s t u : Service κ} {a : Action κ}
  {seen : List Observation} {i j : OperationId} {key : κ} {tr tr' : List (Transition κ)}

/-! ### Who reads and who asks -/

/-- **A reader gets the status that is shown**, as nobody makes a first broadcast meanwhile. -/
theorem History.status_of_read {answer : Answer} (h : History setup .start tr s)
    (hstep : s.step? setup a = some (t, seen)) (hr : s.request? i = some (.status key))
    (hst : s.stage? i ≠ some (.ended answer)) (ht : t.stage? i = some (.ended answer)) :
    answer = .status (s.shownStatus key) := by
  rcases h.reader hr with hentering | ⟨st, hst', hactive, hwait⟩
  · cases waitMove_of_step? h.owned hstep hentering with
    | waits ht' | dropped _ ht' => simp [ht] at ht'
    | entered ha hheld =>
      subst ha
      have hread := stage?_of_read hstep hentering hr
      obtain rfl : answer = .status (s.statuses.get key) := by simpa using ht.symm.trans hread
      rw [shownStatus, h.statusGuarded.heldStatus_of_heldBy hheld (holding?_eq hentering),
        Option.getD_none]
  · have hkept := stage?_of_ended h.owned hstep hst' hactive hwait
    exact absurd (hst'.trans (hkept.symm.trans ht)) hst

omit [DecidableEq κ] in
/-- What a delivery asks is asked by its supervisor or its listener. -/
theorem not_called_of_proceeds {now : Nat} {d : DeliveryId} {x x' : Delivery} {m m' : Metrics}
    {call : Call} (h : x.Proceeds setup now d m a x' m' seen) :
    .called (.operation i) call ∉ seen := by
  cases h <;> simp

/-- Whoever asks is estimating, making a replacement or making a first broadcast. -/
theorem stage?_of_called {call : Call} (h : OperationStep setup s a (t, seen))
    (hcall : .called (.operation i) call ∈ seen) :
    ∃ st, t.stage? i = some st ∧
      (st = .estimating ∨ (∃ e, st = .replacing e) ∨ ∃ sub, st = .submitting sub) := by
  have hopened {lock lock' : FairLock OperationId} {j : OperationId} {sub : Submission κ}
      {seen : List Observation} (hopen : Submission.Opening lock j sub lock' seen)
      (hcall : .called (.operation i) call ∈ seen) : i = j := by
    cases hopen <;> simp_all
  have hput {j : OperationId} {st st' : Operation.Stage κ} (hij : i = j)
      (hj : s.stage? j = some st) (hput : t.operations = Operation.put s.operations j st') :
      t.stage? i = some st' := hij ▸ stage?_put_self hput hj
  cases h with
  | submit _ _ hopen =>
    obtain rfl := hopened hopen hcall
    exact ⟨_, by rw [stage?_of_append rfl, if_pos rfl], .inr (.inr ⟨_, rfl⟩)⟩
  | estimate =>
    obtain rfl : i = s.operations.length := by simp_all
    exact ⟨_, by rw [stage?_of_append rfl, if_pos rfl], .inl rfl⟩
  | replace =>
    obtain rfl : i = s.operations.length := by simp_all
    exact ⟨_, by rw [stage?_of_append rfl, if_pos rfl], .inr (.inl ⟨_, rfl⟩)⟩
  | @enqueue j _ _ previous _ _ _ hst _ _ _ _ _ hopen =>
    have hcall' := (List.mem_append.mp hcall).resolve_left (by split <;> simp)
    exact ⟨_, hput (hopened hopen hcall') hst rfl, .inr (.inr ⟨_, rfl⟩)⟩
  | price hst _ _ _ hopen => exact ⟨_, hput (hopened hopen hcall) hst rfl, .inr (.inr ⟨_, rfl⟩)⟩
  | fetch hst | sign hst | nonce hst | signed hst =>
    exact ⟨_, hput (by simp_all) hst rfl, .inr (.inr ⟨_, rfl⟩)⟩
  | escalate hst => exact ⟨_, hput (by simp_all) hst rfl, .inr (.inl ⟨_, rfl⟩)⟩
  | refuse _ _ href | refuseQueued _ _ href => cases href <;> simp at hcall
  | _ => simp at hcall

/-- **A send through the queue holds its key while it asks.** -/
theorem holding?_of_called {call : Call} {tx : Transaction} {options : DeliveryOptions}
    (hfiled : t.Filed setup) (h : s.step? setup a = some (t, seen))
    (hr : t.request? i = some (.enqueue tx options)) (hcall : .called (.operation i) call ∈ seen) :
    ∃ previous, t.holding? i = some (setup.keyOf tx, previous) := by
  cases step_of_step? h with
  | operation h =>
    obtain ⟨st, hst, hasks⟩ := stage?_of_called h hcall
    cases hfiled.operation hr hst with
    | @submitting _ _ previous sub hr' horigin =>
      obtain ⟨rfl, -⟩ := Request.enqueue.inj hr'
      exact ⟨previous, (holding?_eq hst).trans (Operation.Stage.holding?_submitting horigin)⟩
    | estimating hr' | replacing hr' => contradiction
    | entering | resetting | ended | dropped => simp at hasks
  | delivery h =>
    cases h with
    | proceed _ hproceeds => exact absurd hcall (not_called_of_proceeds hproceeds)
    | conclude => simp at hcall
  | bookkeeper h => cases h <;> simp at hcall
  | outside h => cases h <;> simp at hcall

/-! ### Runs -/

/-- **A run in which the queue has the service to itself.** -/
structure QueueAlone (setup : Setup κ) (tr : List (Transition κ)) : Prop where
  /-- Keys are read off what transactions are about. -/
  keyed : setup.KeyedByPayload
  /-- Broadcasts go through the queue, and statuses are not set by hand. -/
  through : ∀ e ∈ tr, ThroughQueue setup e.before e.action
  /-- One bookkeeper is started at most. -/
  bookkeeper : tr.countP (fun e => e.action = .startBookkeeper) ≤ 1

/-- The queue has the service to itself from the beginning. -/
theorem QueueAlone.of_append (hq : QueueAlone setup (tr ++ tr')) : QueueAlone setup tr where
  keyed := hq.keyed
  through e he := hq.through e (List.mem_append_left _ he)
  bookkeeper := by
    have hcount := hq.bookkeeper
    rw [List.countP_append] at hcount
    omega

/-- **That a key is not found is stored at no moment.** -/
theorem History.proper (h : History setup .start tr s) (hq : QueueAlone setup tr) :
    s.statuses.Proper := by
  refine (h.sound_statuses fun e he tx status ha => ?_).proper
  have hnone := (hq.through e he).request _ ha
  simp [Request.isOfQueue] at hnone

/-- **The last step of a run is a move of the ledger** of every key. -/
theorem History.ledgerMove (h : History setup .start tr s)
    (hstep : s.step? setup a = some (t, seen)) (hq : QueueAlone setup (tr ++ [⟨s, a, seen, t⟩]))
    (key : κ) :
    (s.ledger setup key).Move (seen.filterMap (Observation.confirmation? setup key)).length
      (t.ledger setup key) := by
  have hone : t.bookkeepers.length ≤ 1 := (h.snoc hstep).length_bookkeepers ▸ hq.bookkeeper
  exact ledgerMove_of_step? (h.filed hq.of_append.through) h.owned h.statusGuarded h.keeping hone
    hq.keyed hstep key

/-- **At every moment the ledger of a key is sound.** -/
theorem History.sound_ledger (h : History setup .start tr s) (hq : QueueAlone setup tr) (key : κ) :
    (s.ledger setup key).Sound := by
  induction h with
  | nil =>
    refine ⟨Nat.zero_le _, fun hpos => absurd hpos (Nat.lt_irrefl 0), fun p hp => ?_⟩
    simp [ledger, heldStatus, start] at hp
  | snoc h hstep ih => exact (ih hq.of_append).move (h.ledgerMove hstep hq key)

/-- The confirmations of a key that were published in a run. -/
def confirmations (setup : Setup κ) (key : κ) (tr : List (Transition κ)) : List ConfirmEvent :=
  (tr.flatMap (·.seen)).filterMap (Observation.confirmation? setup key)

/-- **A key is confirmed once at most**, and then nothing under way leads to a confirmation. -/
theorem History.confirmations_le (h : History setup .start tr s) (hq : QueueAlone setup tr)
    (key : κ) : (confirmations setup key tr).length ≤ 1 ∧
      (confirmations setup key tr ≠ [] → (s.ledger setup key).Settled) := by
  induction h with
  | nil => exact ⟨Nat.zero_le _, fun hne => absurd rfl hne⟩
  | @snoc tr t u a seen h hstep ih =>
    obtain ⟨hone, hsettled⟩ := ih hq.of_append
    have hmove := h.ledgerMove hstep hq key
    have happend : confirmations setup key (tr ++ [⟨t, a, seen, u⟩]) =
        confirmations setup key tr ++ seen.filterMap (Observation.confirmation? setup key) := by
      simp [confirmations]
    rw [happend]
    by_cases hnone : confirmations setup key tr = []
    · rw [hnone, List.nil_append]
      refine ⟨hmove.le_one, fun hne => ?_⟩
      have hnumber : (seen.filterMap (Observation.confirmation? setup key)).length = 1 :=
        Nat.le_antisymm hmove.le_one (List.length_pos_iff.mpr hne)
      exact (h.sound_ledger hq.of_append key).settled (hnumber ▸ hmove)
    · obtain ⟨hsettled', hquiet⟩ := (hsettled hnone).move hmove
      rw [List.length_eq_zero_iff.mp hquiet, List.append_nil]
      exact ⟨hone, fun _ => hsettled'⟩

/-- What is shown of a key that is not being broadcast is what is stored. -/
theorem shownStatus_of_ledger (hheld : (s.ledger setup key).held = none) :
    s.shownStatus key = s.statuses.get key := by
  have hheld' : s.heldStatus key = none := hheld
  rw [shownStatus, hheld', Option.getD_none]

/-- **A key that is finished stays finished**, and nobody asks anything for it any more. -/
theorem History.finished (h : History setup .start tr u) (h' : History setup u tr' s)
    (hq : QueueAlone setup (tr ++ tr')) (hfinished : u.shownStatus key = .finished) :
    s.shownStatus key = .finished ∧
      ∀ e ∈ tr', ∀ i tx options call, e.after.request? i = some (.enqueue tx options) →
        setup.keyOf tx = key → .called (.operation i) call ∉ e.seen := by
  induction h' with
  | nil => exact ⟨hfinished, fun e he => absurd he List.not_mem_nil⟩
  | @snoc tr' t v a seen h' hstep ih =>
    rw [← List.append_assoc] at hq
    obtain ⟨ht, hquiet⟩ := ih hq.of_append
    have hhist := h.append h'
    have hsound := hhist.sound_ledger hq.of_append key
    have hsound' := (hhist.snoc hstep).sound_ledger hq key
    have hstored : (v.ledger setup key).status = .finished :=
      hsound.finished_move (hsound.shown_eq_finished_iff.mp ht) (hhist.ledgerMove hstep hq key)
    refine ⟨hsound'.shown_eq_finished_iff.mpr hstored, fun e he => ?_⟩
    rcases List.mem_append.mp he with he | he
    · exact hquiet e he
    · obtain rfl := List.mem_singleton.mp he
      intro i tx options call hr hkey hcall
      subst hkey
      have hv := hhist.snoc hstep
      obtain ⟨previous, hi⟩ := holding?_of_called (hv.filed hq.through) hstep hr hcall
      have hheld : v.heldStatus (setup.keyOf tx) = some previous :=
        hv.statusGuarded.heldStatus_eq_some_iff.mpr ⟨i, hi⟩
      have hnone : v.heldStatus (setup.keyOf tx) = none := (hsound'.idle (by simp [hstored])).1
      simp [hheld] at hnone

/-- Two terms of a sum that is one at most are the same one. -/
theorem eq_of_sum_map_le_one {α : Type} {f : α → Nat} {l : List α} {i j : Nat} {b c : α}
    (hsum : (l.map f).sum ≤ 1) (hi : l[i]? = some b) (hj : l[j]? = some c) (hb : 0 < f b)
    (hc : 0 < f c) : i = j := by
  have hle {d : α} {l : List α} {k : Nat} (hk : l[k]? = some d) : f d ≤ (l.map f).sum :=
    List.le_sum_of_mem (List.mem_map_of_mem (List.mem_of_getElem? hk))
  induction l generalizing i j with
  | nil => simp at hi
  | cons d l ih =>
    rw [List.map_cons, List.sum_cons] at hsum
    cases i with
    | zero =>
      cases j with
      | zero => rfl
      | succ j =>
        obtain rfl : d = b := by simpa using hi
        have hrest := hle (l := l) (k := j) (by simpa using hj)
        omega
    | succ i =>
      have hrest := hle (l := l) (k := i) (by simpa using hi)
      cases j with
      | zero =>
        obtain rfl : d = c := by simpa using hj
        omega
      | succ j => exact congrArg _ (ih (by omega) (by simpa using hi) (by simpa using hj))

/-- A delivery under way is counted for its key. -/
theorem runs_eq_one {x : Delivery} (hopen : x.isOpen = true)
    (hkey : setup.keyOf x.current.tx = key) : x.runs setup key = 1 := if_pos ⟨hopen, hkey⟩

/-- **Two deliveries under way for a key are the same one.** -/
theorem eq_of_isOpen {d d' : DeliveryId} {x x' : Delivery} (hs : (s.ledger setup key).Sound)
    (hx : s.deliveries[d]? = some x) (hx' : s.deliveries[d']? = some x') (hopen : x.isOpen = true)
    (hopen' : x'.isOpen = true) (hkey : setup.keyOf x.current.tx = key)
    (hkey' : setup.keyOf x'.current.tx = key) : d = d' := by
  have hsum : (s.deliveries.map (Delivery.runs setup key)).sum ≤ 1 := by
    have hone := hs.one
    simp only [Ledger.underWay, ledger] at hone
    omega
  refine eq_of_sum_map_le_one hsum hx hx' ?_ ?_
  · rw [runs_eq_one hopen hkey]
    exact Nat.one_pos
  · rw [runs_eq_one hopen' hkey']
    exact Nat.one_pos

/-- A key has deliveries under way as long as one is. -/
theorem running_pos {d : DeliveryId} {x : Delivery} (hx : s.deliveries[d]? = some x)
    (hopen : x.isOpen = true) (hkey : setup.keyOf x.current.tx = key) :
    0 < (s.ledger setup key).running := by
  have hle : x.runs setup key ≤ (s.ledger setup key).running :=
    List.le_sum_of_mem (List.mem_map_of_mem (List.mem_of_getElem? hx))
  rw [runs_eq_one hopen hkey] at hle
  exact hle

/-- **One delivery for each key.** In every run in which the queue has the service to itself:

* at most one delivery is under way for a key, and meanwhile the key is pending, for the queue as
  for those who read its status;
* what readers get is the status that is shown, which stays or takes one of four steps, from not
  found to pending, from pending to finished or failed, and from failed to pending again;
* that a key is not found is never stored;
* a key that is shown to be finished is so for good, and no send for it asks anything any more;
* at most one confirmation of a key is published. -/
theorem History.one_per_key (h : History setup .start tr s) (hq : QueueAlone setup tr) :
    (∀ (d d' : DeliveryId) (x x' : Delivery), s.deliveries[d]? = some x →
      s.deliveries[d']? = some x' → x.isOpen = true → x'.isOpen = true →
      setup.keyOf x.current.tx = setup.keyOf x'.current.tx → d = d') ∧
    (∀ (d : DeliveryId) (x : Delivery), s.deliveries[d]? = some x → x.isOpen = true →
      s.statuses.get (setup.keyOf x.current.tx) = .pending ∧
        s.shownStatus (setup.keyOf x.current.tx) = .pending) ∧
    (∀ e ∈ tr, ∀ i key answer, e.before.request? i = some (.status key) →
      e.before.stage? i ≠ some (.ended answer) → e.after.stage? i = some (.ended answer) →
        answer = .status (e.before.shownStatus key)) ∧
    (∀ e ∈ tr, ∀ key, e.after.shownStatus key = e.before.shownStatus key ∨
      TxStatus.Shift (e.before.shownStatus key) (e.after.shownStatus key)) ∧
    s.statuses.Proper ∧
    (∀ pre post u key, tr = pre ++ post → History setup .start pre u →
      u.shownStatus key = .finished → s.shownStatus key = .finished ∧
        ∀ e ∈ post, ∀ i tx options call, e.after.request? i = some (.enqueue tx options) →
          setup.keyOf tx = key → .called (.operation i) call ∉ e.seen) ∧
    ∀ key, (confirmations setup key tr).length ≤ 1 := by
  have hfinal (key : κ) : (s.ledger setup key).Sound := h.sound_ledger hq key
  have haround : ∀ e ∈ tr, ∃ pre, History setup .start pre e.before ∧
      QueueAlone setup (pre ++ [e]) ∧ e.before.step? setup e.action = some (e.after, e.seen) := by
    intro e he
    obtain ⟨pre, post, rfl⟩ := List.append_of_mem he
    obtain ⟨hpre, hstep, -⟩ := h.around
    rw [List.append_cons] at hq
    exact ⟨pre, hpre, hq.of_append, hstep⟩
  refine ⟨?_, ?_, ?_, ?_, h.proper hq, ?_, fun key => (h.confirmations_le hq key).1⟩
  · intro d d' x x' hx hx' hopen hopen' hkey
    exact eq_of_isOpen (hfinal _) hx hx' hopen hopen' rfl hkey.symm
  · intro d x hx hopen
    have hpos : 0 < (s.ledger setup (setup.keyOf x.current.tx)).running :=
      running_pos hx hopen rfl
    have hsound := hfinal (setup.keyOf x.current.tx)
    have hstatus : s.statuses.get (setup.keyOf x.current.tx) = .pending :=
      hsound.pending (by simp only [Ledger.underWay]; omega)
    refine ⟨hstatus, ?_⟩
    rw [shownStatus_of_ledger (hsound.held_eq_none (by omega)), hstatus]
  · intro e he i key answer hr hst ht
    obtain ⟨pre, hpre, hq, hstep⟩ := haround e he
    exact hpre.status_of_read hstep hr hst ht
  · intro e he key
    obtain ⟨pre, hpre, hq, hstep⟩ := haround e he
    exact (hpre.sound_ledger hq.of_append key).shown_move (hpre.ledgerMove hstep hq key)
  · rintro pre post u key rfl hu hfinished
    obtain ⟨v, hv, hpost⟩ := h.split
    obtain rfl := hv.end_unique hu
    exact hu.finished hpost hq hfinished

/-- A run in which a key is sent, confirmed and marked, and then read and sent again. -/
def markedRun : List (Action Unit) :=
  [.startBookkeeper, .begin (.enqueue sampleTx {}), .resume 0, .resume 0,
    .reply (.operation 0) (.nonce 4), .reply (.operation 0) (.signed (sampleSigned 4)),
    .reply (.operation 0) (.accepted 4), .receive 0, .wait 10000, .poll 0,
    .reply (.listener 0) (.receipt (some ⟨4, 10, true⟩)), .reply (.listener 0) (.head 13), .join 0,
    .takeConfirm 0, .mark 0, .begin (.status ()), .resume 1, .begin (.enqueue sampleTx {}),
    .resume 2]

/-- In this run one confirmation is published, and no more. -/
theorem one_per_key_markedRun :
    ∃ tr s, History sampleSetup .start tr s ∧ tr.map (·.action) = markedRun ∧
      QueueAlone sampleSetup tr ∧ s.shownStatus () = .finished ∧
      confirmations sampleSetup () tr ≠ [] ∧ (confirmations sampleSetup () tr).length ≤ 1 := by
  have hrun : (start.trace? sampleSetup markedRun).map (fun r =>
      (r.1.all fun e => decide (ThroughQueue sampleSetup e.before e.action),
        r.1.countP (fun e => e.action = .startBookkeeper), r.2.shownStatus (),
        confirmations sampleSetup () r.1)) =
      some (true, 1, .finished, [⟨sampleSigned 4, ""⟩]) := by decide
  obtain ⟨tr, s, h, has, hb⟩ := exists_history hrun
  simp only [Prod.mk.injEq, List.all_eq_true, decide_eq_true_eq] at hb
  obtain ⟨hthrough, hcount, hshown, hconfirmed⟩ := hb
  have hq : QueueAlone sampleSetup tr := ⟨fun _ _ _ => rfl, hthrough, Nat.le_of_eq hcount⟩
  exact ⟨tr, s, h, has, hq, hshown, by simp [hconfirmed], (h.one_per_key hq).2.2.2.2.2.2 ()⟩

end Service

end TxDelivery
