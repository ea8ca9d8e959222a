import Mathlib.Logic.Relation
import TxDelivery.Proofs.Lock.Line
import TxDelivery.Proofs.Progress

/-!
# Nobody waits in a circle

A party that does not go on waits for another one: behind it in the line of a lock, or for the
outcome of its delivery (`TxDelivery.Service.WaitsFor`). **These waits never close a circle, and
follow to a party that is not stuck** (`TxDelivery.Service.History.no_deadlock`): one that can act,
whose question to the chain or the signer is still open, or whose timer is still running
(`TxDelivery.Service.Live`).

## Ranks

The two locks are taken in one order. Whoever stands in the line of the nonce lock either has
nothing to do with the status lock or owns it, so that the waits lead from the line of the status
lock to the line of the nonce lock and never back; within a line they lead to the front. This is the
measure `TxDelivery.Service.rank`, and every wait leads to a smaller one
(`TxDelivery.Service.WaitsFor.rank_lt`). A caller who waits for its delivery has a rank above that
of supervisors, who wait for nobody.

A party that waits for itself is a circle too, and a line in which it stood at two places would
make it one: it would hold the lock at the first and wait for it at the second. So it is part of the
statement that nobody stands in a line twice, and part of why a wait in a line leads to an earlier
place.

## Whoever does not wait

The rest is that a party that is not over is not stuck unless it waits for somebody
(`TxDelivery.Service.live_or_waits`). It goes through what a party can be at. Supervisors and
listeners are never stuck: they can act, have asked something, or have a timer, and every question
may be answered by a failure at least, so an open question is no dead end. For submissions, resets
and bookkeepers it is the lock they want that decides.

Both halves are about a single state in which lines are in order, stages suit the requests, and
callers and deliveries belong together. These are invariants of every run.
-/

namespace TxDelivery

variable {κ : Type}

/-- The party that takes an action on its own. -/
def Action.actor? : Action κ → Option Party
  | .resume i => some (.operation i)
  | .tick d | .expire d | .join d => some (.supervisor d)
  | .receive d | .poll d | .lapse d => some (.listener d)
  | .mark b | .stop b | .takeConfirm b | .takeError b => some (.bookkeeper b)
  | .begin _ | .drop _ | .reply _ _ | .crash _ | .startBookkeeper | .close | .subscribe _
  | .drain _ _ | .unsubscribe _ _ | .wait _ => none

namespace Service

open Relation

/-- Whether a party has something left to do: an operation or a delivery that is not over, a watch
that goes on, a bookkeeper with a key to mark. -/
def isUnfinished (s : Service κ) : Party → Bool
  | .operation i => s.operations[i]?.any (·.isOpen)
  | .supervisor d => s.deliveries[d]?.any (·.isOpen)
  | .listener d => s.deliveries[d]?.any fun x => !x.listener.isOver
  | .bookkeeper b => s.bookkeepers[b]?.any (·.isMarking)

/-- The timers a party waits for. -/
def timersOf (s : Service κ) : Party → List Nat
  | .supervisor d =>
    (s.deliveries[d]?.filter (·.isWaiting)).toList.flatMap fun x => [x.ticker.due, x.deadline]
  | .listener d =>
    (s.deliveries[d]?.filter (·.listener.isWaiting)).toList.flatMap fun x =>
      [x.listener.ticker.due, x.deadline]
  | .operation _ | .bookkeeper _ => []

/-- **One party waits for another.** -/
inductive WaitsFor (s : Service κ) : Party → Party → Prop where
  /-- It does not have the nonce lock, and the other is ahead in the line. -/
  | nonce {i j : OperationId} (hheld : s.nonceLock.heldBy i = false) (h : s.nonceLock.Ahead j i) :
      WaitsFor s (.operation i) (.operation j)
  /-- It does not have the status lock, and the other is ahead in the line. -/
  | statuses {p q : Party} (hheld : s.statusLock.heldBy p = false) (h : s.statusLock.Ahead q p) :
      WaitsFor s p q
  /-- It waits for the outcome of a delivery. -/
  | outcome {i : OperationId} {d : DeliveryId} (hst : s.stage? i = some (.supervising d)) :
      WaitsFor s (.operation i) (.supervisor d)

/-- **A party that is not stuck.** -/
inductive Live [DecidableEq κ] (setup : Setup κ) (s : Service κ) (p : Party) : Prop where
  /-- It can take a step. -/
  | acts {a : Action κ} {m : Move κ} (ha : a.actor? = some p) (h : s.step? setup a = some m)
  /-- Its question is open, and it can go on whatever failure it gets for a reply. -/
  | asks {call : Call} (hcall : s.pending? setup p = some call)
      (hreply : ∀ e, ∃ m, s.step? setup (.reply p (.failed e)) = some m)
  /-- Its timer is running. -/
  | sleeps {time : Nat} (htime : time ∈ s.timersOf p) (hlater : s.now < time)

variable {s t : Service κ} {i j : OperationId} {d : DeliveryId} {b : BookkeeperId} {p q : Party}
  {st : Operation.Stage κ}

/-! ### Who stands in line is not over -/

/-- An operation in a stage that is not the last. -/
theorem isUnfinished_operation (hst : s.stage? i = some st) (hended : ∀ a, st ≠ .ended a)
    (hdropped : st ≠ .dropped) : s.isUnfinished (.operation i) = true := by
  obtain ⟨o, ho, rfl⟩ := Option.map_eq_some_iff.mp hst
  cases hstage : o.stage with
  | ended a => exact absurd hstage (hended a)
  | dropped => exact absurd hstage hdropped
  | _ => simp [isUnfinished, ho, Operation.isOpen, hstage]

/-- **Whoever stands in the line of the nonce lock is not over.** -/
theorem isUnfinished_of_wantsNonce (h : s.wantsNonce i = true) :
    s.isUnfinished (.operation i) = true := by
  obtain ⟨st, hst, hwants⟩ := (Option.any_eq_true _ _).mp h
  refine isUnfinished_operation hst ?_ ?_
  · rintro a rfl
    contradiction
  · rintro rfl
    contradiction

/-- **Whoever stands in the line of the status lock is not over.** -/
theorem isUnfinished_of_wantsStatuses (h : s.wantsStatuses p = true) :
    s.isUnfinished p = true := by
  cases p with
  | operation i =>
    obtain ⟨st, hst, hwants⟩ := (Option.any_eq_true _ _).mp h
    refine isUnfinished_operation hst ?_ ?_
    · rintro a rfl
      contradiction
    · rintro rfl
      contradiction
  | bookkeeper b => exact h
  | supervisor d => contradiction
  | listener d => contradiction

/-! ### Waits lead to the front of a line -/

/-- How many waits there are at most from a party on: those in the line of the nonce lock come
first, those in the line of the status lock after them. -/
def rank (s : Service κ) : Party → Nat
  | .operation i =>
    if i ∈ s.nonceLock.line then 1 + s.nonceLock.line.idxOf i
    else 1 + s.nonceLock.line.length +
      if .operation i ∈ s.statusLock.line then s.statusLock.line.idxOf (.operation i) else 0
  | .bookkeeper b => 1 + s.nonceLock.line.length + s.statusLock.line.idxOf (.bookkeeper b)
  | .supervisor _ | .listener _ => 0

/-- Who is behind in the line of the status lock has nothing to do with the nonce lock. -/
theorem not_mem_nonceLine (hlined : s.Lined) (hguarded : s.StatusGuarded)
    (h : s.statusLock.Ahead q (.operation i)) : i ∉ s.nonceLock.line := by
  intro hnonce
  have hstatuses := (hlined.statuses.mem_iff _).mp h.mem_right
  obtain ⟨st, hst, hwants⟩ := (Option.any_eq_true _ _).mp ((hlined.nonce.mem_iff i).mp hnonce)
  rw [wantsStatuses_eq hst] at hstatuses
  -- A stage that wants both locks holds a key, and whoever holds a key has the status lock.
  have hholding : st.holding?.isSome = true := by
    cases st with
    | submitting sub => exact hstatuses
    | _ => contradiction
  have hown := hguarded.owned (i := i) (by
    rw [holding?_eq hst]
    exact Option.isSome_iff_ne_none.mp hholding)
  exact hown.not_ahead hlined.statuses.nodup h

/-- **Every wait leads to a party of smaller rank.** -/
theorem WaitsFor.rank_lt (h : s.WaitsFor p q) (hlined : s.Lined) (hguarded : s.StatusGuarded) :
    s.rank q < s.rank p := by
  cases h with
  | nonce _ h =>
    have hlt := h.idxOf_lt hlined.nonce.nodup
    simp only [rank, if_pos h.mem_left, if_pos h.mem_right]
    omega
  | statuses _ h =>
    have hlt := h.idxOf_lt hlined.statuses.nodup
    have hbehind : s.rank p = 1 + s.nonceLock.line.length + s.statusLock.line.idxOf p := by
      cases p with
      | operation i =>
        have hout := not_mem_nonceLine hlined hguarded h
        simp only [rank, if_neg hout, if_pos h.mem_right]
      | bookkeeper b => rfl
      | supervisor d | listener d =>
        have hwants := (hlined.statuses.mem_iff _).mp h.mem_right
        contradiction
    rw [hbehind]
    cases q with
    | operation j =>
      simp only [rank, if_pos h.mem_left]
      split
      case isTrue hmem =>
        have hplace := List.idxOf_lt_length_of_mem hmem
        omega
      case isFalse => omega
    | bookkeeper b =>
      simp only [rank]
      omega
    | supervisor d | listener d =>
      simp only [rank]
      omega
  | outcome hst =>
    simp only [rank]
    split <;> omega

/-- **Nobody waits for itself**, over however many others. -/
theorem not_waits_circle (hlined : s.Lined) (hguarded : s.StatusGuarded) :
    ¬ TransGen s.WaitsFor p p := by
  intro h
  have hlt {q : Party} (h : TransGen s.WaitsFor p q) : s.rank q < s.rank p := by
    induction h with
    | single h => exact h.rank_lt hlined hguarded
    | tail _ h ih => exact Nat.lt_trans (h.rank_lt hlined hguarded) ih
  exact Nat.lt_irrefl _ (hlt h)

/-! ### Who does not wait is not stuck -/

section Live

variable [DecidableEq κ] {setup : Setup κ} {x : Delivery}

/-- **A submission is not stuck** unless it waits for the nonce lock. -/
theorem live_of_submitting {sub : Submission κ} (hst : s.stage? i = some (.submitting sub))
    (hheld : sub.stage.wantsNonce = true → s.nonceLock.heldBy i = true) :
    Live setup s (.operation i) := by
  obtain ⟨o, ho, hstage⟩ := Option.map_eq_some_iff.mp hst
  have hasks {call : Call} (hcall : s.pending? setup (.operation i) = some call)
      (hreply : ∀ e, (s.replySubmission setup i sub (.failed e)).isSome = true) :
      Live setup s (.operation i) := by
    refine .asks hcall fun e => Option.isSome_iff_exists.mp ?_
    simpa [step?, act?, reply?, replyOperation?, ho, hstage] using hreply e
  have hacts (hwants : sub.stage.wantsNonce = true)
      (hresume : (s.resumeSubmission setup i sub).isSome = true) :
      Live setup s (.operation i) := by
    obtain ⟨m, hm⟩ := Option.isSome_iff_exists.mp hresume
    refine .acts (a := .resume i) (m := m) rfl ?_
    simpa [step?, act?, resume?, ho, hstage, hheld hwants] using hm
  cases hs : sub.stage with
  | pricing | estimating | fetching | signing | broadcasting =>
    exact hasks (by simp [pending?, ho, hstage, hs]; rfl) fun e => by simp [replySubmission, hs]
  | queued =>
    refine hacts (by rw [hs]; rfl) ?_
    simp only [resumeSubmission, hs]
    split <;> rfl
  | resetting e => exact hacts (by rw [hs]; rfl) (by simp [resumeSubmission, hs])

/-- An operation that holds the status lock it waited for goes on with it. -/
theorem live_of_entering (hsuited : s.Suited) (hst : s.stage? i = some .entering)
    (hheld : s.statusLock.heldBy (.operation i) = true) : Live setup s (.operation i) := by
  obtain ⟨o, ho, hstage⟩ := Option.map_eq_some_iff.mp hst
  have hr : s.request? i = some o.request := by simp [request?, ho]
  obtain ⟨m, hm⟩ : ∃ m, s.enterRequest setup i o.request = some m := by
    cases hsuited hr hst with
    | entering haccess =>
      cases hreq : o.request <;> simp [Request.access?, hreq] at haccess <;> exact ⟨_, rfl⟩
  refine .acts (a := .resume i) (m := m) rfl ?_
  simpa [step?, act?, resume?, ho, hstage, hheld] using hm

/-- A reset that holds the nonce lock goes on with it. -/
theorem live_of_resetting (hst : s.stage? i = some .resetting)
    (hheld : s.nonceLock.heldBy i = true) : Live setup s (.operation i) := by
  obtain ⟨o, ho, hstage⟩ := Option.map_eq_some_iff.mp hst
  refine .acts (a := .resume i) (m := ((s.forgetNonce i).finish i .done, [])) rfl ?_
  simp [step?, act?, resume?, ho, hstage, hheld]

/-- An escalation takes every failure for a reply. -/
theorem exists_advance?_failed (percent : UInt64) (e : Escalation) (err : ChainError) :
    ∃ progress, e.advance? percent (.failed err) = some progress := by
  cases hs : e.stage <;> exact ⟨_, by simp only [Escalation.advance?, hs]; rfl⟩

/-- An estimate for a caller is asked for. -/
theorem live_of_estimating (hsuited : s.Suited) (hst : s.stage? i = some .estimating) :
    Live setup s (.operation i) := by
  obtain ⟨o, ho, hstage⟩ := Option.map_eq_some_iff.mp hst
  have hr : s.request? i = some o.request := by simp [request?, ho]
  cases hsuited hr hst with
  | estimating hreq =>
    refine .asks (by simp [pending?, ho, hstage, hreq]; rfl) fun e =>
      Option.isSome_iff_exists.mp ?_
    simp [step?, act?, reply?, replyOperation?, ho, hstage]

/-- A replacement for a caller asks for something. -/
theorem live_of_replacing {e : Escalation} (hst : s.stage? i = some (.replacing e)) :
    Live setup s (.operation i) := by
  obtain ⟨o, ho, hstage⟩ := Option.map_eq_some_iff.mp hst
  have hcall : s.pending? setup (.operation i) = some e.call := by simp [pending?, ho, hstage]
  refine .asks hcall fun err => ?_
  obtain ⟨progress, hp⟩ := exists_advance?_failed setup.config.priceBumpPercent e err
  refine Option.isSome_iff_exists.mp ?_
  simp only [step?, act?, reply?, replyOperation?, ho, hstage, hp, Option.bind_eq_bind,
    Option.bind_some]
  rcases progress with e' | err | tx <;> rfl

/-- **A supervisor is never stuck.** -/
theorem live_of_supervisor (hx : s.deliveries[d]? = some x) (hopen : x.isOpen = true) :
    Live setup s (.supervisor d) := by
  cases hs : x.stage with
  | waiting =>
    have hwaiting : x.isWaiting = true := Delivery.isWaiting_iff.mpr hs
    by_cases hdue : x.ticker.due ≤ s.now
    · obtain ⟨m, hm⟩ := exists_tick? hx hwaiting hdue
      exact .acts (a := .tick d) rfl hm
    · have hmem : x.ticker.due ∈ s.timersOf (.supervisor d) := by simp [timersOf, hx, hwaiting]
      exact .sleeps hmem (Nat.lt_of_not_le hdue)
  | replacing e =>
    have hcall : s.pending? setup (.supervisor d) = some e.call := by
      simp [pending?, hx, Delivery.call?, hs]
    refine .asks hcall fun err => ?_
    obtain ⟨progress, hp⟩ := exists_advance?_failed setup.config.priceBumpPercent e err
    refine Option.isSome_iff_exists.mp ?_
    simp [step?, act?, reply?, replySupervisor?, hx, hs, hp]
  | rebroadcasting tx =>
    have hcall : s.pending? setup (.supervisor d) = some (.broadcast tx) := by
      simp [pending?, hx, Delivery.call?, hs]
    refine .asks hcall fun err => ?_
    refine Option.isSome_iff_exists.mp ?_
    simp [step?, act?, reply?, replySupervisor?, hx, hs]
  | ended outcome | dropped => simp [Delivery.isOpen, hs] at hopen

/-- **A listener is never stuck.** -/
theorem live_of_listener (hx : s.deliveries[d]? = some x) (hl : x.listener.isOver = false) :
    Live setup s (.listener d) := by
  cases hs : x.listener.stage with
  | waiting =>
    have hwaiting : x.listener.isWaiting = true := by simp [Listener.isWaiting, hs]
    by_cases hdue : x.listener.ticker.due ≤ s.now
    · obtain ⟨m, hm⟩ : ∃ m, s.poll? d = some m := Option.isSome_iff_exists.mp (by
        simp [Service.poll?, hx, Listener.poll?, hwaiting, Ticker.isDue, hdue])
      exact .acts (a := .poll d) rfl hm
    · have hmem : x.listener.ticker.due ∈ s.timersOf (.listener d) := by
        simp [timersOf, hx, hwaiting]
      exact .sleeps hmem (Nat.lt_of_not_le hdue)
  | querying tx rest =>
    have hcall : s.pending? setup (.listener d) = some (.receipt tx.hash) := by
      simp [pending?, hx, Listener.call?, hs]
    refine .asks hcall fun e => ?_
    refine Option.isSome_iff_exists.mp ?_
    simp [step?, act?, reply?, replyListener?, hx, Listener.advance?, hs]
  | weighing tx receipt rest =>
    have hcall : s.pending? setup (.listener d) = some .head := by
      simp [pending?, hx, Listener.call?, hs]
    refine .asks hcall fun e => ?_
    refine Option.isSome_iff_exists.mp ?_
    simp [step?, act?, reply?, replyListener?, hx, Listener.advance?, hs]
  | returned mined | stopped => simp [Listener.isOver, hs] at hl

/-- A bookkeeper that holds the status lock marks its key. -/
theorem live_of_marking (h : s.isUnfinished (.bookkeeper b) = true)
    (hheld : s.statusLock.heldBy (.bookkeeper b) = true) : Live setup s (.bookkeeper b) := by
  obtain ⟨k, hk, hmarking⟩ := (Option.any_eq_true _ _).mp h
  cases hs : k.stage with
  | marking key status =>
    obtain ⟨m, hm⟩ : ∃ m, s.mark? b = some m := ⟨_, by simp [mark?, hk, hs, hheld]; rfl⟩
    exact .acts (a := .mark b) rfl hm
  | idle | stopped => simp [Bookkeeper.isMarking, hs] at hmarking

/-- **Whoever holds the nonce lock is not stuck.** -/
theorem live_of_nonceHeld (hlined : s.Lined) (hheld : s.nonceLock.heldBy i = true) :
    Live setup s (.operation i) := by
  have hmem := FairLock.mem_line_of_mem_holders (FairLock.heldBy_iff.mp hheld)
  obtain ⟨st, hst, hwants⟩ := (Option.any_eq_true _ _).mp ((hlined.nonce.mem_iff i).mp hmem)
  cases st with
  | submitting sub => exact live_of_submitting hst fun _ => hheld
  | resetting => exact live_of_resetting hst hheld
  | _ => contradiction

omit [DecidableEq κ] in
/-- Whoever wants the nonce lock and does not hold it waits for somebody who does. -/
theorem exists_waitsFor_nonce (hlined : s.Lined) (hwants : s.wantsNonce i = true)
    (hheld : s.nonceLock.heldBy i = false) :
    ∃ j, s.nonceLock.heldBy j = true ∧ s.WaitsFor (.operation i) (.operation j) := by
  have hx : i ∉ s.nonceLock.holders := fun hmem => by
    rw [FairLock.heldBy_iff.mpr hmem] at hheld
    contradiction
  obtain ⟨j, hj, hahead⟩ := FairLock.exists_ahead ((hlined.nonce.mem_iff i).mpr hwants) hx
  exact ⟨j, FairLock.heldBy_iff.mpr hj, .nonce hheld hahead⟩

omit [DecidableEq κ] in
/-- Whoever wants the status lock and does not hold it waits for somebody who does. -/
theorem exists_waitsFor_statuses (hlined : s.Lined) (hwants : s.wantsStatuses p = true)
    (hheld : s.statusLock.heldBy p = false) :
    ∃ q, s.statusLock.heldBy q = true ∧ s.WaitsFor p q := by
  have hx : p ∉ s.statusLock.holders := fun hmem => by
    rw [FairLock.heldBy_iff.mpr hmem] at hheld
    contradiction
  obtain ⟨q, hq, hahead⟩ := FairLock.exists_ahead ((hlined.statuses.mem_iff p).mpr hwants) hx
  exact ⟨q, FairLock.heldBy_iff.mpr hq, .statuses hheld hahead⟩

omit [DecidableEq κ] in
/-- Whoever holds the status lock is not over. -/
theorem isUnfinished_of_statusHeld (hlined : s.Lined) (hheld : s.statusLock.heldBy p = true) :
    s.isUnfinished p = true :=
  isUnfinished_of_wantsStatuses ((hlined.statuses.mem_iff p).mp
    (FairLock.mem_line_of_mem_holders (FairLock.heldBy_iff.mp hheld)))

omit [DecidableEq κ] in
/-- Whoever holds the nonce lock is not over. -/
theorem isUnfinished_of_nonceHeld (hlined : s.Lined) (hheld : s.nonceLock.heldBy i = true) :
    s.isUnfinished (.operation i) = true :=
  isUnfinished_of_wantsNonce ((hlined.nonce.mem_iff i).mp
    (FairLock.mem_line_of_mem_holders (FairLock.heldBy_iff.mp hheld)))

/-- **An operation that is not over** is not stuck, or waits for a party that is not over. -/
theorem live_or_waits_operation (hlined : s.Lined) (hsuited : s.Suited) (howned : s.Owned)
    (h : s.isUnfinished (.operation i) = true) :
    Live setup s (.operation i) ∨
      ∃ q, s.WaitsFor (.operation i) q ∧ s.isUnfinished q = true := by
  obtain ⟨o, ho, hopen⟩ := (Option.any_eq_true _ _).mp h
  have hst : s.stage? i = some o.stage := by simp [stage?, ho]
  have hnonce (hwants : s.wantsNonce i = true) (hheld : s.nonceLock.heldBy i = false) :
      ∃ q, s.WaitsFor (.operation i) q ∧ s.isUnfinished q = true := by
    obtain ⟨j, hj, hwaits⟩ := exists_waitsFor_nonce hlined hwants hheld
    exact ⟨_, hwaits, isUnfinished_of_nonceHeld hlined hj⟩
  cases hstage : o.stage with
  | entering =>
    rw [hstage] at hst
    cases hheld : s.statusLock.heldBy (.operation i) with
    | true => exact .inl (live_of_entering hsuited hst hheld)
    | false =>
      obtain ⟨q, hq, hwaits⟩ := exists_waitsFor_statuses hlined (wantsStatuses_eq hst) hheld
      exact .inr ⟨q, hwaits, isUnfinished_of_statusHeld hlined hq⟩
  | submitting sub =>
    rw [hstage] at hst
    cases hheld : s.nonceLock.heldBy i with
    | true => exact .inl (live_of_submitting hst fun _ => hheld)
    | false =>
      cases hwants : sub.stage.wantsNonce with
      | true => exact .inr (hnonce ((wantsNonce_eq hst).trans hwants) hheld)
      | false => exact .inl (live_of_submitting hst fun hcontra => by simp [hwants] at hcontra)
  | supervising d =>
    rw [hstage] at hst
    obtain ⟨x, hx, howner⟩ := howned.waits hst
    refine .inr ⟨.supervisor d, .outcome hst, ?_⟩
    simp [isUnfinished, hx, (howned.eq_of_supervising hx howner hst).2]
  | estimating => exact .inl (live_of_estimating hsuited (hstage ▸ hst))
  | replacing e => exact .inl (live_of_replacing (hstage ▸ hst))
  | resetting =>
    rw [hstage] at hst
    cases hheld : s.nonceLock.heldBy i with
    | true => exact .inl (live_of_resetting hst hheld)
    | false => exact .inr (hnonce (wantsNonce_eq hst) hheld)
  | ended a | dropped => simp [Operation.isOpen, hstage] at hopen

/-- **A party that is not over** is not stuck, or waits for a party that is not over. -/
theorem live_or_waits (hlined : s.Lined) (hsuited : s.Suited) (howned : s.Owned)
    (h : s.isUnfinished p = true) :
    Live setup s p ∨ ∃ q, s.WaitsFor p q ∧ s.isUnfinished q = true := by
  cases p with
  | operation i => exact live_or_waits_operation hlined hsuited howned h
  | supervisor d =>
    obtain ⟨x, hx, hopen⟩ := (Option.any_eq_true _ _).mp h
    exact .inl (live_of_supervisor hx hopen)
  | listener d =>
    obtain ⟨x, hx, hover⟩ := (Option.any_eq_true _ _).mp h
    exact .inl (live_of_listener hx (by simpa using hover))
  | bookkeeper b =>
    cases hheld : s.statusLock.heldBy (.bookkeeper b) with
    | true => exact .inl (live_of_marking h hheld)
    | false =>
      have hwants : s.wantsStatuses (.bookkeeper b) = true := h
      obtain ⟨q, hq, hwaits⟩ := exists_waitsFor_statuses hlined hwants hheld
      exact .inr ⟨q, hwaits, isUnfinished_of_statusHeld hlined hq⟩

/-- **Waits lead to a party that is not stuck**, by induction on the rank. -/
theorem exists_live (hlined : s.Lined) (hguarded : s.StatusGuarded) (hsuited : s.Suited)
    (howned : s.Owned) (h : s.isUnfinished p = true) :
    ∃ q, ReflTransGen s.WaitsFor p q ∧ Live setup s q := by
  induction hn : s.rank p using Nat.strongRecOn generalizing p with
  | ind n ih =>
    subst hn
    have hor : Live setup s p ∨ ∃ q, s.WaitsFor p q ∧ s.isUnfinished q = true :=
      live_or_waits hlined hsuited howned h
    obtain hlive | ⟨q, hwaits, hq⟩ := hor
    · exact ⟨p, .refl, hlive⟩
    · obtain ⟨r, hr, hlive⟩ := ih _ (hwaits.rank_lt hlined hguarded) hq rfl
      exact ⟨r, .head hwaits hr, hlive⟩

variable {tr : List (Transition κ)}

/-- **No deadlock.** At every moment of every run, whoever is not over waits, over finitely many
others if at all, for a party that can act, whose question is open or whose timer is running.
Nobody waits for itself in a circle, and both locks belong to parties that are not over. Nobody
stands twice in the line of a lock, so that nobody waits for a lock it holds itself: a submission
that comes back to the nonce lock to reset the nonce holds it or waits for another operation that
holds it and is not stuck. -/
theorem History.no_deadlock (h : History setup .start tr s) :
    (∀ p, s.isUnfinished p = true → ∃ q, ReflTransGen s.WaitsFor p q ∧ Live setup s q) ∧
    (∀ p, ¬ TransGen s.WaitsFor p p) ∧
    s.nonceLock.line.Nodup ∧ s.statusLock.line.Nodup ∧
    (∀ i, s.nonceLock.heldBy i = true → s.isUnfinished (.operation i) = true) ∧
    (∀ p, s.statusLock.heldBy p = true → s.isUnfinished p = true) ∧
    (∀ i sub e, s.stage? i = some (.submitting sub) → sub.stage = .resetting e →
      Live setup s (.operation i) ∨
        ∃ j, j ≠ i ∧ s.nonceLock.heldBy j = true ∧ s.WaitsFor (.operation i) (.operation j) ∧
          Live setup s (.operation j)) := by
  have hlined := h.lined
  have hguarded := h.statusGuarded
  refine ⟨fun p hp => exists_live hlined hguarded h.suits h.owned hp,
    fun p => not_waits_circle hlined hguarded, hlined.nonce.nodup, hlined.statuses.nodup,
    fun i hi => isUnfinished_of_nonceHeld hlined hi,
    fun p hp => isUnfinished_of_statusHeld hlined hp, fun i sub e hst hs => ?_⟩
  cases hheld : s.nonceLock.heldBy i with
  | true => exact .inl (live_of_nonceHeld hlined hheld)
  | false =>
    have hwants : s.wantsNonce i = true := by
      rw [wantsNonce_eq hst, Operation.Stage.wantsNonce, hs]
      rfl
    obtain ⟨j, hj, hwaits⟩ := exists_waitsFor_nonce hlined hwants hheld
    refine .inr ⟨j, ?_, hj, hwaits, live_of_nonceHeld hlined hj⟩
    rintro rfl
    exact not_waits_circle hlined hguarded (.single hwaits)

end Live

/-- A run in which the nonce of a send through the queue proves too low while a second send is
signed, and a third one waits for the first. -/
def entangledRun : List (Action Unit) :=
  [.begin (.enqueue sampleTx {}), .resume 0, .resume 0, .reply (.operation 0) (.nonce 5),
    .reply (.operation 0) (.signed (sampleSigned 5)), .begin (.send (transfer 1) {}), .resume 1,
    .reply (.operation 0) (.failed (.nonceTooLow "nonce too low")), .begin (.enqueue sampleTx {})]

/-- At the end of this run the third send waits for the first, which waits for the second to reset
the nonce; these waits lead to somebody who is not stuck. -/
theorem no_deadlock_entangledRun :
    ∃ (tr : List (Transition Unit)) (s : Service Unit), History sampleSetup .start tr s ∧
      tr.map (·.action) = entangledRun ∧ s.isUnfinished (.operation 2) = true ∧
      (∃ sub, s.stage? 0 = some (.submitting sub) ∧
        sub.stage = .resetting (.nonceTooLow "nonce too low")) ∧
      s.nonceLock.queue = [(1, .exclusive), (0, .exclusive)] ∧
      s.statusLock.queue = [(.operation 0, .exclusive), (.operation 2, .exclusive)] ∧
      (∃ q, ReflTransGen s.WaitsFor (.operation 2) q ∧ Live sampleSetup s q) ∧
      s.nonceLock.line.Nodup ∧ s.statusLock.line.Nodup ∧
      (Live sampleSetup s (.operation 0) ∨
        ∃ j, j ≠ 0 ∧ s.nonceLock.heldBy j = true ∧ s.WaitsFor (.operation 0) (.operation j) ∧
          Live sampleSetup s (.operation j)) := by
  have hrun : (start.trace? sampleSetup entangledRun).map (fun r =>
      decide (r.2.isUnfinished (.operation 2) = true ∧
        r.2.stage? 0 = some (.submitting ⟨.queue () .notFound, { sampleTx with sender := 7 }, {},
          .resetting (.nonceTooLow "nonce too low")⟩) ∧
        r.2.nonceLock.queue = [(1, .exclusive), (0, .exclusive)] ∧
        r.2.statusLock.queue = [(.operation 0, .exclusive), (.operation 2, .exclusive)])) =
      some true := by decide
  obtain ⟨tr, s, h, has, hs⟩ := exists_history hrun
  obtain ⟨hopen, hst, hnonce, hstatuses⟩ := of_decide_eq_true hs
  obtain ⟨hlive, -, honce, honce', -, -, hreset⟩ := h.no_deadlock
  exact ⟨tr, s, h, has, hopen, ⟨_, hst, rfl⟩, hnonce, hstatuses, hlive _ hopen, honce, honce',
    hreset 0 _ _ hst rfl⟩

end Service

end TxDelivery
