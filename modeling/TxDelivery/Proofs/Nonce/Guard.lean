import TxDelivery.Proofs.History
import TxDelivery.Proofs.Nonce.Move

/-!
# Who is at work on the nonce

The nonce lock is wanted exclusively only, and **a submission at work on the nonce has it**
(`TxDelivery.Service.NonceGuarded`). So at most one submission asks for the nonce or is signed with
it, and meanwhile nobody else changes what is known of it: a nonce that is asked for is unknown, and
a nonce that is signed with is the one after the last, if the last is known.

The second half is what the lock is for, and could not be said of a step. Between the moment at
which a submission takes the nonce after the last and the signature that commits it, the submission
has nothing but the nonce it computed. That this still is the one after the last is an invariant of
the state (`TxDelivery.Service.NonceGuard`), and it holds because whoever commits or resets owns the
lock, and there is one owner.

The induction is on the run, with the step taken as what it does about the nonce. Two of these cases
end with nobody at work on it, a signature and a reset, each by the owner of the lock
(`TxDelivery.Service.NonceGuarded.idle_of_owner`). Three begin such work or go on with it, again by
the owner (`TxDelivery.Service.NonceGuarded.guard_of_owner`). In the remaining case nobody begins to
work on the nonce; others come to the lock and leave it, which does not take it from anybody.

From the invariant follow the two facts that are used everywhere else: a submission at work on the
nonce owns the lock (`TxDelivery.Service.NonceGuarded.ownedBy`), and whoever holds the lock owns it
(`TxDelivery.Service.NonceGuarded.ownedBy_of_heldBy`).
-/

namespace TxDelivery

variable {κ : Type}

namespace Service

/-- What holds of a submission that is at work on the nonce in some stage. -/
def NonceGuard (s : Service κ) (i : OperationId) : Submission.Stage → Prop
  | .fetching => s.nonceLock.OwnedBy i ∧ s.nonce = .unknown
  | .signing n => s.nonceLock.OwnedBy i ∧
      (s.nonce = .unknown ∨ ∃ last, s.nonce = .known last ∧ n = last + 1)
  | .pricing | .estimating | .queued | .broadcasting _ _ | .resetting _ => True

/-- **Whoever is at work on the nonce has the lock around it.** -/
structure NonceGuarded (s : Service κ) : Prop where
  /-- The lock is wanted exclusively. -/
  exclusive : ∀ i access, s.nonceLock.Wants i access → access = .exclusive
  /-- Submissions at work on the nonce have the lock. -/
  guard : ∀ i sub, s.stage? i = some (.submitting sub) → s.NonceGuard i sub.stage

variable {s t : Service κ} {i j : OperationId}

/-- A submission at work on the nonce owns the lock. -/
theorem NonceGuarded.ownedBy (hs : s.NonceGuarded) {sub : Submission κ}
    (hst : s.stage? i = some (.submitting sub)) (hholds : sub.stage.holdsNonce = true) :
    s.nonceLock.OwnedBy i := by
  have hguard := hs.guard i sub hst
  cases hstage : sub.stage with
  | fetching => exact (hstage ▸ hguard).1
  | signing n => exact (hstage ▸ hguard).1
  | _ => simp [hstage, Submission.Stage.holdsNonce] at hholds

/-- Who holds the lock owns it. -/
theorem NonceGuarded.ownedBy_of_heldBy (hs : s.NonceGuarded)
    (hheld : s.nonceLock.heldBy i = true) : s.nonceLock.OwnedBy i :=
  FairLock.ownedBy_of_mem_holders (FairLock.heldBy_iff.mp hheld) fun access =>
    hs.exclusive i access

/-- The guard of a submission depends on the nonce and on its lock. -/
theorem nonceGuard_congr {st : Submission.Stage} (hguard : s.NonceGuard i st)
    (hn : t.nonce = s.nonce)
    (hlock : st.holdsNonce = true → s.nonceLock.OwnedBy i → t.nonceLock.OwnedBy i) :
    t.NonceGuard i st := by
  cases st with
  | fetching => exact ⟨hlock rfl hguard.1, hn.trans hguard.2⟩
  | signing n => exact ⟨hlock rfl hguard.1, hn ▸ hguard.2⟩
  | _ => trivial

/-- Who is not at work needs no guard. -/
theorem nonceGuard_of_idle {st : Submission.Stage} (h : st.holdsNonce = false) :
    s.NonceGuard i st := by
  cases st with
  | fetching | signing => contradiction
  | _ => trivial

/-- A step that begins work on the nonce, or goes on with it, by the owner of the lock. -/
theorem NonceGuarded.guard_of_owner (hs : s.NonceGuarded) {st : Submission.Stage}
    {sub' : Submission κ} (hlock : t.nonceLock = s.nonceLock) (hn : t.nonce = s.nonce)
    (ht : t.stage? i = some (.submitting { sub' with stage := st }))
    (hothers : ∀ j, i ≠ j → t.stage? j = s.stage? j) (hguard : s.NonceGuard i st)
    {sub : Submission κ} (hj : t.stage? j = some (.submitting sub)) :
    t.NonceGuard j sub.stage := by
  have hkeep {k : OperationId} {st : Submission.Stage} (h : s.NonceGuard k st) :
      t.NonceGuard k st :=
    nonceGuard_congr h hn fun _ howned => hlock ▸ howned
  by_cases hij : i = j
  · subst hij
    obtain rfl : { sub' with stage := st } = sub := by simpa using ht.symm.trans hj
    exact hkeep hguard
  · exact hkeep (hs.guard j sub ((hothers j hij).symm.trans hj))

/-- A step after which nobody is at work on the nonce any more, by the owner of the lock. -/
theorem NonceGuarded.idle_of_owner (hs : s.NonceGuarded) (hown : s.nonceLock.OwnedBy i)
    (hidle : ∀ sub, t.stage? i = some (.submitting sub) → sub.stage.holdsNonce = false)
    (hothers : ∀ j, i ≠ j → t.stage? j = s.stage? j) {sub : Submission κ}
    (hj : t.stage? j = some (.submitting sub)) : sub.stage.holdsNonce = false := by
  by_cases hij : i = j
  · subst hij
    exact hidle sub hj
  · rw [hothers j hij] at hj
    cases hholds : sub.stage.holdsNonce with
    | false => rfl
    | true => exact absurd (hown.unique (hs.ownedBy hj hholds)) hij

variable [DecidableEq κ] {setup : Setup κ} {a : Action κ} {seen : List Observation}
  {tr : List (Transition κ)}

/-- The lock is wanted by those who wanted it, and by one more who wants it exclusively. -/
theorem wants_of_step? (h : s.step? setup a = some (t, seen)) {access : Access}
    (hw : t.nonceLock.Wants i access) : s.nonceLock.Wants i access ∨ access = .exclusive := by
  -- Every step leaves the lock alone, joins its line once, or leaves it.
  have hlock {lock : FairLock OperationId} {j : OperationId}
      (hl : lock = s.nonceLock ∨ lock = s.nonceLock.enter j .exclusive ∨
        lock = s.nonceLock.leave j) (hw : lock.Wants i access) :
      s.nonceLock.Wants i access ∨ access = .exclusive := by
    rcases hl with rfl | rfl | rfl
    · exact .inl hw
    · exact (FairLock.wants_enter.mp hw).imp_right (·.2)
    · exact .inl (FairLock.wants_leave.mp hw).1
  cases step_of_step? h with
  | operation h =>
    cases h with
    | submit _ _ hopen => exact hlock (hopen.nonce.2.1.imp_right .inl) hw
    | enqueue _ _ _ _ _ _ hopen => exact hlock (hopen.nonce.2.1.imp_right .inl) hw
    | price _ _ _ _ hopen => exact hlock (hopen.nonce.2.1.imp_right .inl) hw
    | refuse _ _ href | refuseQueued _ _ href =>
      cases href with
      | price | gas | broadcast => exact .inl hw
      | nonce | sign | forgotten => exact hlock (.inr (.inr rfl)) hw
    | forget | gas | tooLow => exact hlock (.inr (.inl rfl)) hw
    | forgotten | signed | drop | dropWaiting => exact hlock (.inr (.inr rfl)) hw
    | _ => exact .inl hw
  | delivery h => cases h <;> exact .inl hw
  | bookkeeper h => cases h <;> exact .inl hw
  | outside h => cases h <;> exact .inl hw

/-- **The nonce stays guarded.** -/
theorem NonceGuarded.step (hs : s.NonceGuarded) (h : s.step? setup a = some (t, seen)) :
    t.NonceGuarded := by
  refine ⟨fun i access hw => ?_, fun j sub hj => ?_⟩
  · rcases wants_of_step? h hw with hw | hw
    · exact hs.exclusive i access hw
    · exact hw
  · cases nonceMove_of_step? h with
    | still hn _ _ _ hold =>
      cases hholds : sub.stage.holdsNonce with
      | false => exact nonceGuard_of_idle hholds
      | true =>
        obtain ⟨hj', hlock⟩ := hold j sub hj hholds
        exact nonceGuard_congr (hs.guard j sub hj') hn fun _ => hlock
    | fetch _ _ _ hheld hnonce hn hlock _ ht hothers =>
      exact hs.guard_of_owner hlock hn ht hothers ⟨hs.ownedBy_of_heldBy hheld, hnonce⟩ hj
    | @take i _ last _ _ _ hheld hnonce hn hlock _ ht hothers =>
      exact hs.guard_of_owner hlock hn ht hothers
        ⟨hs.ownedBy_of_heldBy hheld, .inr ⟨last, hnonce, rfl⟩⟩ hj
    | @answered i sub' n _ hst hstage hn hlock _ ht hothers =>
      have hguard := hs.guard i sub' hst
      rw [hstage] at hguard
      exact hs.guard_of_owner hlock hn ht hothers ⟨hguard.1, .inl hguard.2⟩ hj
    | @commit i sub' n _ _ hst hstage _ _ ht hothers =>
      obtain ⟨deadline, ht⟩ := ht
      have hown := hs.ownedBy hst (by rw [hstage]; rfl)
      refine nonceGuard_of_idle (hs.idle_of_owner hown (fun sub'' hsub'' => ?_) hothers hj)
      obtain rfl : _ = sub'' := Operation.Stage.submitting.inj
        (Option.some.inj (ht.symm.trans hsub''))
      rfl
    | reset _ _ hheld _ _ ht hothers =>
      obtain ⟨answer, ht⟩ := ht
      have hown := hs.ownedBy_of_heldBy hheld
      refine nonceGuard_of_idle (hs.idle_of_owner hown (fun sub'' hsub'' => ?_) hothers hj)
      simp [ht] at hsub''

/-- **At every moment the nonce is guarded.** -/
theorem History.nonceGuarded (h : History setup .start tr s) : s.NonceGuarded := by
  refine h.invariant ⟨?_, ?_⟩ fun e _ hstep ih => ih.step hstep
  · intro i access hw
    simp [FairLock.Wants, Service.start, FairLock.free] at hw
  · intro i sub hst
    simp [Service.start, stage?] at hst

end Service

end TxDelivery
