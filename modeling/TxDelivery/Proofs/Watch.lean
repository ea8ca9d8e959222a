import TxDelivery.Watch

/-!
# Nobody sleeps through a change

A receiver remembers two numbers of its channel, the version it has seen and the count of wake-ups
at which it fell asleep, and a poll compares them with the channel's. **What it learns does not
depend on them** (`TxDelivery.Watch.Tracks.poll_eq`): it is what anyone would learn who looks at the
channel now (`TxDelivery.Watch.verdict`), whether the receiver is new, a copy of another, in the
middle of a wait, or has seen the value before.

This needs what a receiver remembers to stay true of the channel (`TxDelivery.Watch.Tracks`), and it
does, whatever the sender and the receivers do. Both numbers are needed: a wait that was woken
because the sender went has seen the present version, and one that was woken for a new value has
not.

The danger is a poll that answers from memory. In the middle of a wait a receiver that has seen the
present version does not look at the value again, which would be wrong if the value had been wanted
when it was seen; and one that fell asleep goes on sleeping as long as it was not woken, which would
be wrong if something had happened since. The invariant rules out both. Whoever is in a wait that
has seen the present version does not want the value, and whoever has not been woken has missed
nothing.

That nothing is missed is kept by the sender, who changes the value and counts the wake-up in one
step (`TxDelivery.Watch.Tracks.replace`, `TxDelivery.Watch.Tracks.close`). There is no moment in
between at which a receiver could fall asleep.

The channel may carry anything and the receiver may wait for anything, as long as it waits for one
thing all the time. A copy starts without the wait of the receiver it was made from, and may wait
for something else.
-/

namespace TxDelivery

namespace Watch

variable {α : Type} {w : Watch α} {wanted : α → Bool} {r : Receiver}

/-! ### What there is to learn -/

/-- **What a look at the channel tells.** -/
def verdict (w : Watch α) (wanted : α → Bool) : Poll α :=
  if wanted w.value then .found w.value else if w.alive then .pending else .closed

theorem verdict_of_unwanted (h : wanted w.value = false) :
    w.verdict wanted = if w.alive then .pending else .closed := by
  simp [verdict, h]

/-- A look leads to an end unless something else may come. -/
theorem isReady_verdict : (w.verdict wanted).isReady = (wanted w.value || !w.alive) := by
  cases hwanted : wanted w.value <;> cases halive : w.alive <;>
    simp [verdict, hwanted, halive, Poll.isReady]

theorem fst_fallAsleep (w : Watch α) (r : Receiver) :
    (w.fallAsleep r).1 = if w.alive then .pending else .closed := by
  rw [fallAsleep]
  split <;> rfl

theorem fst_look (w : Watch α) (wanted : α → Bool) : (w.look wanted).1 = w.verdict wanted := by
  rw [look, verdict]
  split
  · rfl
  · exact fst_fallAsleep w _

/-! ### What a receiver remembers -/

/-- **A receiver tracks its channel**, as one that waits for nothing but what is wanted: what it
remembers is not ahead of the channel, a wait it left unfinished does not want the version it has
seen, and as long as that wait was not woken nothing has happened. -/
structure Tracks (w : Watch α) (wanted : α → Bool) (r : Receiver) : Prop where
  /-- No version is seen before it comes. -/
  seen_le : r.seen ≤ w.version
  /-- No wake-up is counted before it comes. -/
  waitingSince_le : ∀ k, r.waitingSince = some k → k ≤ w.wakes
  /-- Who waits has not seen what is wanted. -/
  unwanted : r.waitingSince ≠ none → r.seen = w.version → wanted w.value = false
  /-- Who sleeps has missed nothing. -/
  missed_nothing : w.sleeps r = true → r.seen = w.version ∧ w.alive = true

theorem sleeps_eq_true_iff : w.sleeps r = true ↔ r.waitingSince = some w.wakes := by
  simp [sleeps]

/-- A receiver that is not in a wait tracks its channel. -/
theorem tracks_of_waitingSince (hseen : r.seen ≤ w.version) (hnone : r.waitingSince = none) :
    w.Tracks wanted r where
  seen_le := hseen
  waitingSince_le k hk := by simp [hnone] at hk
  unwanted h := absurd hnone h
  missed_nothing h := by simp [sleeps, hnone] at h

/-- New receivers track their channel. -/
theorem tracks_subscribe : w.Tracks wanted w.subscribe :=
  tracks_of_waitingSince (Nat.le_refl _) rfl

/-- Copies of receivers track their channel, and so do receivers that give up waiting. -/
theorem Tracks.withoutWait (h : w.Tracks wanted r) : w.Tracks wanted r.withoutWait :=
  tracks_of_waitingSince h.seen_le rfl

/-- **A new value is news to everyone**, and wakes all who sleep. -/
theorem Tracks.replace (h : w.Tracks wanted r) (value : α) :
    (w.replace value).Tracks wanted r where
  seen_le := Nat.le_succ_of_le h.seen_le
  waitingSince_le k hk := Nat.le_succ_of_le (h.waitingSince_le k hk)
  unwanted _ hseen := by
    have hle := h.seen_le
    rw [hseen] at hle
    exact absurd hle (Nat.not_succ_le_self _)
  missed_nothing hsleeps := by
    have hle := h.waitingSince_le _ (sleeps_eq_true_iff.mp hsleeps)
    exact absurd hle (Nat.not_succ_le_self _)

/-- **That the sender goes wakes all who sleep**, though it is no new value. -/
theorem Tracks.close (h : w.Tracks wanted r) : w.close.Tracks wanted r where
  seen_le := h.seen_le
  waitingSince_le k hk := Nat.le_succ_of_le (h.waitingSince_le k hk)
  unwanted := h.unwanted
  missed_nothing hsleeps := by
    have hle := h.waitingSince_le _ (sleeps_eq_true_iff.mp hsleeps)
    exact absurd hle (Nat.not_succ_le_self _)

/-! ### What a poll tells -/

/-- Who sleeps would learn nothing from a look. -/
theorem Tracks.verdict_of_sleeps (h : w.Tracks wanted r) (hsleeps : w.sleeps r = true) :
    w.verdict wanted = .pending := by
  obtain ⟨hseen, halive⟩ := h.missed_nothing hsleeps
  have hwaits : r.waitingSince ≠ none := by simp [sleeps_eq_true_iff.mp hsleeps]
  rw [verdict_of_unwanted (h.unwanted hwaits hseen), if_pos halive]

/-- **A poll tells what a look at the channel tells.** -/
theorem Tracks.poll_eq (h : w.Tracks wanted r) : (w.poll wanted r).1 = w.verdict wanted := by
  rw [poll]
  split
  case isTrue hsleeps => exact (h.verdict_of_sleeps hsleeps).symm
  case isFalse =>
    split
    case isTrue hwoken =>
      -- Woken, but not for a new value: only the sender can have gone.
      obtain ⟨hwaits, hseen⟩ := hwoken
      have hunwanted := h.unwanted (Option.isSome_iff_ne_none.mp hwaits) hseen
      rw [fst_fallAsleep, verdict_of_unwanted hunwanted]
    case isFalse => exact fst_look w wanted

theorem tracks_fallAsleep (hseen : r.seen = w.version) (hunwanted : wanted w.value = false) :
    w.Tracks wanted (w.fallAsleep r).2 := by
  rw [fallAsleep]
  split
  case isTrue halive =>
    exact ⟨Nat.le_of_eq hseen, fun k hk => Nat.le_of_eq (Option.some.inj hk).symm,
      fun _ _ => hunwanted, fun _ => ⟨hseen, halive⟩⟩
  case isFalse => exact tracks_of_waitingSince (Nat.le_of_eq hseen) rfl

theorem tracks_look : w.Tracks wanted (w.look wanted).2 := by
  rw [look]
  split
  case isTrue => exact tracks_of_waitingSince (Nat.le_refl _) rfl
  case isFalse hunwanted => exact tracks_fallAsleep rfl (by simpa using hunwanted)

/-- A receiver that was polled goes on tracking its channel. -/
theorem Tracks.poll (h : w.Tracks wanted r) : w.Tracks wanted (w.poll wanted r).2 := by
  rw [Watch.poll]
  split
  case isTrue => exact h
  case isFalse =>
    split
    case isTrue hwoken =>
      obtain ⟨hwaits, hseen⟩ := hwoken
      exact tracks_fallAsleep hseen (h.unwanted (Option.isSome_iff_ne_none.mp hwaits) hseen)
    case isFalse => exact tracks_look

end Watch

end TxDelivery
