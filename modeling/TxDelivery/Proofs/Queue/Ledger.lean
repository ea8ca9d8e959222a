import TxDelivery.Delivery.Outcome

/-!
# The ledger of a key

What concerns one key of the queue, put together from all over the service (`TxDelivery.Ledger`):
the status in the table; the first broadcast that is being made for the key, which holds the status
the key gets back if it fails; the deliveries for the key under way; and the outcomes of such
deliveries that the bookkeeper has yet to enter.

A ledger changes in few ways (`TxDelivery.Ledger.Move`). What matters is that **at most one thing is
under way for a key, and while it is the key is pending** (`TxDelivery.Ledger.Sound`), that the
status a reader is shown takes four steps only (`TxDelivery.TxStatus.Shift`), and that after one
confirmation there is nothing under way that could lead to another (`TxDelivery.Ledger.Settled`).

Nothing of this is about services. There are three numbers and two statuses, and every move is so
simple that it can be checked by adding up. For example, a delivery starts where a first broadcast
was made, so that as much is under way as before; an outcome is entered, so that less is, and the
key may cease to be pending. It is the one thing under way that allows all this to be so simple:
when one number is positive the others are zero, and when the key is not pending all of them are
(`TxDelivery.Ledger.Sound.idle`).

What is shown of a key is not its status in the table (`TxDelivery.Ledger.shown`). While a first
broadcast is made the table has it as pending, and it may get its status back; readers are kept out
meanwhile and see the status from before, or nothing.

## Losing outcomes

Moves may lose outcomes. A ledger is lost (`TxDelivery.Ledger.Lost`) if its key is pending with
nothing under way, and then it is lost for good (`TxDelivery.Ledger.Lost.move`). As long as it is
not, a confirmation makes the key finished (`TxDelivery.Ledger.Sound.confirmed_move`), and a failure
makes it failed (`TxDelivery.Ledger.Sound.failed_move`).

Whether anything was lost cannot be told from the numbers, as an outcome that is entered and one
that is lost are both counted off. The status makes the difference.
-/

namespace TxDelivery

/-- **The steps a status takes.** -/
inductive TxStatus.Shift : TxStatus → TxStatus → Prop where
  /-- A key is sent for the first time. -/
  | begins : Shift .notFound .pending
  /-- Its transaction is confirmed. -/
  | finishes : Shift .pending .finished
  /-- Its transaction is given up. -/
  | fails : Shift .pending .error
  /-- It is sent again. -/
  | retries : Shift .error .pending

/-- **What concerns one key** at one moment. -/
@[ext] structure Ledger where
  /-- The status the key gets back if the first broadcast made for it fails, if one is made. -/
  held : Option TxStatus
  /-- The status in the table. -/
  status : TxStatus
  /-- How many deliveries are under way. -/
  running : Nat
  /-- How many confirmations are to be entered. -/
  confirming : Nat
  /-- How many failures are to be entered. -/
  failing : Nat

namespace Ledger

/-- **The status a reader is shown**: whoever makes a first broadcast keeps readers out, so that
they never see a status that is taken back. -/
def shown (l : Ledger) : TxStatus := l.held.getD l.status

/-- How many things are under way. -/
def underWay (l : Ledger) : Nat := l.held.toList.length + l.running + l.confirming + l.failing

/-- **How the ledger of a key changes** in a step that publishes so many confirmations of it. -/
inductive Move (l : Ledger) : Nat → Ledger → Prop where
  /-- Outcomes may be lost. -/
  | still {confirming failing : Nat} (hc : confirming ≤ l.confirming) (hf : failing ≤ l.failing) :
      Move l 0 { l with confirming := confirming, failing := failing }
  /-- A first broadcast is begun. -/
  | opens (hheld : l.held = none) (hs : l.status = .notFound ∨ l.status = .error) :
      Move l 0 { l with held := some l.status, status := .pending }
  /-- The first broadcast fails. -/
  | refused {previous : TxStatus} (hheld : l.held = some previous) :
      Move l 0 { l with held := none, status := previous }
  /-- Its caller drops it. -/
  | dropped {previous : TxStatus} (hheld : l.held = some previous) :
      Move l 0 { l with held := none }
  /-- It is accepted. -/
  | launched {previous : TxStatus} (hheld : l.held = some previous) :
      Move l 0 { l with held := none, running := l.running + 1 }
  /-- A delivery is confirmed. -/
  | confirmed {running confirming failing : Nat} (hr : l.running = running + 1)
      (hc : confirming ≤ l.confirming + 1) (hf : failing ≤ l.failing) :
      Move l 1 { l with running := running, confirming := confirming, failing := failing }
  /-- A delivery is given up. -/
  | failed {running confirming failing : Nat} (hr : l.running = running + 1)
      (hc : confirming ≤ l.confirming) (hf : failing ≤ l.failing + 1) :
      Move l 0 { l with running := running, confirming := confirming, failing := failing }
  /-- A confirmation is entered. -/
  | finished {confirming : Nat} (hc : l.confirming = confirming + 1) :
      Move l 0 { l with status := .finished, confirming := confirming }
  /-- A failure is entered. -/
  | errored {failing : Nat} (hf : l.failing = failing + 1) :
      Move l 0 { l with status := .error, failing := failing }

variable {l l' l'' : Ledger} {n : Nat}

/-- A move that ends in the ledger with the same entries. -/
theorem Move.of_eq (h : l.Move n l') (heq : l'' = l') : l.Move n l'' := heq ▸ h

/-- A move publishes one confirmation at most. -/
theorem Move.le_one (h : l.Move n l') : n ≤ 1 := by
  cases h <;> simp

/-- **At most one thing is under way for a key, and meanwhile the key is pending.** -/
structure Sound (l : Ledger) : Prop where
  /-- There is one thing at most. -/
  one : l.underWay ≤ 1
  /-- Whatever it is, the key is pending. -/
  pending : 0 < l.underWay → l.status = .pending
  /-- A first broadcast is made for a key that is new or failed. -/
  previous : ∀ p, l.held = some p → p = .notFound ∨ p = .error

/-- How much is under way when a first broadcast is made. -/
theorem underWay_of_held {p : TxStatus} (hheld : l.held = some p) :
    l.underWay = 1 + l.running + l.confirming + l.failing := by
  simp [underWay, hheld]

theorem underWay_eq_zero_iff :
    l.underWay = 0 ↔ l.held = none ∧ l.running = 0 ∧ l.confirming = 0 ∧ l.failing = 0 := by
  simp only [underWay, Nat.add_eq_zero_iff, List.length_eq_zero_iff, Option.toList_eq_nil_iff,
    and_assoc]

/-- Nothing is under way for a key that is not pending. -/
theorem Sound.idle (hl : l.Sound) (hs : l.status ≠ .pending) :
    l.held = none ∧ l.running = 0 ∧ l.confirming = 0 ∧ l.failing = 0 :=
  underWay_eq_zero_iff.mp (Nat.eq_zero_of_not_pos fun hpos => hs (hl.pending hpos))

/-- A ledger of which nothing is under way is sound. -/
theorem sound_of_idle (h : l.underWay = 0) : l.Sound := by
  refine ⟨by omega, fun hpos => absurd h (Nat.ne_of_gt hpos), fun p hp => ?_⟩
  rw [(underWay_eq_zero_iff.mp h).1] at hp
  contradiction

/-- What is under way may go on as something else, or come to nothing, while the key is pending. -/
theorem Sound.of_le (hl : l.Sound) (hle : l'.underWay ≤ l.underWay) (hstatus : l'.status = l.status)
    (hheld : l'.held = none ∨ l'.held = l.held) : l'.Sound := by
  refine ⟨Nat.le_trans hle hl.one, fun hpos => ?_, fun p hp => ?_⟩
  · rw [hstatus]
    exact hl.pending (Nat.lt_of_lt_of_le hpos hle)
  · rcases hheld with hheld | hheld
    · rw [hheld] at hp
      contradiction
    · exact hl.previous p (hheld.symm.trans hp)

/-- **The ledger stays sound.** -/
theorem Sound.move (hl : l.Sound) (h : l.Move n l') : l'.Sound := by
  have hone := hl.one
  cases h with
  | still | confirmed | failed =>
    refine hl.of_le ?_ rfl (.inr rfl)
    simp only [underWay]
    omega
  | opens hheld hs =>
    -- The key was not pending, so that nothing was under way before.
    obtain ⟨-, hr, hc, hf⟩ := hl.idle (by rcases hs with hs | hs <;> simp [hs])
    refine ⟨?_, fun _ => rfl, fun p hp => ?_⟩
    · simp [underWay, hr, hc, hf]
    · obtain rfl : l.status = p := by simpa using hp
      exact hs
  | refused hheld =>
    -- The broadcast was all that was under way.
    rw [underWay_of_held hheld] at hone
    refine sound_of_idle ?_
    simp only [underWay, Option.toList_none, List.length_nil]
    omega
  | dropped hheld | launched hheld =>
    refine hl.of_le ?_ rfl (.inl rfl)
    rw [underWay_of_held hheld]
    simp only [underWay, Option.toList_none, List.length_nil]
    omega
  | finished | errored =>
    -- So was the outcome that was entered.
    refine sound_of_idle ?_
    simp only [underWay] at hone ⊢
    omega

/-- Whose outcome is to be entered, or who is under way, is not held by a first broadcast. -/
theorem Sound.held_eq_none (hl : l.Sound) (h : 0 < l.running + l.confirming + l.failing) :
    l.held = none := by
  have hone := hl.one
  cases hheld : l.held with
  | none => rfl
  | some p =>
    rw [underWay_of_held hheld] at hone
    omega

/-- **A reader sees a status stay or take one of the four steps.** -/
theorem Sound.shown_move (hl : l.Sound) (h : l.Move n l') :
    l'.shown = l.shown ∨ TxStatus.Shift l.shown l'.shown := by
  have hprevious {p : TxStatus} (hheld : l.held = some p) : TxStatus.Shift p .pending := by
    rcases hl.previous p hheld with rfl | rfl
    · exact .begins
    · exact .retries
  have hstatus {p : TxStatus} (hheld : l.held = some p) : l.status = .pending :=
    hl.pending (by rw [underWay_of_held hheld]; omega)
  cases h with
  | still | confirmed | failed => exact .inl rfl
  | opens hheld | refused hheld =>
    -- The status that is taken back, if the broadcast fails, is the one that was shown all along.
    refine .inl ?_
    simp only [shown, hheld, Option.getD_some, Option.getD_none]
  | dropped hheld | launched hheld =>
    refine .inr ?_
    simp only [shown, hheld, Option.getD_some, Option.getD_none, hstatus hheld]
    exact hprevious hheld
  | finished hc =>
    have hheld := hl.held_eq_none (by omega)
    refine .inr ?_
    simp only [shown, hheld, Option.getD_none, hl.pending (by simp only [underWay]; omega)]
    exact .finishes
  | errored hf =>
    have hheld := hl.held_eq_none (by omega)
    refine .inr ?_
    simp only [shown, hheld, Option.getD_none, hl.pending (by simp only [underWay]; omega)]
    exact .fails

/-- A reader is shown that a key is finished exactly if it is. -/
theorem Sound.shown_eq_finished_iff (hl : l.Sound) :
    l.shown = .finished ↔ l.status = .finished := by
  cases hheld : l.held with
  | none => simp only [shown, hheld, Option.getD_none]
  | some p =>
    have hstatus := hl.pending (by rw [underWay_of_held hheld]; omega)
    simp only [shown, hheld, Option.getD_some, hstatus]
    rcases hl.previous p hheld with rfl | rfl <;> simp

/-- **A key that is finished stays finished.** -/
theorem Sound.finished_move (hl : l.Sound) (hs : l.status = .finished) (h : l.Move n l') :
    l'.status = .finished := by
  obtain ⟨hheld, hr, hc, hf⟩ := hl.idle (by simp [hs])
  cases h with
  | still => exact hs
  | opens _ hs' => rcases hs' with hs' | hs' <;> simp [hs] at hs'
  | refused hheld' | dropped hheld' | launched hheld' => simp [hheld] at hheld'
  | confirmed hr' | failed hr' => omega
  | finished hc' => omega
  | errored hf' => omega

/-- **Nothing that is under way leads to a confirmation.** -/
structure Settled (l : Ledger) : Prop where
  /-- No first broadcast is made. -/
  held : l.held = none
  /-- No delivery is under way. -/
  running : l.running = 0
  /-- No failure is to be entered. -/
  failing : l.failing = 0
  /-- The key is not sent again. -/
  status : l.status = .pending ∨ l.status = .finished

/-- A delivery was the one thing under way when it was confirmed. -/
theorem Sound.settled (hl : l.Sound) (h : l.Move 1 l') : l'.Settled := by
  have hone := hl.one
  cases h with
  | confirmed hr =>
    have hheld := hl.held_eq_none (by omega)
    have hstatus := hl.pending (by simp only [underWay]; omega)
    simp only [underWay, hr] at hone
    refine ⟨hheld, ?_, ?_, .inl hstatus⟩
    · dsimp only
      omega
    · dsimp only
      omega

/-- **After one confirmation there is no other.** -/
theorem Settled.move (hl : l.Settled) (h : l.Move n l') : l'.Settled ∧ n = 0 := by
  obtain ⟨hheld, hr, hf, hs⟩ := hl
  cases h with
  | still hc hf' =>
    refine ⟨⟨hheld, hr, ?_, hs⟩, rfl⟩
    dsimp only
    omega
  | opens _ hs' => rcases hs with hs | hs <;> simp [hs] at hs'
  | refused hheld' | dropped hheld' | launched hheld' => simp [hheld] at hheld'
  | confirmed hr' | failed hr' => omega
  | finished hc => exact ⟨⟨hheld, hr, hf, .inr rfl⟩, rfl⟩
  | errored hf' => omega

/-! ### Outcomes that are lost -/

/-- **An outcome is lost**: the key is pending, and nothing is under way that could change that. -/
structure Lost (l : Ledger) : Prop where
  /-- The key is pending. -/
  status : l.status = .pending
  /-- Nothing is under way. -/
  idle : l.underWay = 0

/-- What is lost is shown to be pending. -/
theorem Lost.shown (hl : l.Lost) : l.shown = .pending := by
  rw [Ledger.shown, (underWay_eq_zero_iff.mp hl.idle).1, Option.getD_none, hl.status]

/-- A key that is shown to be pending is pending, and not held. -/
theorem Sound.of_shown_pending (hl : l.Sound) (h : l.shown = .pending) :
    l.held = none ∧ l.status = .pending := by
  cases hheld : l.held with
  | none => exact ⟨rfl, by simpa [shown, hheld] using h⟩
  | some p =>
    obtain rfl : p = .pending := by simpa [shown, hheld] using h
    simpa using hl.previous _ hheld

/-- **What is lost is lost for good.** -/
theorem Lost.move (hl : l.Lost) (h : l.Move n l') : l'.Lost := by
  obtain ⟨hs, hidle⟩ := hl
  obtain ⟨hheld, hr, hc, hf⟩ := underWay_eq_zero_iff.mp hidle
  cases h with
  | still hc' hf' =>
    refine ⟨hs, underWay_eq_zero_iff.mpr ⟨hheld, hr, ?_, ?_⟩⟩
    · dsimp only
      omega
    · dsimp only
      omega
  | opens _ hs' => rcases hs' with hs' | hs' <;> simp [hs] at hs'
  | refused hheld' | dropped hheld' | launched hheld' => simp [hheld] at hheld'
  | confirmed hr' | failed hr' => omega
  | finished hc' => omega
  | errored hf' => omega

/-- **A ledger is not lost by a move** after which as much is under way as before, or the key is
not pending. -/
theorem Move.not_lost (h : l.Move n l')
    (hkept : l.underWay ≤ l'.underWay ∨ l'.status ≠ .pending) (hlost : ¬ l.Lost) : ¬ l'.Lost := by
  rintro ⟨hs', hidle'⟩
  rw [hidle'] at hkept
  have hidle : l.underWay = 0 := Nat.le_zero.mp (hkept.resolve_right (not_not_intro hs'))
  obtain ⟨hheld, hr, hc, hf⟩ := underWay_eq_zero_iff.mp hidle
  cases h with
  | still => exact hlost ⟨hs', hidle⟩
  | opens => simp [underWay] at hidle'
  | refused hheld' | dropped hheld' | launched hheld' => simp [hheld] at hheld'
  | confirmed hr' | failed hr' => omega
  | finished hc' => omega
  | errored hf' => omega

/-- What is under way stays so when no outcome is entered, no delivery ends, and whoever lets go of
the key has given it its status back or started a delivery. -/
theorem Sound.kept (hl : l.Sound) (h : l.Move 0 l') (hc : l'.confirming = l.confirming)
    (hf : l'.failing = l.failing) (hr : l.running ≤ l'.running)
    (hgo : ∀ p, l.held = some p → l'.held = none → l'.status = p ∨ l.running < l'.running) :
    l.underWay ≤ l'.underWay ∨ l'.status ≠ .pending := by
  have hprevious {p : TxStatus} (hheld : l.held = some p) : p ≠ .pending := by
    rcases hl.previous p hheld with rfl | rfl <;> simp
  cases h with
  | still =>
    refine .inl ?_
    simp only [underWay] at hc hf ⊢
    omega
  | opens hheld =>
    refine .inl ?_
    simp only [underWay, hheld, Option.toList_none, List.length_nil]
    omega
  | refused hheld => exact .inr (hprevious hheld)
  | dropped hheld =>
    rcases hgo _ hheld rfl with hs | hlt
    · exact .inr (hs ▸ hprevious hheld)
    · exact absurd hlt (Nat.lt_irrefl _)
  | launched hheld =>
    refine .inl ?_
    rw [underWay_of_held hheld]
    simp only [underWay]
    omega
  | failed hr' =>
    dsimp only at hr
    omega
  | finished | errored => exact .inr (by simp)

/-- **A confirmation stays to be entered until the key is finished**, if it is not lost. -/
theorem Sound.confirmed_move (hl : l.Sound) (h : l.Move n l') (hlost : ¬ l'.Lost)
    (hconfirmed : 0 < l.confirming ∨ l.status = .finished) :
    0 < l'.confirming ∨ l'.status = .finished := by
  rcases hconfirmed with hpos | hs
  · -- The confirmation is all that is under way, so that the key is lost without it.
    have hone := hl.one
    have hs := hl.pending (by simp only [underWay]; omega)
    have hheld := hl.held_eq_none (by omega)
    simp only [underWay] at hone
    cases h with
    | still hc hf =>
      refine .inl (Nat.pos_of_ne_zero fun hzero => hlost ⟨hs, underWay_eq_zero_iff.mpr ?_⟩)
      dsimp only at hzero ⊢
      exact ⟨hheld, by omega, hzero, by omega⟩
    | opens _ hs' => rcases hs' with hs' | hs' <;> simp [hs] at hs'
    | refused hheld' | dropped hheld' | launched hheld' => simp [hheld] at hheld'
    | confirmed hr' | failed hr' => omega
    | finished => exact .inr rfl
    | errored hf' => omega
  · exact .inr (hl.finished_move hs h)

/-- **A failure stays to be entered until the key is shown to be failed**, if it is not lost, and it
is so until a delivery is started for the key. -/
theorem Sound.failed_move (hl : l.Sound) (h : l.Move n l') (hlost : ¬ l'.Lost)
    (hfailed : 0 < l.failing ∨ l.shown = .error) :
    0 < l'.failing ∨ l'.shown = .error ∨ 0 < l'.running := by
  have hone := hl.one
  rcases hfailed with hpos | hshown
  · have hs := hl.pending (by simp only [underWay]; omega)
    have hheld := hl.held_eq_none (by omega)
    simp only [underWay] at hone
    cases h with
    | still hc hf =>
      refine .inl (Nat.pos_of_ne_zero fun hzero => hlost ⟨hs, underWay_eq_zero_iff.mpr ?_⟩)
      dsimp only at hzero ⊢
      exact ⟨hheld, by omega, by omega, hzero⟩
    | opens _ hs' => rcases hs' with hs' | hs' <;> simp [hs] at hs'
    | refused hheld' | dropped hheld' | launched hheld' => simp [hheld] at hheld'
    | confirmed hr' | failed hr' => omega
    | finished hc' => omega
    | errored => exact .inr (.inl (by simp only [shown, hheld, Option.getD_none]))
  · have hpending (hheld : l.held = none) (hs : l.status = .pending) : l.shown ≠ .error := by
      simp [shown, hheld, hs]
    cases h with
    | still => exact .inr (.inl hshown)
    | opens hheld | refused hheld =>
      refine .inr (.inl ?_)
      simpa only [shown, hheld, Option.getD_some, Option.getD_none] using hshown
    | dropped hheld =>
      -- A send that is dropped leaves nothing under way.
      rw [underWay_of_held hheld] at hone
      refine absurd ⟨hl.pending ?_, underWay_eq_zero_iff.mpr ⟨rfl, ?_⟩⟩ hlost
      · rw [underWay_of_held hheld]
        omega
      · dsimp only
        omega
    | launched => exact .inr (.inr (Nat.succ_pos _))
    | confirmed hpos | failed hpos | finished hpos | errored hpos =>
      exact absurd hshown (hpending (hl.held_eq_none (by omega))
        (hl.pending (by simp only [underWay]; omega)))

end Ledger

end TxDelivery
