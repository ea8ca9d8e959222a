import Mathlib.Data.List.TakeWhile
import TxDelivery.Service.FairLock

/-!
# Having a lock alone

A lock is a line of those who want it, each in one of two ways: shared or exclusively. It is held by
the first in line, and by those behind it as long as all of them share. **Whoever wants it
exclusively and has come to the front of its line has it alone** (`TxDelivery.FairLock.OwnedBy`):
nobody else holds it, and whatever others do, coming or leaving, it stays so until the owner leaves.

Owning is a property of the line and not of a flag, so that there is nothing to keep in step with
it. That there is one owner at most (`TxDelivery.FairLock.OwnedBy.unique`) and that an owner is the
only holder (`TxDelivery.FairLock.OwnedBy.holders`) are read off the front of the line. The two laws
that proofs about runs use are those on what others can do:

* somebody else enters the line, at its end (`TxDelivery.FairLock.OwnedBy.enter`);
* somebody else leaves it, from wherever in it (`TxDelivery.FairLock.OwnedBy.leave`).

In the other direction, a holder is known to be the owner if it is known to want the lock in no
other way than exclusively (`TxDelivery.FairLock.ownedBy_of_mem_holders`). This is how an invariant
that says what everybody in line wants turns into one that says who has the lock alone.
-/

namespace TxDelivery

namespace FairLock

variable {α : Type} {l : FairLock α} {x y : α} {access : Access}

/-- **A lock has one owner**: the first in line wants it exclusively. -/
def OwnedBy (l : FairLock α) (x : α) : Prop := ∃ rest, l.queue = (x, .exclusive) :: rest

/-- Somebody stands in line, wanting the lock in some way. -/
def Wants (l : FairLock α) (x : α) (access : Access) : Prop := (x, access) ∈ l.queue

/-- There is no second owner. -/
theorem OwnedBy.unique (hx : l.OwnedBy x) (hy : l.OwnedBy y) : x = y := by
  obtain ⟨rest, hq⟩ := hx
  obtain ⟨rest', hq'⟩ := hy
  rw [hq] at hq'
  simpa using (List.cons.inj hq').1

/-- The owner holds the lock, and nobody else does. -/
theorem OwnedBy.holders (h : l.OwnedBy x) : l.holders = [x] := by
  obtain ⟨rest, hq⟩ := h
  simp [FairLock.holders, hq]

/-- **Who holds the lock and wants it exclusively only is its owner.** -/
theorem ownedBy_of_mem_holders (hmem : x ∈ l.holders)
    (hwants : ∀ access, l.Wants x access → access = .exclusive) : l.OwnedBy x := by
  obtain ⟨queue⟩ := l
  cases queue with
  | nil => simp [FairLock.holders] at hmem
  | cons first rest =>
    obtain ⟨z, access⟩ := first
    cases access with
    | exclusive =>
      obtain rfl : x = z := by simpa [FairLock.holders] using hmem
      exact ⟨rest, rfl⟩
    | shared =>
      have hshared : (⟨(z, .shared) :: rest⟩ : FairLock α).Wants x .shared := by
        rcases List.mem_cons.mp hmem with rfl | hmem
        · exact List.mem_cons_self
        · obtain ⟨⟨w, access⟩, hw, rfl⟩ := List.mem_map.mp hmem
          have hmem := (List.takeWhile_prefix _).sublist.subset hw
          have hshared := List.mem_takeWhile_imp hw
          obtain rfl : access = .shared := by simpa using hshared
          exact List.mem_cons_of_mem _ hmem
      exact absurd (hwants _ hshared) (by simp)

theorem OwnedBy.enter (h : l.OwnedBy x) : (l.enter y access).OwnedBy x := by
  obtain ⟨rest, hq⟩ := h
  exact ⟨rest ++ [(y, access)], by rw [FairLock.enter, hq, List.cons_append]⟩

theorem wants_enter {access' : Access} :
    (l.enter y access).Wants x access' ↔ l.Wants x access' ∨ x = y ∧ access' = access := by
  simp [Wants, FairLock.enter]

variable [DecidableEq α]

/-- Others may leave. -/
theorem OwnedBy.leave (h : l.OwnedBy x) (hne : x ≠ y) : (l.leave y).OwnedBy x := by
  obtain ⟨rest, hq⟩ := h
  exact ⟨rest.filter fun e => e.1 ≠ y, by simp [FairLock.leave, hq, hne]⟩

theorem wants_leave : (l.leave y).Wants x access ↔ l.Wants x access ∧ x ≠ y := by
  simp [Wants, FairLock.leave]

theorem heldBy_iff : l.heldBy x = true ↔ x ∈ l.holders := by
  simp [heldBy]

/-- Nobody but the owner holds the lock. -/
theorem OwnedBy.eq_of_heldBy (h : l.OwnedBy x) (hy : l.heldBy y = true) : y = x := by
  rw [heldBy_iff, h.holders] at hy
  exact List.mem_singleton.mp hy

theorem OwnedBy.heldBy (h : l.OwnedBy x) : l.heldBy x = true := by
  rw [heldBy_iff, h.holders]
  exact List.mem_singleton_self x

end FairLock

end TxDelivery
