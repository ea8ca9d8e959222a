import Mathlib.Algebra.Group.Nat.Defs
import Mathlib.Data.List.Basic
import Mathlib.Data.List.Induction
import TxDelivery.Bytes

/-!
# Bytes and numbers

A byte string stands for a number, its first byte counting most, and a number is written in bytes in
two ways: in a fixed number of bytes, as hashes and amounts of a word are, and in as few bytes as it
needs, as the numbers of a wire form are. This file gives the laws of both, each in the two
directions that a reader needs.

| | the number is read back | the bytes are written back |
|---|---|---|
| in `k` bytes | `TxDelivery.Bytes.toNat_ofNat` | `TxDelivery.Bytes.ofNat_toNat` |
| in as few as possible | `TxDelivery.Bytes.toNat_minimal` | `TxDelivery.Bytes.minimal_toNat` |

The first column loses what a width cannot hold: a number comes back up to a power of 256. The
second is where the two ways of writing differ. Every string of `k` bytes is the writing of its
number in `k` bytes, but a string with a zero in front is never written in as few bytes as possible,
and **this is the only exception** (`TxDelivery.Bytes.minimal_toNat`). It is the exception that
readers of canonical forms test for.

Both ways of writing put the last byte last, so that byte strings have to be taken apart at their
end. The inductions on a byte string are therefore inductions on the string reversed, with
`TxDelivery.Bytes.toNat_concat` as the only law of the number of a byte string that is used
afterwards; the inductions on a number follow the recursion of `TxDelivery.Bytes.minimal`, which
divides by 256. What holds the two together is that the last byte of `m * 256 + b` is `b`
(`TxDelivery.Bytes.lastByte_concat`).
-/

namespace TxDelivery

namespace Bytes

variable {bs : Bytes} {b : UInt8} {n k : Nat}

/-! ### The number of a byte string -/

theorem toNat_nil : toNat [] = 0 := rfl

/-- One more byte at the end of a byte string. -/
theorem toNat_concat (bs : Bytes) (b : UInt8) : toNat (bs ++ [b]) = toNat bs * 256 + b.toNat := by
  rw [toNat, List.foldl_append]
  rfl

/-- A byte string holds no more than its bytes can tell apart. -/
theorem toNat_lt (bs : Bytes) : toNat bs < 256 ^ bs.length := by
  induction bs using List.reverseRecOn with
  | nil => simp [toNat_nil]
  | append_singleton bs b ih =>
    have hb := b.toNat_lt
    rw [toNat_concat, List.length_append, List.length_singleton, Nat.pow_succ]
    omega

/-- The last byte of a number. -/
theorem toNat_lastByte (n : Nat) : (UInt8.ofNat n).toNat = n % 256 := UInt8.toNat_ofNat'

/-- The last byte of what a byte string stands for. -/
theorem lastByte_concat (m : Nat) (b : UInt8) : UInt8.ofNat (m * 256 + b.toNat) = b := by
  have hb := b.toNat_lt
  rw [← UInt8.toNat_inj, toNat_lastByte]
  omega

/-! ### A fixed number of bytes -/

@[simp] theorem length_ofNat (k n : Nat) : (ofNat k n).length = k := by
  induction k generalizing n with
  | zero => rfl
  | succ k ih => rw [ofNat, List.length_append, ih, List.length_singleton]

/-- **Reading a number back** from `k` bytes. -/
theorem toNat_ofNat (k n : Nat) : toNat (ofNat k n) = n % 256 ^ k := by
  induction k generalizing n with
  | zero => simp [ofNat, toNat_nil, Nat.mod_one]
  | succ k ih =>
    rw [ofNat, toNat_concat, ih, toNat_lastByte, Nat.pow_succ', Nat.mod_mul]
    omega

theorem toNat_ofNat_of_lt (h : n < 256 ^ k) : toNat (ofNat k n) = n := by
  rw [toNat_ofNat, Nat.mod_eq_of_lt h]

/-- **A byte string is its number written in as many bytes.** -/
theorem ofNat_toNat (bs : Bytes) : ofNat bs.length (toNat bs) = bs := by
  induction bs using List.reverseRecOn with
  | nil => rfl
  | append_singleton bs b ih =>
    have hb := b.toNat_lt
    have hdiv : (toNat bs * 256 + b.toNat) / 256 = toNat bs := by omega
    rw [List.length_append, List.length_singleton, ofNat, toNat_concat, hdiv, ih, lastByte_concat]

/-! ### As few bytes as possible -/

theorem minimal_zero : minimal 0 = [] := by rw [minimal, dif_pos rfl]

theorem minimal_of_ne_zero (h : n ≠ 0) : minimal n = minimal (n / 256) ++ [UInt8.ofNat n] := by
  rw [minimal, dif_neg h]

/-- **Reading a number back** from as few bytes as it needs. -/
theorem toNat_minimal (n : Nat) : toNat (minimal n) = n := by
  induction n using minimal.induct with
  | case1 => rw [minimal_zero, toNat_nil]
  | case2 n h ih =>
    rw [minimal_of_ne_zero h, toNat_concat, ih, toNat_lastByte]
    omega

theorem minimal_ne_nil (h : n ≠ 0) : minimal n ≠ [] := by
  rw [minimal_of_ne_zero h]
  exact List.concat_ne_nil _ _

/-- No zero leads. -/
theorem head?_minimal (n : Nat) : (minimal n).head? ≠ some 0 := by
  induction n using minimal.induct with
  | case1 => simp [minimal_zero]
  | case2 n h ih =>
    rw [minimal_of_ne_zero h]
    by_cases hdiv : n / 256 = 0
    · -- The number is a single byte, which is not zero.
      rw [hdiv, minimal_zero]
      intro hhead
      have hzero : UInt8.ofNat n = 0 := Option.some.inj hhead
      have hmod := toNat_lastByte n
      rw [hzero, UInt8.toNat_zero] at hmod
      omega
    · rwa [List.head?_append_of_ne_nil _ (minimal_ne_nil hdiv)]

/-- A number below `256 ^ k` needs no more than `k` bytes. -/
theorem length_minimal_le (h : n < 256 ^ k) : (minimal n).length ≤ k := by
  induction k generalizing n with
  | zero =>
    obtain rfl : n = 0 := by simpa using h
    simp [minimal_zero]
  | succ k ih =>
    rcases Nat.eq_zero_or_pos n with rfl | hpos
    · simp [minimal_zero]
    · have hdiv : n / 256 < 256 ^ k := by
        rw [Nat.pow_succ] at h
        omega
      rw [minimal_of_ne_zero (Nat.ne_of_gt hpos), List.length_append, List.length_singleton]
      exact Nat.succ_le_succ (ih hdiv)

/-- A byte string that does not start with a zero stands for a number that is not zero. -/
theorem toNat_ne_zero (h : bs.head? ≠ some 0) (hne : bs ≠ []) : toNat bs ≠ 0 := by
  induction bs using List.reverseRecOn with
  | nil => exact absurd rfl hne
  | append_singleton bs b ih =>
    rw [toNat_concat]
    by_cases hbs : bs = []
    · subst hbs
      have hb : b ≠ 0 := fun hzero => h (by simp [hzero])
      have hpos : b.toNat ≠ 0 := fun hzero => hb (UInt8.toNat_inj.mp hzero)
      omega
    · rw [List.head?_append_of_ne_nil _ hbs] at h
      have hpos := ih h hbs
      omega

/-- **A byte string that does not start with a zero** is its number written in as few bytes as
possible. -/
theorem minimal_toNat (h : bs.head? ≠ some 0) : minimal (toNat bs) = bs := by
  induction bs using List.reverseRecOn with
  | nil => rw [toNat_nil, minimal_zero]
  | append_singleton bs b ih =>
    have hb := b.toNat_lt
    have hne := toNat_ne_zero h (List.concat_ne_nil _ _)
    have hdiv : (toNat bs * 256 + b.toNat) / 256 = toNat bs := by omega
    have hhead : bs.head? ≠ some 0 := by
      cases bs with
      | nil => simp
      | cons c bs => exact h
    rw [toNat_concat] at hne ⊢
    rw [minimal_of_ne_zero hne, hdiv, ih hhead, lastByte_concat]

end Bytes

end TxDelivery
