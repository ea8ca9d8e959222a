import Mathlib.Algebra.Group.Nat.Defs
import Mathlib.Data.List.Basic
import Mathlib.Data.List.Induction
import TxDelivery.Numeral

/-!
# Numerals read back

What `TxDelivery.Numeral.digits` writes, `TxDelivery.Numeral.ofDigits?` reads: **the numeral of `n`
in a base stands for `n`** (`TxDelivery.Numeral.ofDigits?_digits`). Everything that is written as a
number in this library (amounts, prices, depths, the code points of escapes) comes back
by this one law, in base ten or in base sixteen.

The writer divides and puts the remainder last, the reader goes over a text from its first digit and
multiplies. The two meet at the *last* digit: reading a text with one more digit at its end is
reading the text and pushing that digit (`TxDelivery.Numeral.ofDigits?_concat`), so the law is an
induction along the recursion of the writer, with the law of a single digit
(`TxDelivery.Numeral.digitOf?_digitChar`) for the step. That one is a table of 36 characters and is
checked as one.

## What readers ask in addition

Formats put conditions on numerals which the value alone does not tell.

* Some write them in a fixed width or in capitals. Neither zeros in front nor capitals change what a
  text of digits stands for (`TxDelivery.Numeral.ofDigits?_padded`).
* Some refuse leading zeros. A numeral starts with a zero only if it is zero's own
  (`TxDelivery.Numeral.eq_zero_of_digits_eq_zero_cons`), because otherwise its first digit is that
  of a smaller number that is not zero.
* Some decide by the first character whether a number follows at all. A decimal numeral starts with
  a digit, and if that is a zero then nothing is behind it
  (`TxDelivery.Numeral.exists_cons_digits`).
* A word is filled up to its width, for which a numeral must not be too long already
  (`TxDelivery.Numeral.length_digits_le`).
-/

namespace TxDelivery

namespace Numeral

/-! ### One digit -/

/-- A digit has the value it was written for. -/
theorem digitValue?_digitChar {d : Nat} (h : d < 36) : digitValue? (digitChar d) = some d := by
  revert d
  decide

/-- A digit has the same value as a capital. -/
theorem digitValue?_toUpper_digitChar {d : Nat} (h : d < 36) :
    digitValue? (digitChar d).toUpper = some d := by
  revert d
  decide

/-- Whether all of a text is written with digits of a base, as numerals are. -/
def AllDigits (base : Nat) (cs : List Char) : Prop := ∀ c ∈ cs, ∃ d < base, c = digitChar d

section Base

variable {base : Nat} (hlow : 2 ≤ base) (hhigh : base ≤ 36)

include hhigh in
/-- A digit of a base has the value it was written for in that base. -/
theorem digitOf?_digitChar {d : Nat} (h : d < base) : digitOf? base (digitChar d) = some d := by
  rw [digitOf?, digitValue?_digitChar (Nat.lt_of_lt_of_le h hhigh)]
  simp [Option.filter, h]

include hhigh in
/-- The same of capitals. -/
theorem digitOf?_toUpper_digitChar {d : Nat} (h : d < base) :
    digitOf? base (digitChar d).toUpper = some d := by
  rw [digitOf?, digitValue?_toUpper_digitChar (Nat.lt_of_lt_of_le h hhigh)]
  simp [Option.filter, h]

/-! ### A whole numeral -/

/-- One more digit at the end of a text. -/
theorem ofDigits?_concat (cs : List Char) (c : Char) :
    ofDigits? base (cs ++ [c]) = push base (ofDigits? base cs) c := by
  simp [ofDigits?]

/-- What has a value is written with digits. -/
theorem isSome_digitOf? {n : Nat} {cs : List Char} (h : ofDigits? base cs = some n) {c : Char}
    (hc : c ∈ cs) : (digitOf? base c).isSome := by
  induction cs using List.reverseRecOn generalizing n with
  | nil => simp at hc
  | append_singleton cs d ih =>
    rw [ofDigits?_concat, push] at h
    obtain ⟨m, hm, h⟩ := Option.bind_eq_some_iff.mp h
    obtain ⟨k, hk, -⟩ := Option.bind_eq_some_iff.mp h
    rcases List.mem_append.mp hc with hc | hc
    · exact ih hm hc
    · rw [List.mem_singleton.mp hc, hk]
      rfl

include hlow in
/-- A numeral is written with digits of its base. -/
theorem allDigits_digits (n : Nat) : AllDigits base (digits base n) := by
  induction n using digits.induct base with
  | case1 n h =>
    have hn : n < base := by omega
    intro c hc
    rw [digits, dif_pos h] at hc
    exact ⟨n, hn, by simpa using hc⟩
  | case2 n h ih =>
    intro c hc
    rw [digits, dif_neg h, List.mem_append, List.mem_singleton] at hc
    obtain hc | rfl := hc
    · exact ih c hc
    · exact ⟨n % base, Nat.mod_lt n (by omega), rfl⟩

include hlow hhigh in
/-- **A numeral stands for the number it was written for.** -/
theorem ofDigits?_digits (n : Nat) : ofDigits? base (digits base n) = some n := by
  induction n using digits.induct base with
  | case1 n h =>
    have hn : n < base := by omega
    rw [digits, dif_pos h]
    simp [ofDigits?, push, digitOf?_digitChar hhigh hn]
  | case2 n h ih =>
    have hlast := digitOf?_digitChar hhigh (Nat.mod_lt n (show 0 < base by omega))
    rw [digits, dif_neg h, ofDigits?_concat, ih]
    simp [push, hlast, Nat.div_add_mod']

/-- A numeral has a digit. -/
theorem digits_ne_nil (n : Nat) : digits base n ≠ [] := by
  rw [digits]
  split <;> simp

include hlow hhigh in
/-- **A numeral starts with a zero only if it is zero's own.** -/
theorem eq_zero_of_digits_eq_zero_cons {n : Nat} {ds : List Char}
    (h : digits base n = '0' :: ds) : n = 0 := by
  have hzero : ∀ d < 36, digitChar d = '0' → d = 0 := by decide
  induction n using digits.induct base generalizing ds with
  | case1 n hsmall =>
    rw [digits, dif_pos hsmall, List.cons.injEq] at h
    exact hzero n (by omega) h.1
  | case2 n hlarge ih =>
    rw [digits, dif_neg hlarge] at h
    obtain ⟨c, cs, hc⟩ := List.exists_cons_of_ne_nil (digits_ne_nil (n / base))
    rw [hc, List.cons_append, List.cons.injEq] at h
    have hdiv : n / base = 0 := ih (h.1 ▸ hc)
    exact absurd (Nat.lt_of_div_eq_zero (by omega) hdiv) (by omega)

/-- A number below a power of the base has at most as many digits. -/
theorem length_digits_le {n : Nat} (k : Nat) (h : n < base ^ (k + 1)) :
    (digits base n).length ≤ k + 1 := by
  induction k generalizing n with
  | zero =>
    rw [digits, dif_pos (.inl (by simpa using h))]
    simp
  | succ k ih =>
    rw [digits]
    split
    · simp
    · have hdiv : n / base < base ^ (k + 1) := Nat.div_lt_of_lt_mul (by rwa [← Nat.pow_succ'])
      simpa using ih hdiv

/-! ### Filled up with zeros, in capitals -/

/-- A numeral is filled up to the width if it is no longer. -/
theorem length_padded {width n : Nat} (h : (digits base n).length ≤ width) :
    (padded base width n).length = width := by
  simp [padded]
  omega

include hhigh in
/-- Capitals change nothing about what a text of digits stands for. -/
theorem ofDigits?_map_toUpper {cs : List Char} (h : AllDigits base cs) :
    ofDigits? base (cs.map Char.toUpper) = ofDigits? base cs := by
  rw [ofDigits?, List.foldl_map]
  refine List.foldl_ext _ _ _ fun acc c hc => ?_
  obtain ⟨d, hd, rfl⟩ := h c hc
  rw [push, push, digitOf?_digitChar hhigh hd, digitOf?_toUpper_digitChar hhigh hd]

include hlow hhigh in
/-- Zeros in front change nothing about what a text stands for. -/
theorem ofDigits?_replicate_append (k : Nat) (cs : List Char) :
    ofDigits? base (List.replicate k '0' ++ cs) = ofDigits? base cs := by
  have hzero : digitOf? base '0' = some 0 :=
    digitOf?_digitChar hhigh (show 0 < base by omega)
  induction k with
  | zero => simp
  | succ k ih =>
    rw [← ih, List.replicate_succ, List.cons_append]
    simp [ofDigits?, push, hzero]

include hlow hhigh in
/-- **A numeral filled up with zeros, in capitals, still stands for its number.** -/
theorem ofDigits?_padded (width n : Nat) :
    ofDigits? base ((padded base width n).map Char.toUpper) = some n := by
  have hzero : Char.toUpper '0' = '0' := by decide
  rw [padded, List.map_append, List.map_replicate, hzero,
    ofDigits?_replicate_append hlow hhigh,
    ofDigits?_map_toUpper hhigh (allDigits_digits hlow n), ofDigits?_digits hlow hhigh]

end Base

/-! ### Decimal numerals -/

/-- The digits of a decimal numeral. -/
theorem isDigit_of_mem_digits {n : Nat} {c : Char} (h : c ∈ digits 10 n) :
    c.isDigit ∧ (digitOf? 10 c).isSome := by
  have hdigit : ∀ d < 10, (digitChar d).isDigit ∧ (digitOf? 10 (digitChar d)).isSome := by decide
  obtain ⟨d, hd, rfl⟩ := allDigits_digits (by omega) n c h
  exact hdigit d hd

/-- A numeral starts with a digit, and with a zero only if nothing follows it. -/
theorem exists_cons_digits (n : Nat) : ∃ c cs, digits 10 n = c :: cs ∧ c.isDigit ∧
    (c = '0' → cs = []) := by
  obtain ⟨c, cs, hcons⟩ := List.exists_cons_of_ne_nil (digits_ne_nil n)
  refine ⟨c, cs, hcons, (isDigit_of_mem_digits (hcons ▸ List.mem_cons_self ..)).1, ?_⟩
  rintro rfl
  obtain rfl := eq_zero_of_digits_eq_zero_cons (by omega) (by omega) hcons
  have hzero : digits 10 0 = ['0'] := by rw [digits]; rfl
  rw [hzero, List.cons.injEq] at hcons
  exact hcons.2.symm

end Numeral

end TxDelivery
