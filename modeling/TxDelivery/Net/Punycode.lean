import TxDelivery.Numeral

/-!
# Letters in ASCII domains

A label of a domain that starts with `xn--` stands for one with letters beyond ASCII: the ASCII
letters come first, then, behind a hyphen, numbers that tell which letters go where. Numbers are
written with the least digit first, and how long they are follows from their digits and from the
numbers before (`TxDelivery.Punycode.threshold`, `TxDelivery.Punycode.adapt`).
`TxDelivery.Punycode.isEncoding` tells whether a text is such an encoding.

Only this is wanted, as a label that encodes nothing makes a host invalid. So the letters are not
put together: it is enough to know how many there are so far, which letter the last number has
reached, and where in the next number the reader is (`TxDelivery.Punycode.Progress`). A number that
leads past the last letter, or a text that ends in the middle of one, is no encoding.
-/

namespace TxDelivery

namespace Punycode

/-- The value of a digit: letters first, then the ten digits. -/
def digit? (c : Char) : Option Nat :=
  if 'a' ≤ c ∧ c ≤ 'z' then some (c.toNat - 'a'.toNat)
  else if 'A' ≤ c ∧ c ≤ 'Z' then some (c.toNat - 'A'.toNat)
  else if '0' ≤ c ∧ c ≤ '9' then some (c.toNat - '0'.toNat + 26)
  else none

/-- Below which value the digit at place `k` ends a number. -/
def threshold (k bias : Nat) : Nat := min 26 (max 1 (k - bias))

/-- Halves of a distance that is large, and how much the bias grows with them. -/
def damp (distance : Nat) : Nat × Nat :=
  if 455 < distance then
    let (d, growth) := damp (distance / 35)
    (d, growth + 36)
  else (distance, 0)
termination_by distance
decreasing_by exact Nat.div_lt_self (by omega) (by omega)

/-- The bias after a number that moved on by `distance`, with `count` letters so far. -/
def adapt (distance count : Nat) (first : Bool) : Nat :=
  let d := if first then distance / 700 else distance / 2
  let (d, growth) := damp (d + d / count)
  growth + 36 * d / (d + 38)

/-- What has been read of an encoding. -/
structure Progress where
  /-- The letter reached. -/
  letter : Nat := 128
  /-- Where the number that is read started. -/
  start : Nat := 0
  /-- The place reached. -/
  place : Nat := 0
  /-- The weight of the next digit. -/
  weight : Nat := 1
  /-- The position of the next digit in its number, in steps of the base. -/
  position : Nat := 36
  /-- What thresholds depend on. -/
  bias : Nat := 72
  /-- How many letters the label has so far. -/
  count : Nat
  deriving DecidableEq, Repr

/-- What has been read after a number is complete, the place reached being `place`; `none` if it
leads to no visible character. -/
def Progress.insert? (p : Progress) (place : Nat) : Option Progress :=
  let count := p.count + 1
  let letter := p.letter + place / count
  if letter.isValidChar && 0xA0 ≤ letter then
    let next := place % count + 1
    let bias := adapt (place - p.start) count (p.start = 0)
    some { letter := letter, start := next, place := next, bias := bias, count := count }
  else none

/-- Whether a text goes on and ends well after what has been read. -/
def continues (p : Progress) : List Char → Bool
  | [] => p.position = 36
  | c :: rest =>
    match digit? c with
    | none => false
    | some d =>
      let place := p.place + d * p.weight
      let t := threshold p.position p.bias
      if d < t then
        match p.insert? place with
        | none => false
        | some p => continues p rest
      else
        continues
          { p with place := place, weight := p.weight * (36 - t), position := p.position + 36 } rest

/-- **Whether a text encodes a label with letters beyond ASCII**: the letters up to the last
hyphen, and at least one number behind it. -/
def isEncoding (cs : List Char) : Bool :=
  let numbers := (cs.reverse.takeWhile (· ≠ '-')).reverse
  !numbers.isEmpty && continues { count := cs.length - numbers.length - 1 } numbers

/-- Whether a text may stand between the dots of a domain. -/
def isLabel : List Char → Bool
  | 'x' :: 'n' :: '-' :: '-' :: rest => isEncoding rest
  | _ => true

end Punycode

end TxDelivery
