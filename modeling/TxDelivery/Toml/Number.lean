import TxDelivery.Toml.Basic
import TxDelivery.Toml.Text

/-!
# Numbers and dates in TOML

The forms of values that start with a digit or a sign, read in the order dates, fractions, integers.
Underscores may stand between two digits. `TxDelivery.Toml.numeric?` reads any of them.

The order matters. An integer is the beginning of a fraction, and a year is an integer, so that the
longer forms are tried first; each of them fails unless it is there as a whole, and then the next is
tried from the same place. What is left of the text decides in the end, as nothing but a blank, a
comma or the end of a line may stand behind a value.

Only integers are given a value. A configuration has no other numbers, and for it a fraction is as
wrong as a text. But a document with a fraction that is too large for a double is no document at
all, which is found out with integers and without floating point (`TxDelivery.Toml.overflows`).
Dates and times are checked against the calendar and then kept as text.
-/

namespace TxDelivery

namespace Toml

/-- **Digits with single underscores between them**, at the start of a text. -/
def digitRun (isDigit : Char → Bool) : List Char → List Char × List Char
  | [] => ([], [])
  | c :: rest =>
    if isDigit c then
      match rest with
      | '_' :: d :: rest =>
        if isDigit d then
          let (ds, rest) := digitRun isDigit (d :: rest)
          (c :: ds, rest)
        else ([c], '_' :: d :: rest)
      | rest =>
        let (ds, rest) := digitRun isDigit rest
        (c :: ds, rest)
    else ([], c :: rest)
termination_by cs => cs.length

/-- A nonempty run of digits of a base. -/
def run? (base : Nat) (cs : List Char) : Option (List Char × List Char) :=
  match digitRun (fun c => (Numeral.digitOf? base c).isSome) cs with
  | ([], _) => none
  | r => some r

/-- A sign, and whether it is a minus. -/
def sign : List Char → Bool × List Char
  | '+' :: rest => (false, rest)
  | '-' :: rest => (true, rest)
  | cs => (false, cs)

/-- A run of decimal digits that does not start with zero, or a lone zero. -/
def decimalRun? : List Char → Option (List Char × List Char)
  | '0' :: rest => some (['0'], rest)
  | cs => run? 10 cs

/-- The integer of `digits`, if it fits into sixty-four bits. -/
def int64? (base : Nat) (negative : Bool) (digits : List Char) : Option Int :=
  match Numeral.ofDigits? base digits with
  | none => none
  | some n =>
    if negative then (if n ≤ Nat.pow 2 63 then some (-(n : Int)) else none)
    else if n < Nat.pow 2 63 then some n else none

/-- An integer behind the marker of its base. -/
def markedInteger? (base : Nat) (cs : List Char) : Option (Toml × List Char) := do
  let (digits, rest) ← run? base cs
  return (.integer (← int64? base false digits), rest)

/-- **An integer**: decimal with a sign, or in base sixteen, eight or two without. -/
def integer? : List Char → Option (Toml × List Char)
  | '0' :: 'x' :: rest => markedInteger? 16 rest
  | '0' :: 'o' :: rest => markedInteger? 8 rest
  | '0' :: 'b' :: rest => markedInteger? 2 rest
  | cs => do
    let (negative, cs) := sign cs
    let (digits, rest) ← decimalRun? cs
    return (.integer (← int64? 10 negative digits), rest)

/-- The digits behind the mark of an exponent: whether it is negative, and its digits. -/
def exponent? : List Char → Option ((Bool × List Char) × List Char)
  | c :: rest =>
    if c = 'e' ∨ c = 'E' then do
      let (negative, rest) := sign rest
      let (digits, rest) ← run? 10 rest
      return ((negative, digits), rest)
    else none
  | [] => none

/-- Whether `digits` times a power of ten, `shift` of the digits standing behind the point, is too
large for a double. Numbers from half a unit above the largest double on are. -/
def overflows (digits : List Char) (shift : Nat) (exponent : Bool × List Char) : Bool :=
  let m := (Numeral.ofDigits? 10 digits).getD 0
  let e := (Numeral.ofDigits? 10 exponent.2).getD 0
  let top := Nat.pow 2 1024 - Nat.pow 2 970
  if m = 0 then false
  else if exponent.1 then
    (if digits.length < max 300 (e + shift) then false else top * Nat.pow 10 (e + shift) ≤ m)
  else if 400 + shift < e then true
  else top * Nat.pow 10 shift ≤ m * Nat.pow 10 e

/-- The part of a text before the rest that was left of it. -/
def consumed (cs rest : List Char) : String := String.ofList (cs.take (cs.length - rest.length))

/-- **A number with a point or an exponent.** A positive one must not be too large for a double. -/
def fractional? (cs : List Char) : Option (Toml × List Char) := do
  let (negative, body) := sign cs
  let (whole, rest) ← decimalRun? body
  let (part, exponent, rest) ←
    match rest with
    | '.' :: rest => do
      let (part, rest) ← run? 10 rest
      match rest with
      | c :: _ =>
        if c = 'e' ∨ c = 'E' then do
          let (exponent, rest) ← exponent? rest
          pure (part, exponent, rest)
        else pure (part, (false, ['0']), rest)
      | [] => pure (part, (false, ['0']), rest)
    | _ => do
      let (exponent, rest) ← exponent? rest
      pure ([], exponent, rest)
  if !negative && overflows (whole ++ part) part.length exponent then none
  else return (.float (consumed cs rest), rest)

/-- An infinite number or none at all, with an optional sign. -/
def special? (cs : List Char) : Option (Toml × List Char) := do
  let (_, body) := sign cs
  let rest ← ("inf".toList.isPrefixOf? body).or ("nan".toList.isPrefixOf? body)
  return (.float (consumed cs rest), rest)

/-- Exactly `width` decimal digits of a value from `low` to `high`. -/
def fixed? (width low high : Nat) (cs : List Char) : Option (Nat × List Char) :=
  let ds := cs.take width
  if ds.length = width && ds.all Char.isDigit then
    match Numeral.ofDigits? 10 ds with
    | some n => if low ≤ n ∧ n ≤ high then some (n, cs.drop width) else none
    | none => none
  else none

/-- The days of a month. -/
def daysIn (year month : Nat) : Nat :=
  if month = 2 then
    (if year % 4 = 0 ∧ (year % 100 ≠ 0 ∨ year % 400 = 0) then 29 else 28)
  else if month = 4 ∨ month = 6 ∨ month = 9 ∨ month = 11 then 30
  else 31

/-- A day of the calendar. -/
def date? (cs : List Char) : Option (List Char) := do
  let (year, cs) ← fixed? 4 0 9999 cs
  let (month, cs) ← fixed? 2 1 12 (← ['-'].isPrefixOf? cs)
  let (_, cs) ← fixed? 2 1 (daysIn year month) (← ['-'].isPrefixOf? cs)
  return cs

/-- A time of day, with any number of places after the seconds. -/
def time? (cs : List Char) : Option (List Char) := do
  let (_, cs) ← fixed? 2 0 23 cs
  let (_, cs) ← fixed? 2 0 59 (← [':'].isPrefixOf? cs)
  let (_, cs) ← fixed? 2 0 60 (← [':'].isPrefixOf? cs)
  match cs with
  | '.' :: rest =>
    if (rest.takeWhile Char.isDigit).isEmpty then none else return rest.dropWhile Char.isDigit
  | _ => return cs

/-- The difference to universal time. -/
def offset? : List Char → Option (List Char)
  | c :: rest =>
    if c = 'z' ∨ c = 'Z' then some rest
    else if c = '+' ∨ c = '-' then do
      let (_, rest) ← fixed? 2 0 23 rest
      let (_, rest) ← fixed? 2 0 59 (← [':'].isPrefixOf? rest)
      return rest
    else none
  | [] => none

/-- The time of day behind a date and a letter or space. -/
def timeOfDay? : List Char → Option (List Char)
  | c :: rest =>
    if c = 'T' ∨ c = 't' ∨ c = ' ' then do
      let rest ← time? rest
      return (offset? rest).getD rest
    else none
  | [] => none

/-- **A date, a time of day, or both.** -/
def datetime? (cs : List Char) : Option (Toml × List Char) := do
  let rest ←
    match date? cs with
    | some rest => some ((timeOfDay? rest).getD rest)
    | none => time? cs
  return (.datetime (consumed cs rest), rest)

/-- **A value that starts with a digit or a sign.** -/
def numeric? (cs : List Char) : Option (Toml × List Char) :=
  (datetime? cs).or ((fractional? cs).or ((special? cs).or (integer? cs)))

end Toml

end TxDelivery
