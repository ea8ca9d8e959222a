import TxDelivery.Numeral

/-!
# JSON values

Values as a text denotes them: fields in the order written, repeated ones included, and numbers
digit by digit, so that no precision is lost before the reader of a field decides what it accepts.

The readers of parts of a value (`TxDelivery.Json.text?`, `TxDelivery.Json.natural?` and their like)
are for those who know what they expect. Each is given when the value is of its kind and is `none`
otherwise, so that a missing field, a field of another kind and a number that is too large can be
treated as one mistake or as several, as the caller wishes.

A natural number is one written without a point and an exponent. A value of a hundred may be written
in other ways too, and for a reader of naturals these are not the same.
-/

namespace TxDelivery

namespace Json

/-- A number as written. -/
structure Number where
  /-- Whether a minus sign stands in front. -/
  negative : Bool
  /-- The digits before the point. -/
  whole : List Char
  /-- The digits after the point, if there is one. -/
  fraction : Option (List Char)
  /-- Whether the exponent is negative, and its digits, if there is one. -/
  exponent : Option (Bool × List Char)
  deriving DecidableEq, Repr, Inhabited

/-- The number written as the decimal numeral of `n`. -/
def Number.ofNat (n : Nat) : Number := ⟨false, Numeral.digits 10 n, none, none⟩

/-- **The natural number written**, where sign, point and exponent are absent. -/
def Number.natural? : Number → Option Nat
  | ⟨false, whole, none, none⟩ => Numeral.ofDecimal? whole
  | _ => none

end Json

/-- A JSON value. -/
inductive Json where
  /-- The value `null`. -/
  | null
  /-- A truth value. -/
  | bool (b : Bool)
  /-- A number. -/
  | number (n : Json.Number)
  /-- A text. -/
  | string (s : String)
  /-- A list of values. -/
  | array (items : List Json)
  /-- Named values in the order written. -/
  | object (fields : List (String × Json))
  deriving Repr, Inhabited

namespace Json

/-- The value of a natural number. -/
def nat (n : Nat) : Json := .number (.ofNat n)

/-- The value of an optional one; `null` when absent. -/
def ofOption {α : Type} (f : α → Json) : Option α → Json
  | none => .null
  | some a => f a

/-- A field of an object. -/
def field? (v : Json) (name : String) : Option Json :=
  match v with
  | object fields => fields.lookup name
  | _ => none

/-- The text of a string value. -/
def text? : Json → Option String
  | string s => some s
  | _ => none

/-- The truth value of a boolean value. -/
def bool? : Json → Option Bool
  | bool b => some b
  | _ => none

/-- The natural number of a number value. -/
def natural? : Json → Option Nat
  | number n => n.natural?
  | _ => none

/-- The items of an array value. -/
def items? : Json → Option (List Json)
  | array items => some items
  | _ => none

end Json

end TxDelivery
