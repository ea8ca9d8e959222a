import TxDelivery.Json.Basic

/-!
# Reading JSON

`TxDelivery.Json.parse?` reads a text that holds exactly one value, blanks around it allowed, and
refuses everything else: leading zeros, raw control characters in texts, halves of surrogate pairs,
anything after the value. The readers of parts return what follows the part.

Who skips a value only looks at its form and lets halves of surrogate pairs through. To find out
what a text with such values denotes, `TxDelivery.Json.parseWith?` is told where halves may stand.

Texts and numbers are read by recursion on the characters. Values are nested, and for them there is
fuel, of which every value inside another uses one up; the length of the text is always enough, so
that a text is refused for what it is and never for want of fuel. A reader of a part is given a text
from some place on and knows nothing of what came before. So a value reads the same wherever it
stands, and what was written can be read back part by part.

A half of a surrogate pair stands for no character. Where halves are let through, a replacement
character is read for each of them.
-/

namespace TxDelivery

namespace Json

/-- Whether a character may stand between the parts of a value. -/
def isBlank (c : Char) : Bool := c = ' ' || c = '\n' || c = '\t' || c = '\r'

/-- The text after the blanks it starts with. -/
def skipBlanks (cs : List Char) : List Char := cs.dropWhile isBlank

/-- The number that four hexadecimal digits stand for. -/
def hex4? (a b c d : Char) : Option Nat := Numeral.ofDigits? 16 [a, b, c, d]

/-- What a character after a backslash stands for, `u` apart. -/
def escaped? : Char → Option Char
  | '"' => some '"'
  | '\\' => some '\\'
  | '/' => some '/'
  | 'b' => some (Char.ofNat 8)
  | 'f' => some (Char.ofNat 12)
  | 'n' => some '\n'
  | 'r' => some '\r'
  | 't' => some '\t'
  | _ => none

/-- Where halves of surrogate pairs may stand. -/
inductive Halves where
  /-- Nowhere. -/
  | nowhere
  /-- Everywhere but in the names of the outermost object. -/
  | inside
  /-- Everywhere. -/
  | anywhere
  deriving DecidableEq, Repr

namespace Halves

/-- Whether they may stand in the names of an object. -/
def inNames : Halves → Bool
  | anywhere => true
  | _ => false

/-- Whether they may stand in a text. -/
def inTexts : Halves → Bool
  | nowhere => false
  | _ => true

/-- Where they may stand in the parts of a value. -/
def below : Halves → Halves
  | nowhere => nowhere
  | _ => anywhere

end Halves

/-- **The characters of a quoted text**, read from behind its opening quote. A pair of surrogate
escapes is one character, and half a pair is refused. With `halves` no pairs are looked for, and
every surrogate escape is read as the replacement character. -/
def textBody? (halves : Bool) : List Char → Option (List Char × List Char)
  | [] => none
  | '"' :: rest => some ([], rest)
  | '\\' :: 'u' :: a :: b :: c :: d :: rest =>
    match hex4? a b c d with
    | none => none
    | some hi =>
      if halves ∧ 0xD800 ≤ hi ∧ hi < 0xE000 then
        (textBody? halves rest).map fun (cs, rest) => (Char.ofNat 0xFFFD :: cs, rest)
      else if 0xD800 ≤ hi ∧ hi < 0xDC00 then
        match rest with
        | '\\' :: 'u' :: e :: f :: g :: h :: rest =>
          match hex4? e f g h with
          | none => none
          | some lo =>
            if 0xDC00 ≤ lo ∧ lo < 0xE000 then
              (textBody? halves rest).map fun (cs, rest) =>
                (Char.ofNat (0x10000 + (hi - 0xD800) * 0x400 + (lo - 0xDC00)) :: cs, rest)
            else none
        | _ => none
      else if 0xDC00 ≤ hi ∧ hi < 0xE000 then none
      else (textBody? halves rest).map fun (cs, rest) => (Char.ofNat hi :: cs, rest)
  | '\\' :: e :: rest =>
    match escaped? e with
    | none => none
    | some c => (textBody? halves rest).map fun (cs, rest) => (c :: cs, rest)
  | c :: rest =>
    if c.toNat < 32 ∨ c = '\\' then none
    else (textBody? halves rest).map fun (cs, rest) => (c :: cs, rest)

/-- The decimal digits a text starts with, and the rest. -/
def spanDigits (cs : List Char) : List Char × List Char :=
  (cs.takeWhile Char.isDigit, cs.dropWhile Char.isDigit)

/-- The digits before the point: a lone zero, or digits that do not start with zero. -/
def wholePart? : List Char → Option (List Char × List Char)
  | '0' :: rest =>
    match rest with
    | c :: _ => if c.isDigit then none else some (['0'], rest)
    | [] => some (['0'], [])
  | cs =>
    match spanDigits cs with
    | ([], _) => none
    | r => some r

/-- The point and the digits after it, if a text starts with a point. -/
def fractionPart? : List Char → Option (Option (List Char) × List Char)
  | '.' :: rest =>
    match spanDigits rest with
    | ([], _) => none
    | (ds, rest) => some (some ds, rest)
  | cs => some (none, cs)

/-- The digits of an exponent behind its mark and sign. -/
def exponentDigits? (negative : Bool) (cs : List Char) :
    Option (Option (Bool × List Char) × List Char) :=
  match spanDigits cs with
  | ([], _) => none
  | (ds, rest) => some (some (negative, ds), rest)

/-- The exponent, if a text starts with its mark. -/
def exponentPart? : List Char → Option (Option (Bool × List Char) × List Char)
  | c :: rest =>
    if c = 'e' ∨ c = 'E' then
      match rest with
      | '-' :: rest => exponentDigits? true rest
      | '+' :: rest => exponentDigits? false rest
      | _ => exponentDigits? false rest
    else some (none, c :: rest)
  | [] => some (none, [])

/-- A number behind its sign. -/
def unsigned? (negative : Bool) (cs : List Char) : Option (Number × List Char) := do
  let (whole, cs) ← wholePart? cs
  let (fraction, cs) ← fractionPart? cs
  let (exponent, cs) ← exponentPart? cs
  return (⟨negative, whole, fraction, exponent⟩, cs)

/-- A number. -/
def number? : List Char → Option (Number × List Char)
  | '-' :: cs => unsigned? true cs
  | cs => unsigned? false cs

mutual

/-- **A value at the start of a text**, behind blanks. Every nested value uses up one of `fuel`, for
which the length of the text is always enough. -/
def readValue? (halves : Halves) : (fuel : Nat) → List Char → Option (Json × List Char)
  | 0, _ => none
  | fuel + 1, cs =>
    match skipBlanks cs with
    | [] => none
    | '"' :: rest =>
      (textBody? halves.inTexts rest).map fun (t, rest) => (.string (String.ofList t), rest)
    | '[' :: rest =>
      match skipBlanks rest with
      | ']' :: rest => some (.array [], rest)
      | _ => (readItems? halves fuel rest).map fun (vs, rest) => (.array vs, rest)
    | '\x7b' :: rest =>
      match skipBlanks rest with
      | '\x7d' :: rest => some (.object [], rest)
      | _ => (readFields? halves fuel rest).map fun (fs, rest) => (.object fs, rest)
    | 'n' :: rest => ("ull".toList.isPrefixOf? rest).map fun rest => (.null, rest)
    | 't' :: rest => ("rue".toList.isPrefixOf? rest).map fun rest => (.bool true, rest)
    | 'f' :: rest => ("alse".toList.isPrefixOf? rest).map fun rest => (.bool false, rest)
    | cs => (number? cs).map fun (n, rest) => (.number n, rest)

/-- The items of an array, from behind its bracket or a comma. -/
def readItems? (halves : Halves) : (fuel : Nat) → List Char → Option (List Json × List Char)
  | 0, _ => none
  | fuel + 1, cs =>
    match readValue? halves.below fuel cs with
    | none => none
    | some (v, rest) =>
      match skipBlanks rest with
      | ']' :: rest => some ([v], rest)
      | ',' :: rest => (readItems? halves fuel rest).map fun (vs, rest) => (v :: vs, rest)
      | _ => none

/-- The fields of an object, from behind its brace or a comma. -/
def readFields? (halves : Halves) :
    (fuel : Nat) → List Char → Option (List (String × Json) × List Char)
  | 0, _ => none
  | fuel + 1, cs =>
    match skipBlanks cs with
    | '"' :: rest =>
      match textBody? halves.inNames rest with
      | none => none
      | some (key, rest) =>
        match skipBlanks rest with
        | ':' :: rest =>
          match readValue? halves.below fuel rest with
          | none => none
          | some (v, rest) =>
            match skipBlanks rest with
            | '\x7d' :: rest => some ([(String.ofList key, v)], rest)
            | ',' :: rest =>
              (readFields? halves fuel rest).map fun (fs, rest) =>
                ((String.ofList key, v) :: fs, rest)
            | _ => none
        | _ => none
    | _ => none

end

/-- **Reading a text that holds one value.** -/
def parseWith? (halves : Halves) (s : String) : Option Json :=
  match readValue? halves (2 * s.toList.length + 1) s.toList with
  | some (v, rest) => if skipBlanks rest = [] then some v else none
  | none => none

/-- Reading a text that holds one value, without halves of surrogate pairs. -/
def parse? (s : String) : Option Json := parseWith? .nowhere s

end Json

end TxDelivery
