import TxDelivery.Json.Basic

/-!
# Writing JSON

`TxDelivery.Json.compact` writes a value without blanks, `TxDelivery.Json.pretty` with one field or
item a line, indented by two. In texts only quotes, backslashes and control characters are escaped.

Both follow the value by structural recursion, with a function for values, one for the items of an
array and one for the fields of an object. They give lists of characters, which are put together to
a text once at the end; so what is written can be compared with what a reader is given, character by
character. An empty array or object has no lines of its own in either form.
-/

namespace TxDelivery

namespace Json

/-- A character inside a quoted text. -/
def escapeChar (c : Char) : List Char :=
  if c = '"' then ['\\', '"']
  else if c = '\\' then ['\\', '\\']
  else if c = '\n' then ['\\', 'n']
  else if c = '\r' then ['\\', 'r']
  else if c = '\t' then ['\\', 't']
  else if c.toNat = 8 then ['\\', 'b']
  else if c.toNat = 12 then ['\\', 'f']
  else if c.toNat < 32 then '\\' :: 'u' :: Numeral.padded 16 4 c.toNat
  else [c]

/-- A text in quotes. -/
def quoteChars (cs : List Char) : List Char := '"' :: (cs.flatMap escapeChar ++ ['"'])

/-- A text in quotes. -/
def quote (s : String) : String := String.ofList (quoteChars s.toList)

/-- A number as written. -/
def Number.text (n : Number) : List Char :=
  (if n.negative then ['-'] else []) ++ n.whole
    ++ (match n.fraction with
      | none => []
      | some f => '.' :: f)
    ++ (match n.exponent with
      | none => []
      | some (negative, e) => 'e' :: ((if negative then ['-'] else []) ++ e))

mutual

/-- **The text of a value without blanks.** -/
def compactChars : Json → List Char
  | .null => "null".toList
  | .bool true => "true".toList
  | .bool false => "false".toList
  | .number n => n.text
  | .string s => quoteChars s.toList
  | .array items => '[' :: (compactItems items ++ [']'])
  | .object fields => '\x7b' :: (compactFields fields ++ ['\x7d'])

/-- The items of an array, separated by commas. -/
def compactItems : List Json → List Char
  | [] => []
  | [v] => compactChars v
  | v :: rest => compactChars v ++ ',' :: compactItems rest

/-- The fields of an object, separated by commas. -/
def compactFields : List (String × Json) → List Char
  | [] => []
  | [(k, v)] => quoteChars k.toList ++ ':' :: compactChars v
  | (k, v) :: rest => quoteChars k.toList ++ ':' :: (compactChars v ++ ',' :: compactFields rest)

end

/-- The text of a value without blanks. -/
def compact (v : Json) : String := String.ofList (compactChars v)

/-- A new line at a depth. -/
def newLine (depth : Nat) : List Char := '\n' :: List.replicate (2 * depth) ' '

mutual

/-- The text of a value, its parts one a line at `depth + 1`. -/
def prettyChars (depth : Nat) : Json → List Char
  | .array [] => "[]".toList
  | .array items => '[' :: (prettyItems (depth + 1) items ++ newLine depth ++ [']'])
  | .object [] => ['\x7b', '\x7d']
  | .object fields =>
    '\x7b' :: (prettyFields (depth + 1) fields ++ newLine depth ++ ['\x7d'])
  | v => compactChars v

/-- The items of an array, one a line. -/
def prettyItems (depth : Nat) : List Json → List Char
  | [] => []
  | [v] => newLine depth ++ prettyChars depth v
  | v :: rest => newLine depth ++ prettyChars depth v ++ ',' :: prettyItems depth rest

/-- The fields of an object, one a line. -/
def prettyFields (depth : Nat) : List (String × Json) → List Char
  | [] => []
  | [(k, v)] => newLine depth ++ quoteChars k.toList ++ ':' :: ' ' :: prettyChars depth v
  | (k, v) :: rest =>
    newLine depth ++ quoteChars k.toList ++ ':' :: ' ' :: (prettyChars depth v
      ++ ',' :: prettyFields depth rest)

end

/-- The text of a value with one field or item a line. -/
def pretty (v : Json) : String := String.ofList (prettyChars 0 v)

end Json

end TxDelivery
