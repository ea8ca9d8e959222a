import TxDelivery.Numeral

/-!
# Writing TOML

Texts are quoted in the plainest of the four ways that fits, tried in this order: a basic text on
one line without escapes, a literal text on one line, a basic text over several lines without
escapes, a literal text over several lines; when none fits, a basic text with escapes
(`TxDelivery.Toml.quote`). Lists of two or more items have one item a line (`TxDelivery.Toml.list`).

Which way fits is told by five things about a text, found in one pass over it
(`TxDelivery.Toml.Shape`): whether some character has to be escaped in any case, whether there is a
backslash or a line end, and how many delimiters of either kind come in a row at most. A text with
three delimiters in a row cannot be in quotes of that kind over several lines, as they would end it.

Whatever the choice, the same text is read back.
-/

namespace TxDelivery

namespace Toml

/-- Whether a character has to be escaped even where line ends may stand. -/
def needsCode (c : Char) : Bool :=
  c.toNat = 0x7f || (c.toNat < 0x20 && c != '\t' && c != '\n')

/-- The length of the longest run of `c` in a text, the last `current` characters before it having
been `c`. -/
def longestRun (c : Char) : (current : Nat) → List Char → Nat
  | current, [] => current
  | current, d :: rest =>
    if d = c then longestRun c (current + 1) rest else max current (longestRun c 0 rest)

/-- A text escaped for a basic text, at most `quotes` quotes in a row being left as they are and
line ends as well if `lines` is set. The last `current` characters were quotes left as they are. -/
def escape (lines : Bool) (quotes : Nat) : (current : Nat) → List Char → List Char
  | _, [] => []
  | current, c :: rest =>
    if c = '"' then
      (if current < quotes then '"' :: escape lines quotes (current + 1) rest
      else '\\' :: '"' :: escape lines quotes 0 rest)
    else if c = '\\' then '\\' :: '\\' :: escape lines quotes 0 rest
    else if c = '\t' then '\\' :: 't' :: escape lines quotes 0 rest
    else if c = '\n' then
      (if lines then '\n' :: escape lines quotes 0 rest
      else '\\' :: 'n' :: escape lines quotes 0 rest)
    else if c = '\r' then '\\' :: 'r' :: escape lines quotes 0 rest
    else if c.toNat = 8 then '\\' :: 'b' :: escape lines quotes 0 rest
    else if c.toNat = 12 then '\\' :: 'f' :: escape lines quotes 0 rest
    else if needsCode c then
      '\\' :: 'u' :: ((Numeral.padded 16 4 c.toNat).map Char.toUpper
        ++ escape lines quotes 0 rest)
    else c :: escape lines quotes 0 rest

/-- What the choice of quotation depends on. -/
structure Shape where
  /-- Whether some character has to be escaped. -/
  codes : Bool
  /-- Whether there is a backslash. -/
  backslash : Bool
  /-- Whether there is a line end. -/
  newline : Bool
  /-- The longest run of double quotes. -/
  doubles : Nat
  /-- The longest run of single quotes. -/
  singles : Nat

/-- The shape of a text. -/
def shape (cs : List Char) : Shape :=
  ⟨cs.any needsCode, cs.contains '\\', cs.contains '\n', longestRun '"' 0 cs, longestRun '\'' 0 cs⟩

/-- A basic text on one line. -/
def asBasic (cs : List Char) : List Char := '"' :: (escape false 0 0 cs ++ ['"'])

/-- A literal text on one line. -/
def asLiteral (cs : List Char) : List Char := '\'' :: (cs ++ ['\''])

/-- A delimiter of three characters. -/
def triple (c : Char) : List Char := [c, c, c]

/-- The line end behind an opening delimiter of three, for texts of several lines. -/
def lead (s : Shape) : List Char := if s.newline then ['\n'] else []

/-- A basic text over several lines. -/
def asBasicLines (s : Shape) (cs : List Char) : List Char :=
  triple '"' ++ lead s ++ escape true 2 0 cs ++ triple '"'

/-- A literal text over several lines. -/
def asLiteralLines (s : Shape) (cs : List Char) : List Char :=
  triple '\'' ++ lead s ++ cs ++ triple '\''

/-- **A text in quotes.** -/
def quoteChars (cs : List Char) : List Char :=
  let s := shape cs
  if !s.codes && !s.backslash && s.doubles = 0 && !s.newline then asBasic cs
  else if !s.codes && s.singles = 0 && !s.newline then asLiteral cs
  else if !s.codes && !s.backslash && s.doubles ≤ 2 then asBasicLines s cs
  else if !s.codes && s.singles ≤ 2 then asLiteralLines s cs
  else if s.newline then asBasicLines s cs
  else asBasic cs

/-- A text in quotes. -/
def quote (s : String) : String := String.ofList (quoteChars s.toList)

/-- **A list of written items**: on one line up to one item, one item a line from two on. -/
def list : List String → String
  | [] => "[]"
  | [item] => "[" ++ item ++ "]"
  | items => "[\n" ++ String.join (items.map fun item => "    " ++ item ++ ",\n") ++ "]"

/-- An integer, if it fits into sixty-four bits with a sign. -/
def integerText? (n : UInt64) : Option String :=
  if n.toNat < Nat.pow 2 63 then some (Numeral.decimal n.toNat) else none

/-- A truth value. -/
def flagText (b : Bool) : String := if b then "true" else "false"

/-- The line that defines a name. -/
def line (name value : String) : String := name ++ " = " ++ value ++ "\n"

end Toml

end TxDelivery
