import TxDelivery.Numeral

/-!
# Quoted texts in TOML

The four ways to quote a text. Basic texts know escapes, literal texts do not; each may be written
with one delimiter on one line or with three over several lines, where a line end is one line feed
however it was written. The readers start behind the opening delimiter and return the text and what
follows the closing one.

All four go through the text character by character, by recursion on what is left, so that they need
no bound and can be followed by induction. Where something can only be known from what comes next,
the pattern reads ahead: a closing delimiter of three is read with up to two more that still belong
to the text (`TxDelivery.Toml.closing`), and a backslash at the end of a line is told from other
backslashes by the blanks behind it. What it joins is left out by the same recursion, with a flag
that says that it is inside a gap.

A text that does not end has no value, and neither has one with a control character other than a
tab, or with an escape that is not one of those listed or names no character.
-/

namespace TxDelivery

namespace Toml

/-- Whether a character may stand in a quoted text as it is, delimiters and backslash apart. -/
def isPlain (c : Char) : Bool :=
  c = '\t' || (0x20 ≤ c.toNat && c.toNat ≠ 0x7f)

/-- Whether a character is a space or a tab. -/
def isSpace (c : Char) : Bool := c = ' ' || c = '\t'

/-- The text after the spaces and tabs it starts with. -/
def skipSpaces (cs : List Char) : List Char := cs.dropWhile isSpace

/-- The text after the line end it starts with. -/
def newline? : List Char → Option (List Char)
  | '\n' :: rest => some rest
  | '\r' :: '\n' :: rest => some rest
  | _ => none

/-- The character of a code point written in hexadecimal digits. -/
def scalar? (digits : List Char) : Option Char := do
  let n ← Numeral.ofDigits? 16 digits
  if n.isValidChar then return Char.ofNat n else none

/-- What a character after a backslash stands for, code points apart. -/
def escaped? : Char → Option Char
  | 'b' => some (Char.ofNat 8)
  | 't' => some '\t'
  | 'n' => some '\n'
  | 'f' => some (Char.ofNat 12)
  | 'r' => some '\r'
  | '"' => some '"'
  | '\\' => some '\\'
  | _ => none

/-- Puts a character in front of a text that was read. -/
def consText (c : Char) (r : Option (List Char × List Char)) : Option (List Char × List Char) :=
  r.map fun (cs, rest) => (c :: cs, rest)

/-- **A basic text on one line.** -/
def basic? : List Char → Option (List Char × List Char)
  | [] => none
  | '"' :: rest => some ([], rest)
  | '\\' :: 'u' :: a :: b :: c :: d :: rest =>
    match scalar? [a, b, c, d] with
    | some x => consText x (basic? rest)
    | none => none
  | '\\' :: 'U' :: a :: b :: c :: d :: e :: f :: g :: h :: rest =>
    match scalar? [a, b, c, d, e, f, g, h] with
    | some x => consText x (basic? rest)
    | none => none
  | '\\' :: e :: rest =>
    match escaped? e with
    | some x => consText x (basic? rest)
    | none => none
  | c :: rest => if isPlain c && c != '\\' then consText c (basic? rest) else none

/-- **A literal text on one line.** -/
def literal? : List Char → Option (List Char × List Char)
  | [] => none
  | '\'' :: rest => some ([], rest)
  | c :: rest => if isPlain c then consText c (literal? rest) else none

/-- Up to two delimiters that still belong to a text over several lines, at its end. -/
def closing (delimiter : Char) : List Char → List Char × List Char
  | a :: b :: rest =>
    if a = delimiter then
      if b = delimiter then ([a, b], rest) else ([a], b :: rest)
    else ([], a :: b :: rest)
  | [a] => if a = delimiter then ([a], []) else ([], [a])
  | [] => ([], [])

/-- Whether the rest of the line is blank, so that a backslash before it joins the lines. -/
def joinsLines (cs : List Char) : Bool := (newline? (skipSpaces cs)).isSome

/-- **A basic text over several lines.** While `gap` is set, blanks and line ends are left out, as
they are behind a backslash that ends a line. -/
def basicLines? : (gap : Bool) → List Char → Option (List Char × List Char)
  | _, [] => none
  | _, '"' :: '"' :: '"' :: rest => some (closing '"' rest)
  | _, '\\' :: 'u' :: a :: b :: c :: d :: rest =>
    match scalar? [a, b, c, d] with
    | some x => consText x (basicLines? false rest)
    | none => none
  | _, '\\' :: 'U' :: a :: b :: c :: d :: e :: f :: g :: h :: rest =>
    match scalar? [a, b, c, d, e, f, g, h] with
    | some x => consText x (basicLines? false rest)
    | none => none
  | _, '\\' :: e :: rest =>
    if joinsLines (e :: rest) then basicLines? true (e :: rest)
    else
      match escaped? e with
      | some x => consText x (basicLines? false rest)
      | none => none
  | gap, '\r' :: '\n' :: rest =>
    if gap then basicLines? true rest else consText '\n' (basicLines? false rest)
  | gap, c :: rest =>
    if gap && (isSpace c || c = '\n') then basicLines? true rest
    else if (isPlain c && c != '\\') || c = '\n' then consText c (basicLines? false rest)
    else none

/-- **A literal text over several lines.** -/
def literalLines? : List Char → Option (List Char × List Char)
  | [] => none
  | '\'' :: '\'' :: '\'' :: rest => some (closing '\'' rest)
  | '\r' :: '\n' :: rest => consText '\n' (literalLines? rest)
  | c :: rest => if isPlain c || c = '\n' then consText c (literalLines? rest) else none

/-- The text behind the line end that may follow an opening delimiter of three. -/
def dropNewline (cs : List Char) : List Char := (newline? cs).getD cs

/-- **A quoted text of any of the four kinds.** -/
def quoted? : List Char → Option (List Char × List Char)
  | '"' :: '"' :: '"' :: rest => basicLines? false (dropNewline rest)
  | '"' :: rest => basic? rest
  | '\'' :: '\'' :: '\'' :: rest => literalLines? (dropNewline rest)
  | '\'' :: rest => literal? rest
  | _ => none

/-- A quoted text on one line, as names may be written. -/
def quotedName? : List Char → Option (List Char × List Char)
  | '"' :: rest => basic? rest
  | '\'' :: rest => literal? rest
  | _ => none

end Toml

end TxDelivery
