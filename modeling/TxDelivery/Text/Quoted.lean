import TxDelivery.Numeral
import TxDelivery.Text.Invisible

/-!
# Quoted text

How a text is shown to operators within a line: between double quotes, with a backslash before
quotes and backslashes, short names for line breaks and tabs, and the code points of everything
that would not show. So the quoted form is one line, and **the text can be told from it**.
-/

namespace TxDelivery

/-- A character within quotes. -/
def quotedChar (c : Char) : List Char :=
  if c = '"' then ['\\', '"']
  else if c = '\\' then ['\\', '\\']
  else if c = '\n' then ['\\', 'n']
  else if c = '\x0d' then ['\\', 'r']
  else if c = '\t' then ['\\', 't']
  else if c = '\x00' then ['\\', '0']
  else if isInvisible c then ['\\', 'u', '\x7b'] ++ Numeral.digits 16 c.toNat ++ ['\x7d']
  else [c]

/-- **A text in quotes.** -/
def quotedText (s : String) : String :=
  String.ofList ('"' :: s.toList.flatMap quotedChar ++ ['"'])

end TxDelivery
