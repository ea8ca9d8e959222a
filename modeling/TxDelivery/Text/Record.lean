/-!
# Records as text

How a value is shown to operators: its name, then its parts, in braces with a name before each part
or in brackets without.
-/

namespace TxDelivery

/-- **A record as text**: `Name { first: …, second: … }`. -/
def recordText (name : String) (parts : List (String × String)) : String :=
  name ++ " \x7b " ++ ", ".intercalate (parts.map fun p => p.1 ++ ": " ++ p.2) ++ " \x7d"

/-- **A value with one unnamed part as text**: `Name(part)`. -/
def wrapText (name part : String) : String := name ++ "(" ++ part ++ ")"

/-- **A list as text**: `[first, second]`. -/
def listText (items : List String) : String := "[" ++ ", ".intercalate items ++ "]"

end TxDelivery
