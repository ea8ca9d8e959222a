import TxDelivery.Toml.Number

/-!
# Reading TOML documents

`TxDelivery.Toml.parse?` reads a document: lines that define a name, headers that open a table,
blank lines and comments. The readers of parts return what follows the part.

Values are nested, and what is left of a text after a value was read is shorter, but not in a way
that the recursion shows. So `TxDelivery.Toml.readValue?` has fuel, of which every value inside
another uses one up. It is no limit, since the fuel is more than there can be values in the text.
The limit to nesting is another number, and belongs to the format (`TxDelivery.Toml.depthLimit`).

A statement goes up to the end of its line and starts without a blank, which leaves the choice to
its first character: a comment, a header of one of two kinds, a line end, or a name. What a
statement does to the document is not decided here but by the edits of tables, and a statement that
is well written may still be refused by them.
-/

namespace TxDelivery

namespace Toml

/-- Whether a character may stand in a name without quotes. -/
def isBare (c : Char) : Bool :=
  c.isAlpha || c.isDigit || c = '-' || c = '_'

/-- Whether a character may stand in a comment. -/
def isCommentChar (c : Char) : Bool := isPlain c

/-- The text after the comment it starts with, if it starts with one. -/
def skipComment : List Char → List Char
  | '#' :: rest => rest.dropWhile isCommentChar
  | cs => cs

/-- The text behind the rest of a line: blanks, a comment, and the line end if there is one. -/
def lineEnd? (cs : List Char) : Option (List Char) :=
  match skipComment (skipSpaces cs) with
  | [] => some []
  | cs => newline? cs

/-- A name without dots. -/
def name? (cs : List Char) : Option (String × List Char) :=
  match cs with
  | [] => none
  | c :: _ =>
    if c = '"' ∨ c = '\'' then
      (quotedName? cs).map fun (t, rest) => (String.ofList t, rest)
    else if isBare c then
      some (String.ofList (cs.takeWhile isBare), cs.dropWhile isBare)
    else none

/-- The names of a dotted name, blanks around each allowed, at most `count` of them. -/
def path? : (count : Nat) → List Char → Option (List String × List Char)
  | 0, _ => none
  | count + 1, cs =>
    match name? (skipSpaces cs) with
    | none => none
    | some (name, rest) =>
      match skipSpaces rest with
      | '.' :: rest => (path? count rest).map fun (names, rest) => (name :: names, rest)
      | rest => some ([name], rest)

/-- **A dotted name**, of fewer names than the depth limit. -/
def key? (cs : List Char) : Option (List String × List Char) := path? (depthLimit - 1) cs

/-- The text behind blanks, line ends and comments, which may stand between the items of a list. -/
def skipLines : (fuel : Nat) → List Char → List Char
  | 0, cs => cs
  | fuel + 1, cs =>
    match skipSpaces cs with
    | '#' :: rest =>
      match newline? (rest.dropWhile isCommentChar) with
      | some rest => skipLines fuel rest
      | none => '#' :: rest
    | rest =>
      match newline? rest with
      | some rest => skipLines fuel rest
      | none => rest

/-- The text behind everything that may stand between the items of a list. -/
def skipLayout (cs : List Char) : List Char := skipLines (cs.length + 1) cs

mutual

/-- **A value at the start of a text**, `depth` lists and braces deep. Every nested value uses up
one of `fuel`, for which twice the length of the text is enough. -/
def readValue? : (fuel depth : Nat) → List Char → Option (Toml × List Char)
  | 0, _, _ => none
  | fuel + 1, depth, cs =>
    match cs with
    | [] => none
    | '[' :: rest =>
      if depthLimit ≤ depth + 1 then none
      else (readItems? fuel (depth + 1) rest).map fun (vs, rest) => (.array vs, rest)
    | '\x7b' :: rest =>
      if depthLimit ≤ depth + 1 then none
      else
        match skipSpaces rest with
        | '\x7d' :: rest => some (.table .inlined [], rest)
        | _ => (readFields? fuel (depth + 1) [] rest).map fun (fs, rest) =>
          (.table .inlined fs, rest)
    | c :: rest =>
      if c = '"' ∨ c = '\'' then
        (quoted? cs).map fun (t, rest) => (.string (String.ofList t), rest)
      else if c = 't' then ("rue".toList.isPrefixOf? rest).map fun rest => (.boolean true, rest)
      else if c = 'f' then ("alse".toList.isPrefixOf? rest).map fun rest => (.boolean false, rest)
      else if c = 'i' ∨ c = 'n' then special? cs
      else if c.isDigit ∨ c = '+' ∨ c = '-' then numeric? cs
      else none

/-- The items of a list up to its bracket, from behind the opening bracket or a comma. -/
def readItems? : (fuel depth : Nat) → List Char → Option (List Toml × List Char)
  | 0, _, _ => none
  | fuel + 1, depth, cs =>
    match skipLayout cs with
    | ']' :: rest => some ([], rest)
    | cs =>
      match readValue? fuel depth cs with
      | none => none
      | some (v, rest) =>
        match skipLayout rest with
        | ']' :: rest => some ([v], rest)
        | ',' :: rest => (readItems? fuel depth rest).map fun (vs, rest) => (v :: vs, rest)
        | _ => none

/-- The definitions inside braces, added to those read before, up to the closing brace. -/
def readFields? : (fuel depth : Nat) → Fields → List Char → Option (Fields × List Char)
  | 0, _, _, _ => none
  | fuel + 1, depth, fields, cs =>
    match key? cs with
    | some (path, '=' :: rest) =>
      match readValue? fuel depth (skipSpaces rest) with
      | none => none
      | some (v, rest) =>
        match define? path v .inlined fields with
        | none => none
        | some fields =>
          match skipSpaces rest with
          | '\x7d' :: rest => some (fields, rest)
          | ',' :: rest => readFields? fuel depth fields rest
          | _ => none
    | _ => none

end

/-- A value outside of lists and braces. -/
def value? (cs : List Char) : Option (Toml × List Char) := readValue? (2 * cs.length + 1) 0 cs

/-- What has been read of a document. -/
structure Document where
  /-- The names defined so far. -/
  root : Fields
  /-- The path of the header that was opened last. -/
  header : List String
  deriving Repr, Inhabited

/-- A header up to the end of its line: the path in `closing` brackets. -/
def headerLine? (closing : Nat) (cs : List Char) : Option (List String × List Char) := do
  let (path, rest) ← key? cs
  let rest ← (List.replicate closing ']').isPrefixOf? rest
  return (path, ← lineEnd? rest)

/-- **One statement of a document**, which does not start with a blank: a comment, a header, an
empty line or a definition, each up to the end of its line. -/
def statement? (d : Document) : List Char → Option (Document × List Char)
  | '[' :: '[' :: rest => do
    let (path, rest) ← headerLine? 2 rest
    return (⟨← openItem? path d.root, path⟩, rest)
  | '[' :: rest => do
    let (path, rest) ← headerLine? 1 rest
    return (⟨← openTable? path d.root, path⟩, rest)
  | cs =>
    match lineEnd? cs with
    | some rest => some (d, rest)
    | none => do
      let (path, rest) ← key? cs
      let rest ← ['='].isPrefixOf? rest
      let (v, rest) ← value? (skipSpaces rest)
      let rest ← lineEnd? rest
      return (⟨← defineIn? d.header path v d.root, d.header⟩, rest)

/-- The statements of a document up to the end of the text; every one uses up one of `fuel`, for
which the length of the text is enough. -/
def statements? : (fuel : Nat) → Document → List Char → Option Document
  | 0, _, _ => none
  | fuel + 1, d, cs =>
    match skipSpaces cs with
    | [] => some d
    | cs =>
      match statement? d cs with
      | none => none
      | some (d, rest) => statements? fuel d rest

/-- **Reading a document.** A byte order mark in front is ignored. -/
def parse? (text : String) : Option Fields :=
  let cs := match text.toList with
    | c :: rest => if c.toNat = 0xFEFF then rest else c :: rest
    | [] => []
  (statements? (cs.length + 1) ⟨[], []⟩ cs).map (·.root)

end Toml

end TxDelivery
