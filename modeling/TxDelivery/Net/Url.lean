import TxDelivery.Net.Host

/-!
# URLs

The addresses of nodes, read as browsers read them: blanks around the text and line breaks within do
not count, the schemes of the web always have a host, with any number of slashes before it, and
everything behind host and port is taken as it comes. `TxDelivery.Url.parse` reads a URL or says why
a text is none.

What is wanted of a URL is whether it is one, and if so which scheme, host and port it has. Path,
query and fragment are not looked at. They cannot make a text no URL, whatever characters are in
them, as they would be encoded rather than refused.

How a text is read depends on its scheme, of which there are three kinds (`TxDelivery.SchemeKind`):
those of the web, that of files, which may do without a host, and all others, about whose hosts
nothing is known. The errors are in the order in which a reader comes upon them, so that of several
mistakes the first is told.
-/

namespace TxDelivery

/-- What is known of a scheme. -/
inductive SchemeKind where
  /-- A scheme of the web, whose URLs have a host. -/
  | web
  /-- The scheme of files. -/
  | file
  /-- Any other scheme. -/
  | other
  deriving DecidableEq, Repr

/-- What is known of the scheme of a name. -/
def SchemeKind.ofName (name : String) : SchemeKind :=
  if name = "file" then file
  else if ["http", "https", "ws", "wss", "ftp"].contains name then web
  else other

/-- A URL. -/
structure Url where
  /-- What kind of address it is, in small letters. -/
  scheme : String
  /-- Where it points to; `none` for URLs without a host. -/
  host : Option Host
  /-- The port, if one is given. -/
  port : Option Nat
  /-- What follows, as written. -/
  path : String
  deriving DecidableEq, Repr

namespace Url

/-- Whether a character may stand in a scheme. -/
def isSchemeChar (c : Char) : Bool := c.isAlphanum || c = '+' || c = '-' || c = '.'

/-- The text that counts: no blanks or controls at the ends, no tabs and line breaks. -/
def relevant (text : String) : List Char :=
  let blank (c : Char) : Bool := c.toNat ≤ 0x20
  let trimmed := ((text.toList.dropWhile blank).reverse.dropWhile blank).reverse
  trimmed.filter fun c => !(['\t', '\n', '\x0d'].contains c)

/-- The scheme in front of a colon, and what is behind it. -/
def scheme? (cs : List Char) : Option (String × List Char) :=
  match cs.head?, cs.dropWhile isSchemeChar with
  | some c, ':' :: rest =>
    if c.isAlpha then some (String.ofList ((cs.takeWhile isSchemeChar).map Char.toLower), rest)
    else none
  | _, _ => none

/-- Whether a character ends the part of a URL that holds user, host and port. -/
def endsAuthority (kind : SchemeKind) (c : Char) : Bool :=
  c = '/' || c = '?' || c = '#' || (c = '\\' && kind ≠ .other)

/-- The part that holds user, host and port, and what is behind it. -/
def authority (kind : SchemeKind) (cs : List Char) : List Char × List Char :=
  (cs.takeWhile (!endsAuthority kind ·), cs.dropWhile (!endsAuthority kind ·))

/-- The text before the last `@`, if there is one, and the text behind it. -/
def splitUser (cs : List Char) : Option (List Char) × List Char :=
  if cs.contains '@' then
    let behind := (cs.reverse.takeWhile (· ≠ '@')).reverse
    (some (cs.take (cs.length - behind.length - 1)), behind)
  else (none, cs)

/-- Whether the text before an `@` names a user or a password. -/
def namesUser : Option (List Char) → Bool
  | none | some [] | some [':'] => false
  | some _ => true

/-- How many characters the host takes: all up to the first colon outside of brackets. -/
def hostLength : (bracketed : Bool) → List Char → Nat
  | _, [] => 0
  | bracketed, c :: rest =>
    if c = ':' && !bracketed then 0
    else 1 + hostLength (if c = '[' then true else if c = ']' then false else bracketed) rest

/-- The port behind the host. Nothing behind the colon is no port; a backslash ends it. -/
def port? (cs : List Char) : Except UrlError (Option Nat) :=
  let digits := (cs.drop 1).takeWhile (· ≠ '\\')
  if digits.isEmpty then return none
  else
    match Numeral.ofDecimal? digits with
    | some n => if n < 65536 then return some n else throw .port
    | none => throw .port

/-- **User, host and port of a URL**, the text in front of the path. A user needs a host, and so
does a port. -/
def hostAndPort (kind : SchemeKind) (cs : List Char) (pathFollows : Bool) :
    Except UrlError (Option Host × Option Nat) := do
  let (user, cs) := splitUser cs
  let n := hostLength false cs
  let (text, rest) := (cs.take n, cs.drop n)
  if text.isEmpty then
    if kind = .web || !rest.isEmpty || namesUser user || (user = some [] && pathFollows) then
      throw .emptyHost
    return (none, none)
  else
    let host ← if kind = .other then Host.parseOpaque text else Host.parse text
    return (some host, ← port? rest)

/-- Whether a text is a drive, which in a file URL belongs to the path. -/
def isDrive : List Char → Bool
  | [c, d] => c.isAlpha && (d = ':' || d = '|')
  | _ => false

/-- Whether a character separates the parts of a file's URL. -/
def isSlash (c : Char) : Bool := c = '/' || c = '\\'

/-- The URL of a file. -/
def ofFile (cs : List Char) : Except UrlError Url := do
  match cs with
  | a :: b :: rest =>
    if isSlash a && isSlash b then
      let (text, path) := authority .file rest
      if text.isEmpty || isDrive text then return ⟨"file", none, none, String.ofList rest⟩
      let host ← Host.parse text
      let elsewhere := if host = .name "localhost" then none else some host
      return ⟨"file", elsewhere, none, String.ofList path⟩
    else return ⟨"file", none, none, String.ofList cs⟩
  | cs => return ⟨"file", none, none, String.ofList cs⟩

/-- The URL of a scheme with a host. -/
def ofAuthority (kind : SchemeKind) (scheme : String) (cs : List Char) : Except UrlError Url := do
  let (text, path) := authority kind cs
  let (host, port) ← hostAndPort kind text !path.isEmpty
  return ⟨scheme, host, port, String.ofList path⟩

/-- **Reading a URL.** -/
def parse (text : String) : Except UrlError Url :=
  match scheme? (relevant text) with
  | none => throw .noScheme
  | some (scheme, rest) =>
    match SchemeKind.ofName scheme with
    | .web => ofAuthority .web scheme (rest.dropWhile isSlash)
    | .file => ofFile rest
    | .other =>
      match rest with
      | '/' :: '/' :: rest => ofAuthority .other scheme rest
      | rest => return ⟨scheme, none, none, String.ofList rest⟩

end Url

end TxDelivery
