import TxDelivery.Numeral
import TxDelivery.Text.Blank

/-!
# Filters of log events

The log level of a configuration is a filter: directives separated by commas, each a level, or a
target with a level, or a span or fields in brackets with a level. Directives that cannot be read
are left out; a filter without any shows errors only. `TxDelivery.LogFilter.parse` reads a filter
and `TxDelivery.LogFilter.text` writes it, the more specific directives first.

A directive is read character by character by a machine with a handful of places
(`TxDelivery.LogFilter.Place`), which remembers where the part it is in began. The parts are cut out
of the text when they end. There is no going back: a character that is not possible at a place makes
the directive none.

Directives for the same events replace each other, and the later one counts. Which of the others
comes first is told by how specific they are (`TxDelivery.LogFilter.Directive.compare`); those that
can be judged without a look at spans are kept apart from those that cannot.
-/

namespace TxDelivery

/-- How much of the log is shown. -/
inductive LogLevel where
  | off
  | error
  | warn
  | info
  | debug
  | trace
  deriving DecidableEq, Repr, Inhabited

namespace LogLevel

/-- The name of a level. -/
def name : LogLevel → String
  | off => "off"
  | error => "error"
  | warn => "warn"
  | info => "info"
  | debug => "debug"
  | trace => "trace"

/-- The levels from nothing to everything. -/
def all : List LogLevel := [off, error, warn, info, debug, trace]

/-- A level by its number. -/
def ofNumber? (cs : List Char) : Option LogLevel := do
  let digits := match cs with
    | '+' :: rest => rest
    | cs => cs
  all[← Numeral.ofDecimal? digits]?

/-- **A level by its number or, in any case, by its name.** The empty text means errors. -/
def parse? (cs : List Char) : Option LogLevel :=
  (ofNumber? cs).or <|
    if cs.isEmpty then some error
    else all.find? fun l => l.name.toList = cs.map Char.toLower

end LogLevel

namespace LogFilter

/-- A field a directive asks for, and the value it asks for, if any. -/
structure FieldMatch where
  /-- The name of the field. -/
  name : String
  /-- Its value. -/
  value : Option String
  deriving DecidableEq, Repr

/-- A field as written. -/
def FieldMatch.text (m : FieldMatch) : String :=
  match m.value with
  | none => m.name
  | some v => m.name ++ "=" ++ v

/-- One directive of a filter. -/
structure Directive where
  /-- The level it sets. -/
  level : LogLevel := .trace
  /-- The target it is for. -/
  target : Option String := none
  /-- The span it is for. -/
  span : Option String := none
  /-- The fields it is for. -/
  fields : List FieldMatch := []
  deriving DecidableEq, Repr, Inhabited

/-- Where the reader of a directive stands. -/
inductive Place where
  /-- Before the first character. -/
  | start
  /-- In a text that is a level or a target. -/
  | levelOrTarget
  /-- In the name of a span that began here. -/
  | span (start : Nat)
  /-- In a field that began here. -/
  | field (start : Nat)
  /-- Behind the fields. -/
  | fields
  /-- Behind the brackets. -/
  | target
  /-- In a level that began here. -/
  | level (start : Nat)
  deriving DecidableEq, Repr

/-- The part of a text between two places. -/
def slice (text : List Char) (i j : Nat) : List Char := (text.take j).drop i

/-- A field between two places. -/
def fieldAt? (text : List Char) (i j : Nat) : Option FieldMatch :=
  let cs := slice text i j
  if cs.isEmpty then none
  else
    let rest := cs.dropWhile (· != '=')
    some ⟨String.ofList (cs.takeWhile (· != '=')),
      match rest with
      | [] => none
      | _ :: value => some (String.ofList (value.takeWhile (· != '=')))⟩

/-- Whether a directive may start with a character. -/
def startsDirective (c : Char) : Bool :=
  c = '-' || c = ':' || c = '_' || c.isAlphanum || 128 ≤ c.toNat

/-- **One character of a directive**, at place `i` of `text`. -/
def step (text : List Char) (i : Nat) (c : Char) (d : Directive) :
    Place → Option (Directive × Place)
  | .start =>
    if c = '[' then some (d, .span (i + 1))
    else if startsDirective c then some (d, .levelOrTarget)
    else none
  | .levelOrTarget =>
    let target := String.ofList (slice text 0 i)
    if c = '=' then some ({ d with target := some target }, .level (i + 1))
    else if c = '[' then some ({ d with target := some target }, .span (i + 1))
    else some (d, .levelOrTarget)
  | .target => if c = '=' then some (d, .level (i + 1)) else none
  | .span start =>
    let name := slice text start i
    if c = ']' then some ({ d with span := some (String.ofList name) }, .target)
    else if c = '\x7b' then
      some ({ d with span := if name.isEmpty then none else some (String.ofList name) },
        .field (i + 1))
    else some (d, .span start)
  | .field start =>
    if c = '\x7d' then
      (fieldAt? text start i).map fun m => ({ d with fields := d.fields ++ [m] }, .fields)
    else some (d, .field start)
  | .fields => if c = ']' then some (d, .target) else none
  | .level start => some (d, .level start)

/-- All characters of a directive, the next one standing at place `i`. -/
def steps (text : List Char) :
    (i : Nat) → List Char → Directive × Place → Option (Directive × Place)
  | _, [], r => some r
  | i, c :: rest, (d, place) => (step text i c d place).bind (steps text (i + 1) rest)

/-- The directive that is read once the text ends. -/
def finish (text : List Char) : Directive × Place → Option Directive
  | (d, .levelOrTarget) =>
    match LogLevel.parse? text with
    | some level => some { d with level := level }
    | none => some { d with target := some (String.ofList text) }
  | (d, .level start) =>
    match text.drop start with
    | [] => some { d with level := .trace }
    | level => (LogLevel.parse? level).map fun level => { d with level := level }
  | (d, .target) => some d
  | _ => none

/-- **Reading one directive.** Blanks at its ends are passed over, but the places found apply to the
text as it stands. -/
def Directive.parse? (text : List Char) : Option Directive :=
  (steps text 0 (trimBlanks text) ({}, .start)).bind (finish text)

/-- Whether a directive depends on the span of an event. -/
def Directive.isDynamic (d : Directive) : Bool := d.span.isSome || !d.fields.isEmpty

/-- The form of a directive that needs no look at spans, if it has one: no span, and fields without
values. -/
def Directive.static? (d : Directive) : Option Directive :=
  if d.span.isNone && d.fields.all (·.value.isNone) then some d else none

/-- The brackets of a directive, written only where they hold something. -/
def Directive.brackets (d : Directive) : Option String :=
  if d.isDynamic then
    let fields :=
      if d.fields.isEmpty then ""
      else "\x7b" ++ ",".intercalate (d.fields.map FieldMatch.text) ++ "\x7d"
    some ("[" ++ d.span.getD "" ++ fields ++ "]")
  else none

/-- A directive as written. -/
def Directive.text (d : Directive) : String :=
  match d.target, d.brackets with
  | none, none => d.level.name
  | target, brackets => target.getD "" ++ brackets.getD "" ++ "=" ++ d.level.name

/-- The order of optional parts, the absent one first. -/
def compareOptions {α : Type} (f : α → α → Ordering) : Option α → Option α → Ordering
  | none, none => .eq
  | none, some _ => .lt
  | some _, none => .gt
  | some a, some b => f a b

/-- **Which of two directives is less specific**: by the length of the target, by having a span, by
the number of fields, and among equals by their texts. -/
def Directive.compare (a b : Directive) : Ordering :=
  (compareOptions (fun s t => Ord.compare s.utf8ByteSize t.utf8ByteSize) a.target b.target).then <|
  (Ord.compare a.span.isSome.toNat b.span.isSome.toNat).then <|
  (Ord.compare a.fields.length b.fields.length).then <|
  (compareOptions Ord.compare a.target b.target).then <|
  (compareOptions Ord.compare a.span b.span).then <|
  Ord.compare (",".intercalate (a.fields.map FieldMatch.text))
    (",".intercalate (b.fields.map FieldMatch.text))

/-- Puts a directive in its place, the most specific ones first; it takes the place of one that is
for the same events. -/
def insert (d : Directive) : List Directive → List Directive
  | [] => [d]
  | e :: rest =>
    match d.compare e with
    | .gt => d :: e :: rest
    | .eq => d :: rest
    | .lt => e :: insert d rest

/-- The directives in order, later ones taking the place of earlier ones for the same events. -/
def ordered (ds : List Directive) : List Directive := ds.foldl (fun acc d => insert d acc) []

end LogFilter

/-- A filter of log events. -/
structure LogFilter where
  /-- The directives that need no look at spans. -/
  static : List LogFilter.Directive
  /-- The directives that do. -/
  dynamic : List LogFilter.Directive
  deriving Repr

namespace LogFilter

/-- The parts of a text between commas. -/
def splitCommas : List Char → List (List Char)
  | [] => [[]]
  | c :: rest =>
    if c = ',' then [] :: splitCommas rest
    else
      match splitCommas rest with
      | part :: parts => (c :: part) :: parts
      | [] => [[c]]

/-- **Reading a filter.** -/
def parse (text : String) : LogFilter :=
  let ds := ((splitCommas text.toList).filter (!·.isEmpty)).filterMap Directive.parse?
  let dynamic := ds.filter Directive.isDynamic
  let static := (ds.filter (!·.isDynamic) ++ dynamic).filterMap Directive.static?
  if static.isEmpty && dynamic.isEmpty then ⟨[{ level := .error }], []⟩
  else ⟨ordered static, ordered dynamic⟩

/-- **Writing a filter.** -/
def text (f : LogFilter) : String :=
  ",".intercalate ((f.static ++ f.dynamic).map Directive.text)

end LogFilter

end TxDelivery
