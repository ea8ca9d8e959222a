/-!
# TOML values

What a TOML document denotes. Tables remember how they came to be (`TxDelivery.Toml.Origin`), since
that decides which later lines may still add to them.

`TxDelivery.Toml.reach?` follows a path of names through nested tables and edits the table at its
end; the statements of a document, in `TxDelivery.Toml.openTable?`, `TxDelivery.Toml.openItem?` and
`TxDelivery.Toml.define?`, are edits of this kind.

A document is a sequence of edits of one table, which is empty at first. Whether an edit is allowed
is decided where it takes place and by what is there: a name that is defined cannot be defined
again, a table in braces is complete, a table with a header cannot be added to by dotted names, and
a header is given once. An edit that is not allowed makes the document none; so `none` is passed
upwards and there are no half-edited tables.

Fields are kept in the order in which their names appear: values are changed at their places, and
new names are added at the end. Whoever reads a table looks names up in it, and nothing depends on
their order.
-/

namespace TxDelivery

namespace Toml

/-- How a table came to be. -/
inductive Origin where
  /-- It was written in braces, and is complete. -/
  | inlined
  /-- It has a header line of its own. -/
  | header
  /-- A longer header line implies it. -/
  | implied
  /-- A dotted name implies it. -/
  | dotted
  deriving DecidableEq, Repr

end Toml

/-- A TOML value. -/
inductive Toml where
  /-- A text. -/
  | string (s : String)
  /-- A 64-bit integer. -/
  | integer (i : Int)
  /-- A number with a point or an exponent, as written. -/
  | float (text : String)
  /-- A truth value. -/
  | boolean (b : Bool)
  /-- A date, a time of day, or both, as written. -/
  | datetime (text : String)
  /-- A list. -/
  | array (items : List Toml)
  /-- A table. -/
  | table (origin : Toml.Origin) (fields : List (String × Toml))
  /-- A list of tables, each opened by a header line in double brackets. -/
  | tables (items : List (List (String × Toml)))
  deriving Repr, Inhabited

namespace Toml

/-- The names of a table with their values. -/
abbrev Fields := List (String × Toml)

/-- The fields with the value of a name that is there changed. -/
def replace (name : String) (value : Toml) (fields : Fields) : Fields :=
  fields.map fun f => if f.1 == name then (name, value) else f

/-- How deep names, lists and braces may be nested. -/
def depthLimit : Nat := 80

/-- **Editing the table at the end of a path**, tables missing on the way being made. A path that
runs into a list of tables goes on in the last of them. What is complete, or not a table, ends the
path in failure; so does, for the names of a dotted name, a table with a header of its own. -/
def reach? (dotted : Bool) (edit : Origin → Fields → Option Fields) :
    (path : List String) → Origin → Fields → Option Fields
  | [], origin, fields => edit origin fields
  | name :: path, _, fields =>
    match fields.lookup name with
    | none =>
      let origin := if dotted then Origin.dotted else .implied
      (reach? dotted edit path origin []).map fun sub => fields ++ [(name, .table origin sub)]
    | some (.table origin sub) =>
      if origin = .inlined || (dotted && origin = .header) then none
      else (reach? dotted edit path origin sub).map fun sub =>
        replace name (.table origin sub) fields
    | some (.tables items) =>
      match items.getLast? with
      | none => none
      | some last => (reach? dotted edit path .header last).map fun last =>
        replace name (.tables (items.dropLast ++ [last])) fields
    | some _ => none

/-- Gives a table its header. Only a table that was merely implied by longer headers may still get
one. -/
def openTable? (path : List String) (root : Fields) : Option Fields :=
  match path.getLast? with
  | none => none
  | some name => reach? false (fun _ fields =>
      match fields.lookup name with
      | none => some (fields ++ [(name, .table .header [])])
      | some (.table .implied sub) => some (replace name (.table .header sub) fields)
      | some _ => none) path.dropLast .header root

/-- Opens one more table in a list of tables. -/
def openItem? (path : List String) (root : Fields) : Option Fields :=
  match path.getLast? with
  | none => none
  | some name => reach? false (fun _ fields =>
      match fields.lookup name with
      | none => some (fields ++ [(name, .tables [[]])])
      | some (.tables items) => some (replace name (.tables (items ++ [[]])) fields)
      | some _ => none) path.dropLast .header root

/-- **Defining a name inside a table.** A name is defined once, and a dotted name may only add to
tables that dotted names made. -/
def define? (path : List String) (value : Toml) (origin : Origin) (fields : Fields) :
    Option Fields :=
  match path.getLast? with
  | none => none
  | some name =>
    let way := path.dropLast
    reach? true (fun origin fields =>
      if (origin = .dotted) = way.isEmpty then none
      else if (fields.lookup name).isSome then none
      else some (fields ++ [(name, value)])) way origin fields

/-- Defining a name inside the table whose header was opened last. -/
def defineIn? (header path : List String) (value : Toml) (root : Fields) : Option Fields :=
  reach? false (fun origin fields => define? path value origin fields) header .header root

end Toml

end TxDelivery
