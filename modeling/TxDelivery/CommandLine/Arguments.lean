import TxDelivery.Chain.Amount
import TxDelivery.Delivery.Outcome

/-!
# Arguments of the command line

The command line has options of its own, then a command, then the options of the command. An option
has a long name and maybe a short one; its value follows in the same argument or in the next one,
and a value in an argument of its own does not start with a hyphen. **Arguments are read from left
to right, and the first one that is wrong or asks for help decides**
(`TxDelivery.Arguments.parse`).
-/

namespace TxDelivery

/-- What is wrong with arguments. -/
inductive ArgumentError where
  /-- No command is given. -/
  | noCommand
  /-- No command has this name. -/
  | unknownCommand (name : String)
  /-- No option has this name, or an argument stands where none is expected. -/
  | unexpected (argument : String)
  /-- An option lacks its value. -/
  | noValue (name : String)
  /-- A switch is given a value. -/
  | needlessValue (name : String)
  /-- An option is given twice. -/
  | repeated (name : String)
  /-- The value of an option cannot be read. -/
  | badValue (name value : String)
  deriving DecidableEq, Repr

/-- The wording of an error. -/
def ArgumentError.message : ArgumentError → String
  | noCommand => "a command is required"
  | unknownCommand name => "unknown command '" ++ name ++ "'"
  | unexpected argument => "unexpected argument '" ++ argument ++ "'"
  | noValue name => "a value is required for '--" ++ name ++ "'"
  | needlessValue name => "no value is expected for '--" ++ name ++ "'"
  | repeated name => "'--" ++ name ++ "' cannot be used more than once"
  | badValue name value => "invalid value '" ++ value ++ "' for '--" ++ name ++ "'"

/-- What help is asked for. -/
inductive HelpTopic where
  /-- The program. -/
  | program
  /-- The command that checks a configuration. -/
  | checkConfig
  /-- The command that sends a transaction. -/
  | send
  /-- The command that gives help. -/
  | help
  deriving DecidableEq, Repr

/-- A command. -/
inductive Command where
  /-- To check the configuration and write it out. -/
  | checkConfig
  /-- To send a transaction and wait for its outcome. -/
  | send (tx : Transaction) (options : DeliveryOptions)
  deriving DecidableEq, Repr

/-- What the arguments ask for. -/
inductive Invocation where
  /-- Help. -/
  | help (topic : HelpTopic)
  /-- A command, under the configuration of a file or the built-in one. -/
  | run (config : Option String) (command : Command)
  deriving DecidableEq, Repr

namespace Arguments

/-! ### Options -/

/-- An option that a part of the command line knows. -/
structure OptionSpec where
  /-- The long name. -/
  long : String
  /-- The short name. -/
  short : Option Char := none
  /-- Whether it has a value. -/
  valued : Bool := true
  deriving DecidableEq, Repr

/-- The next thing on the command line. -/
inductive Item where
  /-- An option with its value. -/
  | option (name : String) (value : Option String)
  /-- A call for help. -/
  | help
  /-- An argument that belongs to no option. -/
  | plain (text : String)
  deriving DecidableEq, Repr

/-- The option that asks for help, known everywhere. -/
def helpSpec : OptionSpec := { long := "help", short := some 'h', valued := false }

/-- An option without a value. -/
def withoutValue (spec : OptionSpec) : Item :=
  if spec = helpSpec then .help else .option spec.long none

/-- The value of an option in the argument that follows. -/
def nextValue (spec : OptionSpec) : List String → Except ArgumentError (Item × List String)
  | value :: rest =>
    if value.startsWith "-" && value ≠ "-" then throw (.noValue spec.long)
    else return (.option spec.long (some value), rest)
  | [] => throw (.noValue spec.long)

/-- The text before the first equals sign, and the text behind it if there is one. -/
def splitValue (cs : List Char) : String × Option String :=
  let name := String.ofList (cs.takeWhile (· ≠ '='))
  match cs.dropWhile (· ≠ '=') with
  | [] => (name, none)
  | _ :: value => (name, some (String.ofList value))

/-- An option by its long name. -/
def longOption (specs : List OptionSpec) (cs : List Char) (rest : List String) :
    Except ArgumentError (Item × List String) :=
  let (name, value) := splitValue cs
  match (helpSpec :: specs).find? (·.long = name) with
  | none => throw (.unexpected ("--" ++ name))
  | some spec =>
    match spec.valued, value with
    | true, some value => return (.option spec.long (some value), rest)
    | true, none => nextValue spec rest
    | false, none => return (withoutValue spec, rest)
    | false, some _ => throw (.needlessValue spec.long)

/-- An option by its short name, with what is attached to it. -/
def shortOption (specs : List OptionSpec) (name : Char) (attached : List Char)
    (rest : List String) : Except ArgumentError (Item × List String) :=
  match (helpSpec :: specs).find? (·.short = some name) with
  | none => throw (.unexpected ("-" ++ String.singleton name))
  | some spec =>
    if spec.valued then
      match attached with
      | [] => nextValue spec rest
      | '=' :: value => return (.option spec.long (some (String.ofList value)), rest)
      | value => return (.option spec.long (some (String.ofList value)), rest)
    else
      return (withoutValue spec,
        if attached.isEmpty then rest else String.ofList ('-' :: attached) :: rest)

/-- **The next thing on the command line**, and what is behind it. Two hyphens alone end the
options; behind them only plain arguments can stand. -/
def next? (specs : List OptionSpec) :
    List String → Except ArgumentError (Option (Item × List String))
  | [] => return none
  | argument :: rest =>
    match argument.toList with
    | ['-', '-'] =>
      match rest with
      | [] => return none
      | argument :: _ => throw (.unexpected argument)
    | '-' :: '-' :: cs => return some (← longOption specs cs rest)
    | '-' :: name :: attached => return some (← shortOption specs name attached rest)
    | _ => return some (.plain argument, rest)

/-! ### Values -/

/-- An unsigned number below `bound`, with a plus sign if one likes. -/
def unsigned? (bound : Nat) (text : String) : Option Nat :=
  let digits := match text.toList with
    | '+' :: rest => rest
    | cs => cs
  (Numeral.ofDecimal? digits).filter (· < bound)

/-- The options of a send as far as they are read. -/
structure SendOptions where
  /-- The transaction. -/
  tx : Transaction := {}
  /-- How it is delivered. -/
  options : DeliveryOptions := {}
  deriving DecidableEq, Repr

/-- The options of a send. -/
def sendSpecs : List OptionSpec :=
  [{ long := "to" }, { long := "value" }, { long := "data" }, { long := "gas-limit" },
   { long := "info" }, { long := "price-limit" }, { long := "recalc-gas", valued := false }]

/-- One option of a send with its text; `none` for a text that cannot be read. -/
def SendOptions.set? (s : SendOptions) (name value : String) : Option SendOptions :=
  match name with
  | "to" => do
    let a ← Hex.word? 160 value.toList
    return { s with tx := { s.tx with recipient := some a } }
  | "value" => do
    let v ← Amount.ofText? value.toList
    return { s with tx := { s.tx with value := v } }
  | "data" => do
    let bytes ← (Hex.decode value.toList).toOption
    return { s with tx := { s.tx with input := bytes } }
  | "gas-limit" => do
    let n ← unsigned? UInt64.size value
    return { s with tx := { s.tx with gasLimit := UInt64.ofNat n } }
  | "info" => some { s with options := { s.options with info := value } }
  | "price-limit" => do
    let n ← unsigned? (Nat.pow 2 128) value
    return { s with options := { s.options with priceLimit := some (BitVec.ofNat 128 n) } }
  | "recalc-gas" => some { s with options := { s.options with recalcGas := true } }
  | _ => none

/-! ### Commands -/

/-- The arguments behind `check-config`; there are none but calls for help. -/
def parseCheck (config : Option String) (args : List String) : Except ArgumentError Invocation := do
  match ← next? [] args with
  | none => return .run config .checkConfig
  | some (.help, _) => return .help .checkConfig
  | some (.plain text, _) => throw (.unexpected text)
  | some (.option name _, _) => throw (.unexpected name)

/-- The arguments behind `send`, `seen` being the names of the options so far. There are at most
`fuel` more of them. -/
def parseSend (config : Option String) :
    (fuel : Nat) → (seen : List String) → SendOptions → List String →
      Except ArgumentError Invocation
  | 0, _, _, _ => throw .noCommand
  | fuel + 1, seen, s, args => do
    match ← next? sendSpecs args with
    | none => return .run config (.send s.tx s.options)
    | some (.help, _) => return .help .send
    | some (.plain text, _) => throw (.unexpected text)
    | some (.option name value, rest) =>
      if seen.contains name then throw (.repeated name)
      match s.set? name (value.getD "") with
      | none => throw (.badValue name (value.getD ""))
      | some s => parseSend config fuel (name :: seen) s rest

/-- What help a list of commands asks for. -/
def helpTopic : List String → Except ArgumentError HelpTopic
  | [] => return .program
  | ["check-config"] => return .checkConfig
  | ["send"] => return .send
  | ["help"] => return .help
  | "check-config" :: name :: _ | "send" :: name :: _ | "help" :: name :: _ =>
    throw (.unknownCommand name)
  | name :: _ => throw (.unknownCommand name)

/-- The options in front of a command. -/
def globalSpecs : List OptionSpec := [{ long := "config", short := some 'c' }]

/-- How many arguments there are, counting each character of combined short options. -/
def measure (args : List String) : Nat := args.foldl (fun n a => n + a.length + 1) 1

/-- The command line, `config` being the file named so far. There are at most `fuel` more
arguments. -/
def parseGlobal : (fuel : Nat) → (config : Option String) → List String →
    Except ArgumentError Invocation
  | 0, _, _ => throw .noCommand
  | fuel + 1, config, args => do
    match ← next? globalSpecs args with
    | none => throw .noCommand
    | some (.help, _) => return .help .program
    | some (.option name value, rest) =>
      let path := value.getD ""
      if config.isSome then throw (.repeated name)
      if path.isEmpty then throw (.badValue name path)
      parseGlobal fuel (some path) rest
    | some (.plain name, rest) =>
      match name with
      | "check-config" => parseCheck config rest
      | "send" => parseSend config (measure rest) [] {} rest
      | "help" => return .help (← helpTopic rest)
      | name => throw (.unknownCommand name)

/-- **Reading the arguments.** -/
def parse (args : List String) : Except ArgumentError Invocation :=
  parseGlobal (measure args) none args

end Arguments

end TxDelivery
