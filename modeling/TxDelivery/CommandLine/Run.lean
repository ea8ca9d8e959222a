import TxDelivery.CommandLine.Help
import TxDelivery.Config.Text
import TxDelivery.Node.Client
import TxDelivery.Service.Play

/-!
# What the program does

The whole program as a function of its arguments and of what it finds around it: files, the key,
and the network (`TxDelivery.Program.run`). It ends with a status, and with what it writes to its
two outputs.

A send is the synchronous send of a service whose chain is a client and whose signer is a wallet.
The client comes first, then the wallet; so a configuration without a usable node is reported
before a missing key.
-/

namespace TxDelivery

/-- What the program finds around it. -/
structure Environment where
  /-- The bytes of a file, if it exists. -/
  file : String → Option Bytes
  /-- The value of the variable that holds the key, if it is set. -/
  key : Option String
  /-- The network. -/
  network : Network

/-- How the program ends. -/
structure ProgramResult where
  /-- The status: zero for success, two for wrong arguments. -/
  status : UInt32
  /-- What it writes as its result. -/
  output : String
  /-- What it writes about errors. -/
  errors : String
  deriving DecidableEq, Repr

/-- Why a command failed. -/
inductive ProgramError where
  /-- There is no usable configuration. -/
  | config (e : ConfigError)
  /-- There is no usable client or wallet. -/
  | chain (e : ChainError)
  /-- The transaction was not broadcast. -/
  | delivery (e : DeliveryError)
  /-- The configuration cannot be written. -/
  | unwritable
  /-- The delivery did not end. -/
  | unfinished
  deriving DecidableEq, Repr

namespace ProgramError

/-- An error with its parts. -/
def describe : ProgramError → String
  | config e => e.describe
  | chain e => e.describe
  | delivery e => e.describe
  | unwritable => "Unwritable"
  | unfinished => "Unfinished"

end ProgramError

namespace Program

/-- The configuration of a file, or the built-in one. -/
def loadConfig (env : Environment) : Option String → Except ProgramError Config
  | none => return {}
  | some path => (Config.load (env.file path)).mapError .config

/-- The configuration written out. -/
def checkConfig (config : Config) : Except ProgramError String :=
  match config.toToml? with
  | some text => return text ++ "\n"
  | none => throw .unwritable

/-- **Sends a transaction and waits for its outcome.** -/
def send (env : Environment) (config : Config) (tx : Transaction) (options : DeliveryOptions) :
    Except ProgramError Outcome := do
  let (client, _) ← (Client.connect config.chain env.network).mapError .chain
  let wallet ← (Wallet.ofEnvironment env.key config.chain.chainId).mapError .chain
  let delivery ← config.delivery.validate.mapError .config
  let setup : Setup Unit := ⟨delivery, wallet.address, fun _ => ()⟩
  let (service, _) := Service.start.begin setup (.sendAndWait tx options)
  match service.play setup (client.serve env.network wallet) 0 (Service.playLength delivery) with
  | some (.delivered outcome) => return outcome
  | some (.failed e) => throw (.delivery e)
  | _ => throw .unfinished

/-- Carries out a command. -/
def execute (env : Environment) (path : Option String) (command : Command) :
    Except ProgramError ProgramResult := do
  let config ← loadConfig env path
  match command with
  | .checkConfig => return ⟨0, ← checkConfig config, ""⟩
  | .send tx options =>
    let outcome ← send env config tx options
    return ⟨if outcome.isConfirmed then 0 else 1, outcome.report.pretty ++ "\n", ""⟩

/-- **The program.** -/
def run (env : Environment) (args : List String) : ProgramResult :=
  match Arguments.parse args with
  | .error e => ⟨2, "", "error: " ++ e.message ++ "\n"⟩
  | .ok (.help topic) => ⟨0, topic.text, ""⟩
  | .ok (.run path command) =>
    match execute env path command with
    | .ok result => result
    | .error e => ⟨1, "", "Error: " ++ e.describe ++ "\n"⟩

end Program

end TxDelivery
