import TxDelivery.CommandLine.Arguments

/-!
# Help on the command line

What the program says about itself and its commands.
-/

namespace TxDelivery

/-- A page of help: what it is about, how it is used, and lists with titles. -/
def helpPage (about usage : String) (lists : List (String × List String)) : String :=
  about ++ "\n\nUsage: " ++ usage ++ "\n"
  ++ String.join (lists.map fun (title, lines) =>
    "\n" ++ title ++ ":\n" ++ String.join (lines.map fun line => "  " ++ line ++ "\n"))

/-- **The help on a topic.** -/
def HelpTopic.text : HelpTopic → String
  | program => helpPage "Deliver EVM transactions until they are confirmed"
    "txmanager [OPTIONS] <COMMAND>"
    [("Commands",
      ["check-config  Validate the configuration and print the effective values",
       "send          Send a transaction and wait until it is confirmed or given up on",
       "help          Print this message or the help of the given subcommand(s)"]),
     ("Options",
      ["-c, --config <CONFIG>  TOML configuration file; built-in defaults when omitted",
       "-h, --help             Print help"])]
  | checkConfig => helpPage "Validate the configuration and print the effective values"
    "txmanager check-config"
    [("Options", ["-h, --help  Print help"])]
  | send => helpPage "Send a transaction and wait until it is confirmed or given up on"
    "txmanager send [OPTIONS]"
    [("Options",
      ["    --to <TO>                    Recipient; omit to deploy `--data` as contract code",
       "    --value <VALUE>              Value in wei [default: 0]",
       "    --data <DATA>                Hex encoded call data [default: 0x]",
       "    --gas-limit <GAS_LIMIT>      Gas limit; estimated when 0 [default: 0]",
       "    --info <INFO>                Label logged and reported on confirmation [default: ]",
       "    --price-limit <PRICE_LIMIT>  Highest gas price in wei fee bumps may reach",
       "    --recalc-gas                 Re-estimate the gas limit on every fee bump",
       "-h, --help                       Print help"])]
  | help => helpPage "Print this message or the help of the given subcommand(s)"
    "txmanager help [COMMAND]"
    [("Commands",
      ["check-config  Validate the configuration and print the effective values",
       "send          Send a transaction and wait until it is confirmed or given up on",
       "help          Print this message or the help of the given subcommand(s)"])]

end TxDelivery
