import TxDelivery.Bytes
import TxDelivery.Config.Datum
import TxDelivery.Config.Validation
import TxDelivery.Toml.Printer
import TxDelivery.Toml.Reader

/-!
# Configurations as text

Configurations are kept in TOML. `TxDelivery.Config.parse` reads one and accepts it only if nothing
is wrong with it; `TxDelivery.Config.toToml?` writes every setting out. What is written reads back.

There are three stages at which a file can fail: it is not there or no text, the text is no document
or the document no configuration, and the configuration has offences. They are told apart by the
error (`TxDelivery.ConfigError`), and the last lists all that is wrong.

In the other direction there is one way to fail. A setting of sixty-four bits has no sign, while the
integers of the format have one, so that half of the numbers cannot be written. To a setting that
was read from a file this cannot happen.
-/

namespace TxDelivery

mutual

/-- A TOML value as data. A date is a table without any setting. -/
def Datum.ofToml : Toml → Datum
  | .string s => .text s
  | .integer i => if 0 ≤ i then .natural i.toNat else .other
  | .boolean b => .flag b
  | .array items => .list (Datum.ofTomlItems items)
  | .table _ fields => .table (Datum.ofTomlFields fields)
  | .tables items => .list (Datum.ofTomlTables items)
  | .datetime _ => .table []
  | .float _ => .other

/-- The items of a TOML list as data. -/
def Datum.ofTomlItems : List Toml → List Datum
  | [] => []
  | v :: rest => Datum.ofToml v :: Datum.ofTomlItems rest

/-- The fields of a TOML table as data. -/
def Datum.ofTomlFields : List (String × Toml) → List (String × Datum)
  | [] => []
  | (k, v) :: rest => (k, Datum.ofToml v) :: Datum.ofTomlFields rest

/-- A list of TOML tables as data. -/
def Datum.ofTomlTables : List (List (String × Toml)) → List Datum
  | [] => []
  | t :: rest => .table (Datum.ofTomlFields t) :: Datum.ofTomlTables rest

end

namespace Config

/-- The configuration a text denotes, acceptable or not. -/
def ofToml? (text : String) : Option Config := do
  ofDatum? true (.table (Datum.ofTomlFields (← Toml.parse? text)))

/-- **Reading a configuration** and accepting it only without offences. -/
def parse (text : String) : Except ConfigError Config :=
  match ofToml? text with
  | none => throw .parse
  | some c => c.validate

/-- Reading a configuration from the bytes of a file, `none` for a file that does not exist. -/
def load (file : Option Bytes) : Except ConfigError Config :=
  match file with
  | none => throw (.io .missing)
  | some bytes =>
    match String.fromUTF8? ⟨bytes.toArray⟩ with
    | none => throw (.io .notText)
    | some text => parse text

/-- The chain section as text. -/
def chainText? (c : ChainConfig) : Option String := do
  return "[chain]\n" ++ Toml.line "rpc_url" (Toml.quote c.rpcUrl)
    ++ Toml.line "failover_urls" (Toml.list (c.failoverUrls.map Toml.quote))
    ++ Toml.line "chain_id" (← Toml.integerText? c.chainId)
    ++ Toml.line "rpc_timeout_secs" (← Toml.integerText? c.rpcTimeoutSecs)

/-- The delivery section as text. -/
def deliveryText? (c : DeliveryConfig) : Option String := do
  return "[txmanager]\n" ++ Toml.line "period_secs" (← Toml.integerText? c.periodSecs)
    ++ Toml.line "change_interval_secs" (← Toml.integerText? c.changeIntervalSecs)
    ++ Toml.line "listen_interval_secs" (← Toml.integerText? c.listenIntervalSecs)
    ++ Toml.line "confirm_height" (← Toml.integerText? c.confirmHeight)
    ++ Toml.line "price_bump_percent" (← Toml.integerText? c.priceBumpPercent)

/-- The section for operators as text. -/
def observabilityText (c : ObservabilityConfig) : String :=
  "[observability]\n" ++ Toml.line "log_level" (Toml.quote c.logLevel)
    ++ Toml.line "json_logs" (Toml.flagText c.jsonLogs)
    ++ Toml.line "metrics_enabled" (Toml.flagText c.metricsEnabled)
    ++ Toml.line "metrics_address" (Toml.quote c.metricsAddress)

/-- **Writing a configuration**, unless a number exceeds what TOML can hold. -/
def toToml? (c : Config) : Option String := do
  return (← chainText? c.chain) ++ "\n" ++ (← deliveryText? c.delivery) ++ "\n"
    ++ observabilityText c.observability

end Config

end TxDelivery
