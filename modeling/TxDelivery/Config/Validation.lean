import TxDelivery.Config.Basic
import TxDelivery.Net.SocketAddress
import TxDelivery.Text.Blank
import TxDelivery.Text.Quoted

/-!
# Validation of configurations

What has to hold of a configuration beyond its types. **All** offences are reported, in the order in
which the settings are declared, and at most one per setting.

* `TxDelivery.DeliveryConfig.offences` judges the delivery section alone, as the engine does before
  it starts; `TxDelivery.Config.offences` judges a whole configuration and contains the former as it
  is.
* `TxDelivery.Problem.message` words an offence.

A rule is a condition with the setting and the problem to be reported (`TxDelivery.offenceIf`), and
the offences of a section are those of its rules one after another. Where two rules are about one
setting the second is tried only if the first has found nothing. So a list without entries means
that all conditions hold, and the order of the rules is the order of the report.

An offence is data. It is worded only where it is shown, to operators in a line or to the command
line with its parts, and both say the same of it.
-/

namespace TxDelivery

/-- A setting that can be at fault. -/
inductive Setting where
  | rpcUrl
  | chainId
  | rpcTimeout
  | period
  | changeInterval
  | listenInterval
  | priceBump
  | metricsAddress
  deriving DecidableEq, Repr

/-- The dotted name of a setting. -/
def Setting.path : Setting → String
  | rpcUrl => "chain.rpc_url"
  | chainId => "chain.chain_id"
  | rpcTimeout => "chain.rpc_timeout_secs"
  | period => "txmanager.period_secs"
  | changeInterval => "txmanager.change_interval_secs"
  | listenInterval => "txmanager.listen_interval_secs"
  | priceBump => "txmanager.price_bump_percent"
  | metricsAddress => "observability.metrics_address"

/-- What is wrong with a setting. -/
inductive Problem where
  /-- A text without a visible character. -/
  | empty
  /-- An identifier that is zero. -/
  | zeroId
  /-- A length of time that is zero. -/
  | notPositive
  /-- An interval that does not fit into the period of this many seconds. -/
  | tooLong (period : UInt64)
  /-- A percentage outside of one to a hundred. -/
  | percentage
  /-- A text that names no socket address. -/
  | noSocketAddress
  deriving DecidableEq, Repr

/-- The wording of a problem. -/
def Problem.message : Problem → String
  | empty => "must not be empty"
  | zeroId => "must be non-zero"
  | notPositive => "must be > 0"
  | tooLong period =>
    "must be shorter than period_secs (" ++ Numeral.decimal period.toNat ++ ")"
  | percentage => "must be between 1 and 100"
  | noSocketAddress => "must be a socket address"

/-- A setting and what is wrong with it. -/
structure Offence where
  /-- The setting at fault. -/
  setting : Setting
  /-- What is wrong with it. -/
  problem : Problem
  deriving DecidableEq, Repr

/-- An offence in one line. -/
def Offence.text (o : Offence) : String := o.setting.path ++ ": " ++ o.problem.message

/-- An offence where `condition` holds. -/
def offenceIf (condition : Bool) (setting : Setting) (problem : Problem) : List Offence :=
  if condition then [⟨setting, problem⟩] else []

/-- The offences of an interval that has to be positive and shorter than the period. -/
def intervalOffences (setting : Setting) (interval period : UInt64) : List Offence :=
  if interval = 0 then [⟨setting, .notPositive⟩]
  else offenceIf (period ≤ interval) setting (.tooLong period)

/-- **The offences of the delivery section.** -/
def DeliveryConfig.offences (c : DeliveryConfig) : List Offence :=
  offenceIf (c.periodSecs = 0) .period .notPositive
  ++ intervalOffences .changeInterval c.changeIntervalSecs c.periodSecs
  ++ intervalOffences .listenInterval c.listenIntervalSecs c.periodSecs
  ++ offenceIf (c.priceBumpPercent = 0 || 100 < c.priceBumpPercent) .priceBump .percentage

/-- The offences of the chain section. -/
def ChainConfig.offences (c : ChainConfig) : List Offence :=
  offenceIf (isBlankText c.rpcUrl) .rpcUrl .empty
  ++ offenceIf (c.chainId = 0) .chainId .zeroId
  ++ offenceIf (c.rpcTimeoutSecs = 0) .rpcTimeout .notPositive

/-- The offences of the section for operators. -/
def ObservabilityConfig.offences (c : ObservabilityConfig) : List Offence :=
  offenceIf (c.metricsEnabled && (SocketAddress.parse? c.metricsAddress).isNone)
    .metricsAddress .noSocketAddress

/-- **The offences of a configuration**, in declaration order. -/
def Config.offences (c : Config) : List Offence :=
  c.chain.offences ++ c.delivery.offences ++ c.observability.offences

/-- An offence with its parts, as shown on the command line. -/
def Offence.describe (o : Offence) : String :=
  recordText "ValidationError"
    [("field", quotedText o.setting.path), ("message", quotedText o.problem.message)]

/-- Why a file cannot be read as text. -/
inductive FileError where
  /-- There is no such file. -/
  | missing
  /-- The file is no UTF-8 text. -/
  | notText
  deriving DecidableEq, Repr

/-- A failure to read a file with its parts, as shown on the command line. -/
def FileError.describe : FileError → String
  | missing => recordText "Os"
    [("code", "2"), ("kind", "NotFound"), ("message", quotedText "No such file or directory")]
  | notText => recordText "Error"
    [("kind", "InvalidData"), ("message", quotedText "stream did not contain valid UTF-8")]

/-- Why there is no usable configuration. -/
inductive ConfigError where
  /-- The file could not be read. -/
  | io (cause : FileError)
  /-- The text does not denote a configuration. -/
  | parse
  /-- Settings that are not acceptable. -/
  | validation (offences : List Offence)
  deriving DecidableEq, Repr

/-- All offences in one line. -/
def joinOffences (offences : List Offence) : String :=
  ", ".intercalate (offences.map Offence.text)

/-- The wording of a rejection for its settings. -/
def rejectionText (offences : List Offence) : String :=
  "Validation failed: " ++ joinOffences offences

/-- An error with its parts, as shown on the command line. -/
def ConfigError.describe : ConfigError → String
  | io cause => wrapText "Io" cause.describe
  | parse => "Parse"
  | validation offences => wrapText "Validation" (listText (offences.map Offence.describe))

/-- **Accepting a configuration** if nothing is wrong with it. -/
def Config.validate (c : Config) : Except ConfigError Config :=
  if c.offences.isEmpty then return c else throw (.validation c.offences)

/-- Accepting the delivery section alone. -/
def DeliveryConfig.validate (c : DeliveryConfig) : Except ConfigError DeliveryConfig :=
  if c.offences.isEmpty then return c else throw (.validation c.offences)

end TxDelivery
