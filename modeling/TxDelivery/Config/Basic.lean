import TxDelivery.Duration
import TxDelivery.Text.Record

/-!
# Configuration

The settings of a delivery service in three sections: the chain and its nodes, the delivery of
transactions, and what operators get to see. Each section has defaults, and a configuration may
leave out any part.
-/

namespace TxDelivery

/-- The chain and its nodes. -/
structure ChainConfig where
  /-- The address of the first node. -/
  rpcUrl : String := "http://localhost:8545"
  /-- The addresses of the nodes tried after it. -/
  failoverUrls : List String := []
  /-- The chain that is expected. -/
  chainId : UInt64 := 1
  /-- How long a node has to answer, in seconds. -/
  rpcTimeoutSecs : UInt64 := 10
  deriving DecidableEq, Repr, Inhabited

/-- The delivery of transactions. -/
structure DeliveryConfig where
  /-- The time one transaction has, price bumps included, in seconds. -/
  periodSecs : UInt64 := 1800
  /-- How often the price is looked at again, in seconds. -/
  changeIntervalSecs : UInt64 := 25
  /-- How often receipts are looked for, in seconds. -/
  listenIntervalSecs : UInt64 := 10
  /-- The blocks to be built on top of the receipt's. -/
  confirmHeight : UInt64 := 3
  /-- The least percentage by which a replacement raises the price. -/
  priceBumpPercent : UInt64 := 10
  deriving DecidableEq, Repr, Inhabited

/-- What operators get to see. -/
structure ObservabilityConfig where
  /-- The filter of log events. -/
  logLevel : String := "info"
  /-- Whether log events are written as JSON. -/
  jsonLogs : Bool := false
  /-- Whether metrics are served. -/
  metricsEnabled : Bool := false
  /-- The address at which they are served. -/
  metricsAddress : String := "0.0.0.0:9090"
  deriving DecidableEq, Repr, Inhabited

/-- A whole configuration. -/
structure Config where
  /-- The chain and its nodes. -/
  chain : ChainConfig := {}
  /-- The delivery of transactions. -/
  delivery : DeliveryConfig := {}
  /-- What operators get to see. -/
  observability : ObservabilityConfig := {}
  deriving DecidableEq, Repr, Inhabited

namespace DeliveryConfig

/-- The time one transaction has. -/
def period (c : DeliveryConfig) : Duration := .ofSeconds c.periodSecs.toNat

/-- The time one transaction has, in milliseconds. -/
def periodMs (c : DeliveryConfig) : Nat := c.periodSecs.toNat * 1000

/-- The time between two looks at the price, in milliseconds. -/
def changeIntervalMs (c : DeliveryConfig) : Nat := c.changeIntervalSecs.toNat * 1000

/-- The time between two looks for receipts, in milliseconds. -/
def listenIntervalMs (c : DeliveryConfig) : Nat := c.listenIntervalSecs.toNat * 1000

/-- The settings as shown to operators. -/
def describe (c : DeliveryConfig) : String :=
  recordText "TxManagerConfig"
    [("period_secs", Numeral.decimal c.periodSecs.toNat),
     ("change_interval_secs", Numeral.decimal c.changeIntervalSecs.toNat),
     ("listen_interval_secs", Numeral.decimal c.listenIntervalSecs.toNat),
     ("confirm_height", Numeral.decimal c.confirmHeight.toNat),
     ("price_bump_percent", Numeral.decimal c.priceBumpPercent.toNat)]

end DeliveryConfig

end TxDelivery
