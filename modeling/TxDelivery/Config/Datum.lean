import TxDelivery.Config.Basic
import TxDelivery.Json.Basic

/-!
# Configurations as data

Both formats of configurations come down to the same small data, `TxDelivery.Datum`: naturals,
texts, flags, lists and tables. `TxDelivery.Config.ofDatum?` reads a configuration off them. A
section may be a table, in which unknown names are ignored and missing ones leave the default, or a
list of its settings in order, of which the last may be missing.

The two formats differ in what they have besides, negative numbers and fractions, nulls and dates.
For a setting all of this is wrong in the same way, and so it is one thing
(`TxDelivery.Datum.other`). They differ also in repeated names and in lists that are too long, which
is settled on the way to the data or handed along.

A setting is read with its default at hand: one that is missing has it, and one that is there has to
be of the right kind (`TxDelivery.Datum.orDefault`). A wrong setting is never replaced by its
default. The three sections are read by the same functions with their own names and defaults.
-/

namespace TxDelivery

/-- What a configuration is written with. -/
inductive Datum where
  /-- A natural number. -/
  | natural (n : Nat)
  /-- A text. -/
  | text (s : String)
  /-- A truth value. -/
  | flag (b : Bool)
  /-- A list. -/
  | list (items : List Datum)
  /-- Named data. -/
  | table (fields : List (String × Datum))
  /-- Anything no setting can be. -/
  | other
  deriving Repr, Inhabited

namespace Datum

/-- A 64-bit setting. -/
def word? : Datum → Option UInt64
  | natural n => if n < UInt64.size then some (UInt64.ofNat n) else none
  | _ => none

/-- A text setting. -/
def text? : Datum → Option String
  | text s => some s
  | _ => none

/-- A flag setting. -/
def flag? : Datum → Option Bool
  | flag b => some b
  | _ => none

/-- A setting that is a list of texts. -/
def texts? : Datum → Option (List String)
  | list items => items.mapM text?
  | _ => none

/-- The items at the places of `names`, as far as there are any. -/
def places : (names : List String) → List Datum → List (Option Datum)
  | [], _ => []
  | _ :: names, [] => none :: places names []
  | _ :: names, v :: rest => some v :: places names rest

/-- **The data at the named places of a section.** With `surplus` a list may have more items than
the section has settings. -/
def parts? (surplus : Bool) (names : List String) : Datum → Option (List (Option Datum))
  | table fields => some (names.map fun name => fields.lookup name)
  | list items =>
    if surplus || items.length ≤ names.length then some (places names items) else none
  | _ => none

/-- A setting read off its datum, or its default. -/
def orDefault {α : Type} (read : Datum → Option α) (default : α) : Option Datum → Option α
  | none => some default
  | some v => read v

end Datum

open Datum in
/-- The chain section. -/
def ChainConfig.ofDatum? (surplus : Bool) (v : Datum) : Option ChainConfig := do
  let d : ChainConfig := {}
  match ← parts? surplus ["rpc_url", "failover_urls", "chain_id", "rpc_timeout_secs"] v with
  | [url, failovers, chain, timeout] =>
    return {
      rpcUrl := ← orDefault text? d.rpcUrl url
      failoverUrls := ← orDefault texts? d.failoverUrls failovers
      chainId := ← orDefault word? d.chainId chain
      rpcTimeoutSecs := ← orDefault word? d.rpcTimeoutSecs timeout }
  | _ => none

open Datum in
/-- The delivery section. -/
def DeliveryConfig.ofDatum? (surplus : Bool) (v : Datum) : Option DeliveryConfig := do
  let d : DeliveryConfig := {}
  match ← parts? surplus ["period_secs", "change_interval_secs", "listen_interval_secs",
      "confirm_height", "price_bump_percent"] v with
  | [period, change, listen, height, bump] =>
    return {
      periodSecs := ← orDefault word? d.periodSecs period
      changeIntervalSecs := ← orDefault word? d.changeIntervalSecs change
      listenIntervalSecs := ← orDefault word? d.listenIntervalSecs listen
      confirmHeight := ← orDefault word? d.confirmHeight height
      priceBumpPercent := ← orDefault word? d.priceBumpPercent bump }
  | _ => none

open Datum in
/-- The section for operators. -/
def ObservabilityConfig.ofDatum? (surplus : Bool) (v : Datum) : Option ObservabilityConfig := do
  let d : ObservabilityConfig := {}
  match ← parts? surplus ["log_level", "json_logs", "metrics_enabled", "metrics_address"] v with
  | [level, json, enabled, address] =>
    return {
      logLevel := ← orDefault text? d.logLevel level
      jsonLogs := ← orDefault flag? d.jsonLogs json
      metricsEnabled := ← orDefault flag? d.metricsEnabled enabled
      metricsAddress := ← orDefault text? d.metricsAddress address }
  | _ => none

open Datum in
/-- **A configuration read off data.** -/
def Config.ofDatum? (surplus : Bool) (v : Datum) : Option Config := do
  match ← parts? surplus ["chain", "txmanager", "observability"] v with
  | [chain, delivery, observability] =>
    return {
      chain := ← orDefault (ChainConfig.ofDatum? surplus) {} chain
      delivery := ← orDefault (DeliveryConfig.ofDatum? surplus) {} delivery
      observability := ← orDefault (ObservabilityConfig.ofDatum? surplus) {} observability }
  | _ => none

mutual

/-- A JSON value as data; of repeated names the last counts. -/
def Datum.ofJson : Json → Datum
  | .number n =>
    match n.natural? with
    | some k => .natural k
    | none => .other
  | .string s => .text s
  | .bool b => .flag b
  | .array items => .list (Datum.ofJsonItems items)
  | .object fields => .table (Datum.ofJsonFields fields).reverse
  | .null => .other

/-- The items of a JSON array as data. -/
def Datum.ofJsonItems : List Json → List Datum
  | [] => []
  | v :: rest => Datum.ofJson v :: Datum.ofJsonItems rest

/-- The fields of a JSON object as data. -/
def Datum.ofJsonFields : List (String × Json) → List (String × Datum)
  | [] => []
  | (k, v) :: rest => (k, Datum.ofJson v) :: Datum.ofJsonFields rest

end

/-- A configuration from its JSON form. -/
def Config.ofJson? (v : Json) : Option Config := Config.ofDatum? false (.ofJson v)

/-- The delivery section from its JSON form. -/
def DeliveryConfig.ofJson? (v : Json) : Option DeliveryConfig :=
  DeliveryConfig.ofDatum? false (.ofJson v)

/-- The JSON form of the delivery section. -/
def DeliveryConfig.toJson (c : DeliveryConfig) : Json := .object
  [("period_secs", .nat c.periodSecs.toNat),
   ("change_interval_secs", .nat c.changeIntervalSecs.toNat),
   ("listen_interval_secs", .nat c.listenIntervalSecs.toNat),
   ("confirm_height", .nat c.confirmHeight.toNat),
   ("price_bump_percent", .nat c.priceBumpPercent.toNat)]

/-- The JSON form of the chain section. -/
def ChainConfig.toJson (c : ChainConfig) : Json := .object
  [("rpc_url", .string c.rpcUrl), ("failover_urls", .array (c.failoverUrls.map .string)),
   ("chain_id", .nat c.chainId.toNat), ("rpc_timeout_secs", .nat c.rpcTimeoutSecs.toNat)]

/-- The JSON form of the section for operators. -/
def ObservabilityConfig.toJson (c : ObservabilityConfig) : Json := .object
  [("log_level", .string c.logLevel), ("json_logs", .bool c.jsonLogs),
   ("metrics_enabled", .bool c.metricsEnabled), ("metrics_address", .string c.metricsAddress)]

/-- The JSON form of a configuration. -/
def Config.toJson (c : Config) : Json := .object
  [("chain", c.chain.toJson), ("txmanager", c.delivery.toJson),
   ("observability", c.observability.toJson)]

end TxDelivery
