import TxDelivery.Chain.Amount
import TxDelivery.Json.Printer
import TxDelivery.Json.Reader

/-!
# Transactions as text

The JSON form in which transactions are stored and exchanged. Each field has one written form and
several accepted ones:

* `TxDelivery.Transaction.toJson` writes addresses and data as lower-case hexadecimal, the value as
  a quantity, the other numbers as numbers, and the fields in the order of the structure;
* `TxDelivery.Transaction.ofJson?` reads an object with the fields in any order, others being
  ignored, or the array of the eight fields in order.
-/

namespace TxDelivery

namespace Transaction

/-- The names of the fields in order. -/
def fieldNames : List String :=
  ["from", "to", "input", "gas_price", "gas_limit", "value", "nonce", "chain_id"]

/-- The written form of an address. -/
def addressJson (a : Address) : Json := .string (Hex.encodeWord a)

/-- **The JSON form of a transaction.** -/
def toJson (tx : Transaction) : Json := .object
  [("from", addressJson tx.sender), ("to", .ofOption addressJson tx.recipient),
   ("input", .string (Hex.encode tx.input)), ("gas_price", .nat tx.gasPrice.toNat),
   ("gas_limit", .nat tx.gasLimit.toNat), ("value", .string (Numeral.quantity tx.value.toNat)),
   ("nonce", .nat tx.nonce.toNat), ("chain_id", .nat tx.chainId.toNat)]

/-- The text of a transaction. -/
def text (tx : Transaction) : String := tx.toJson.compact

/-- A number below `bound`. -/
def numberBelow? (bound : Nat) (v : Json) : Option Nat := v.natural?.filter (· < bound)

/-- A 64-bit field. -/
def word? (v : Json) : Option UInt64 := (numberBelow? UInt64.size v).map UInt64.ofNat

/-- A price field. -/
def price? (v : Json) : Option GasPrice := (numberBelow? (Nat.pow 2 128) v).map (BitVec.ofNat 128)

/-- An array of byte values. -/
def byteItems? (items : List Json) : Option Bytes :=
  items.mapM fun v => (numberBelow? 256 v).map UInt8.ofNat

/-- A data field: hexadecimal text, or an array of byte values. -/
def bytes? : Json → Option Bytes
  | .string s => (Hex.decode s.toList).toOption
  | .array items => byteItems? items
  | _ => none

/-- An address field: hexadecimal text, or an array of byte values, of twenty bytes. -/
def address? : Json → Option Address
  | .string s => Hex.word? 160 s.toList
  | .array items =>
    match byteItems? items with
    | some bytes => if bytes.length = 20 then some (BitVec.ofNat 160 bytes.toNat) else none
    | none => none
  | _ => none

/-- A recipient field: an address, or nothing for the creation of a contract. -/
def recipient? : Json → Option (Option Address)
  | .null => some none
  | v => (address? v).map some

/-- A value field: a 64-bit number, or the text of an amount. -/
def value? : Json → Option Amount
  | .string s => Amount.ofText? s.toList
  | .number n => (numberBelow? UInt64.size (.number n)).map (BitVec.ofNat 256)
  | _ => none

/-- A transaction from the values of its fields in order. -/
def ofFields? : List Json → Option Transaction
  | [sender, recipient, input, gasPrice, gasLimit, value, nonce, chainId] => do
    return {
      sender := ← address? sender
      recipient := ← recipient? recipient
      input := ← bytes? input
      gasPrice := ← price? gasPrice
      gasLimit := ← word? gasLimit
      value := ← value? value
      nonce := ← word? nonce
      chainId := ← word? chainId }
  | _ => none

/-- The value of a field that stands exactly once among `fields`; a missing recipient is nothing. -/
def theField? (fields : List (String × Json)) (name : String) : Option Json :=
  match fields.filter fun f => f.1 == name with
  | [] => if name == "to" then some .null else none
  | [f] => some f.2
  | _ => none

/-- **A transaction from its JSON form.** -/
def ofJson? : Json → Option Transaction
  | .object fields => do ofFields? (← fieldNames.mapM (theField? fields))
  | .array items => ofFields? items
  | _ => none

/-- **A transaction from its text.** The values of other fields are skipped without a look at what
they denote. -/
def ofText? (text : String) : Option Transaction := do ofJson? (← Json.parseWith? .inside text)

end Transaction

end TxDelivery
