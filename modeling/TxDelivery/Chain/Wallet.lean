import TxDelivery.Chain.Transaction
import TxDelivery.Crypto.Keccak
import TxDelivery.Crypto.Secp256k1
import TxDelivery.Rlp
import TxDelivery.Text.Record

/-!
# Wallets

A wallet signs transactions for one address and one chain. What is signed is the transaction with
the wallet's address as sender and its chain as chain; the wire form is the list of nine items of
the legacy format with replay protection (`TxDelivery.Wallet.sign`).

What is hashed for the signature and what is broadcast start with the same six items
(`TxDelivery.Wallet.body`) and differ in the last three: the chain and two empty items in one, the
signature with its recovery number in the other. The sender is in neither, as it follows from the
signature, and the chain is told by the recovery number. So nothing of the transaction is lost on
the way to the chain.

How a signature is made is kept apart from what is made of it (`TxDelivery.Wallet.withSignature`):
the wire form and the hash are functions of the transaction and of any signature there may be.
-/

namespace TxDelivery

/-- A secret key bound to a chain. -/
structure Wallet where
  /-- The secret key, a positive number below the order of the curve. -/
  key : Nat
  /-- The chain signed for. -/
  chainId : UInt64
  deriving DecidableEq, Repr

namespace Wallet

/-- The environment variable that holds the key of the command line. -/
def keyVariable : String := "TXMANAGER_PRIVATE_KEY"

/-- A wallet from the hexadecimal text of its key. The text may have two markers: one belongs to the
key as users write it, one to hexadecimal text. -/
def ofKeyText (text : String) (chainId : UInt64) : Except ChainError Wallet :=
  let refuse (why : String) := ChainError.wallet ("Invalid private key format: " ++ why)
  let digits := match text.toList with
    | '0' :: 'x' :: rest => rest
    | cs => cs
  match Hex.decodeExact 32 digits with
  | .error e => throw (refuse e.message)
  | .ok bytes =>
    let key := bytes.toNat
    if key = 0 ∨ Secp256k1.n ≤ key then throw (refuse "signature error")
    else return ⟨key, chainId⟩

/-- A wallet from the value of the environment variable, if it is set. -/
def ofEnvironment (value : Option String) (chainId : UInt64) : Except ChainError Wallet :=
  match value with
  | none => throw (.wallet ("Environment variable " ++ keyVariable ++ " not set"))
  | some text => ofKeyText text chainId

/-- **The address of a wallet**: the last twenty bytes of the digest of its public key. -/
def address (w : Wallet) : Address :=
  let (x, y) := Secp256k1.publicKey w.key
  BitVec.ofNat 160 (Keccak.hash (Bytes.ofNat 32 x ++ Bytes.ofNat 32 y)).toNat

/-- The six items of a transaction that both the signed digest and the wire form start with. -/
def body (tx : Transaction) : List Rlp :=
  [.number tx.nonce.toNat, .number tx.gasPrice.toNat, .number tx.gasLimit.toNat,
   .string (match tx.recipient with
     | none => []
     | some a => Bytes.ofNat 20 a.toNat),
   .number tx.value.toNat, .string tx.input]

/-- What is hashed and signed: the body, the chain, and two empty items. -/
def signingPayload (tx : Transaction) : Bytes :=
  (Rlp.list (body tx ++ [.number tx.chainId.toNat, .number 0, .number 0])).encode

/-- The parity of a signature and its chain in one number. -/
def recoveryNumber (chainId : UInt64) (odd : Bool) : Nat := 35 + 2 * chainId.toNat + odd.toNat

/-- The wire form of a transaction with its signature. -/
def wireForm (tx : Transaction) (signature : Secp256k1.Signature) : Bytes :=
  (Rlp.list (body tx ++ [.number (recoveryNumber tx.chainId signature.odd),
    .number signature.r.toNat, .number signature.s.toNat])).encode

/-- The digest of a byte string as a hash. -/
def hashOf (bytes : Bytes) : Hash := BitVec.ofNat 256 (Keccak.hash bytes).toNat

/-- A transaction with its signature, if there is one; the hash is the digest of the wire form. -/
def withSignature (tx : Transaction) : Option Secp256k1.Signature → Except ChainError SignedTx
  | none => throw (.wallet "Signing failed: signature error")
  | some signature =>
    let raw := wireForm tx signature
    return ⟨tx, hashOf raw, raw⟩

/-- **Signing a transaction.** Sender and chain are the wallet's; everything else is signed as
given. -/
def sign (w : Wallet) (tx : Transaction) : Except ChainError SignedTx :=
  let tx := { tx with sender := w.address, chainId := w.chainId }
  withSignature tx (Secp256k1.sign? w.key (Keccak.hash (signingPayload tx)))

/-- The wallet as shown to operators, the key left out. -/
def describe (w : Wallet) : String :=
  recordText "Wallet"
    [("address", Hex.encodeWord w.address), ("chain_id", Numeral.decimal w.chainId.toNat)]

end Wallet

end TxDelivery
