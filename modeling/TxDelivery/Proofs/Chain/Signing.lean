import TxDelivery.Proofs.Queue.Payload
import TxDelivery.Proofs.Rlp

/-!
# What is on the wire

The wire form of a signed transaction is a list of nine items. Read back
(`TxDelivery.Envelope.decode?`) it yields what was signed, the signature and the chain, whatever the
transaction, the wallet and the signature (`TxDelivery.Wallet.faithful_of_signUsing`).

Nothing is asked of a signature but that it is a parity and two numbers of 256 bits: signing is
taken with any function that makes one (`TxDelivery.Wallet.signUsing`), of which the signatures of
the curve are a case (`TxDelivery.Wallet.sign_eq_signUsing`). What is proved is therefore about the
form and owes nothing to cryptography.

## One written form

The reader is not the writer's own: it is a reader of nine items with conditions on each of them,
made so that **every part has one form**. A number has no zero in front
(`TxDelivery.Rlp.number?_eq_some_iff`), a recipient is twenty bytes or none
(`TxDelivery.Rlp.recipient?_eq_some_iff`), an envelope is exactly nine items
(`TxDelivery.Envelope.ofItems?_eq_some_iff`), and a list has one written form by the law of length
prefixes. These equivalences compose to `TxDelivery.Envelope.decode?_eq_some_iff`, an equivalence
again: an envelope is read from the bytes it is written as and from no others.

Injectivity is the reading back turned around. Two transactions with the same wire form have the
same envelope, and an envelope holds the numbers of a transaction without loss, each within its
width; the chain is behind the parity in the number of the signature. Only the sender is not among
the nine items, so it is what transactions with one wire form may differ in.

The numbers of an envelope have no bounds, so that reading one is total. Its length has: a written
form is not much longer than its input (`TxDelivery.Envelope.length_encode_lt`), and no input in
memory has `2 ^ 63` bytes.
-/

namespace TxDelivery

namespace Rlp

/-! ### Numbers and recipients -/

/-- A number without leading zeros. -/
def number? : Rlp → Option Nat
  | .string bytes => if bytes.head? = some 0 then none else some bytes.toNat
  | .list _ => none

/-- **A number has one form.** -/
theorem number?_eq_some_iff {item : Rlp} {k : Nat} : item.number? = some k ↔ item = number k := by
  cases item with
  | list items => simp [number?, number]
  | string bytes =>
    simp only [number?, number, Option.ite_none_left_eq_some, Option.some.injEq, string.injEq]
    constructor
    · rintro ⟨hhead, rfl⟩
      exact (Bytes.minimal_toNat hhead).symm
    · rintro rfl
      exact ⟨Bytes.head?_minimal k, Bytes.toNat_minimal k⟩

/-- The bytes of a recipient; a transaction without one creates a contract. -/
def recipientBytes : Option Address → Bytes
  | none => []
  | some a => Bytes.ofNat 20 a.toNat

theorem length_recipientBytes_le (a : Option Address) : (recipientBytes a).length ≤ 20 := by
  cases a <;> simp [recipientBytes]

/-- A recipient as an item. -/
def recipient (a : Option Address) : Rlp := string (recipientBytes a)

/-- A recipient: no bytes, or twenty. -/
def recipient? : Rlp → Option (Option Address)
  | .list _ => none
  | .string bytes =>
    if bytes = [] then some none
    else if bytes.length = 20 then some (some (BitVec.ofNat 160 bytes.toNat))
    else none

/-- Twenty bytes hold an address. -/
theorem ofNat_toNat_address {bytes : Bytes} (h : bytes.length = 20) :
    Bytes.ofNat 20 (BitVec.ofNat 160 bytes.toNat).toNat = bytes := by
  have hlt : bytes.toNat < 2 ^ 160 := by
    have hbytes := Bytes.toNat_lt bytes
    rw [h] at hbytes
    exact hbytes
  rw [BitVec.toNat_ofNat, Nat.mod_eq_of_lt hlt, ← h, Bytes.ofNat_toNat]

/-- **A recipient has one form.** -/
theorem recipient?_eq_some_iff {item : Rlp} {a : Option Address} :
    item.recipient? = some a ↔ item = recipient a := by
  cases item with
  | list items => simp [recipient?, recipient]
  | string bytes =>
    simp only [recipient?, recipient, string.injEq]
    constructor
    · intro h
      split at h
      case isTrue hnil =>
        obtain rfl := Option.some.inj h
        exact hnil
      case isFalse =>
        obtain ⟨hlength, h⟩ := Option.ite_none_right_eq_some.mp h
        obtain rfl := Option.some.inj h
        exact (ofNat_toNat_address hlength).symm
    · rintro rfl
      cases a with
      | none => rfl
      | some a =>
        have hlength := Bytes.length_ofNat 20 a.toNat
        have hne : Bytes.ofNat 20 a.toNat ≠ [] := List.ne_nil_of_length_pos (by omega)
        simp [recipientBytes, hne, Bytes.toNat_ofNat_of_lt (k := 20) a.isLt]

end Rlp

/-! ### Envelopes -/

/-- **A transaction as it stands on the wire**, its numbers without bounds. -/
structure Envelope where
  /-- The place among the sender's transactions. -/
  nonce : Nat
  /-- The price of gas. -/
  gasPrice : Nat
  /-- The gas paid for at most. -/
  gasLimit : Nat
  /-- The recipient; `none` creates a contract. -/
  recipient : Option Address
  /-- The amount transferred. -/
  value : Nat
  /-- The call data. -/
  input : Bytes
  /-- The chain and the parity of the signature. -/
  v : Nat
  /-- The first number of the signature. -/
  r : Nat
  /-- The second number of the signature. -/
  s : Nat
  deriving DecidableEq, Repr

namespace Envelope

/-- The nine items of an envelope. -/
def items (e : Envelope) : List Rlp :=
  [.number e.nonce, .number e.gasPrice, .number e.gasLimit, .recipient e.recipient,
   .number e.value, .string e.input, .number e.v, .number e.r, .number e.s]

/-- The envelope of nine items. -/
def ofItems? : List Rlp → Option Envelope
  | [nonce, gasPrice, gasLimit, recipient, value, .string input, v, r, s] => do
    return ⟨← nonce.number?, ← gasPrice.number?, ← gasLimit.number?, ← recipient.recipient?,
      ← value.number?, input, ← v.number?, ← r.number?, ← s.number?⟩
  | _ => none

/-- **An envelope has one list of items.** -/
theorem ofItems?_eq_some_iff {l : List Rlp} {e : Envelope} : ofItems? l = some e ↔ l = e.items := by
  constructor
  · intro h
    unfold ofItems? at h
    split at h
    case h_2 => contradiction
    case h_1 =>
      simp only [bind, pure, Option.bind_eq_some_iff, Rlp.number?_eq_some_iff,
        Rlp.recipient?_eq_some_iff] at h
      obtain ⟨_, rfl, _, rfl, _, rfl, _, rfl, _, rfl, _, rfl, _, rfl, _, rfl, h⟩ := h
      obtain rfl := Option.some.inj h
      rfl
  · rintro rfl
    have hnumber (k : Nat) : (Rlp.number k).number? = some k := Rlp.number?_eq_some_iff.mpr rfl
    have hrecipient (a : Option Address) : (Rlp.recipient a).recipient? = some a :=
      Rlp.recipient?_eq_some_iff.mpr rfl
    simp [items, ofItems?, hnumber, hrecipient]

/-- The written form of an envelope. -/
def encode (e : Envelope) : Bytes := (Rlp.list e.items).encode

/-- **Reading an envelope**: exactly one list of nine items. -/
def decode? (bytes : Bytes) : Option Envelope :=
  match Rlp.decode? bytes with
  | some (.list l) => ofItems? l
  | _ => none

/-- **An envelope has one written form.** -/
theorem decode?_eq_some_iff {bytes : Bytes} {e : Envelope} (hlength : e.encode.length < 2 ^ 64) :
    decode? bytes = some e ↔ bytes = e.encode := by
  constructor
  · intro h
    unfold decode? at h
    split at h
    case h_2 => contradiction
    case h_1 l hread =>
      obtain rfl := ofItems?_eq_some_iff.mp h
      exact Rlp.encode_of_decode? hread
  · rintro rfl
    simp only [decode?]
    rw [encode, Rlp.decode?_encode hlength]
    exact ofItems?_eq_some_iff.mpr rfl

/-- A written form is not much longer than its input. -/
theorem length_encode_lt {e : Envelope}
    (hnumbers : ∀ k ∈ [e.nonce, e.gasPrice, e.gasLimit, e.value, e.v, e.r, e.s], k < 2 ^ 256)
    (hinput : e.input.length < 2 ^ 63) : e.encode.length < 2 ^ 64 := by
  have hnumber (k : Nat) (hk : k < 2 ^ 256) : (Rlp.number k).encode.length ≤ 41 := by
    have hsize : (Bytes.minimal k).length ≤ 32 := Bytes.length_minimal_le hk
    have hstring := Rlp.length_encodeString_le (show (Bytes.minimal k).length < 2 ^ 64 by omega)
    rw [Rlp.number, Rlp.encode_string]
    omega
  have hrecipient : (Rlp.recipient e.recipient).encode.length ≤ 29 := by
    have hsize := Rlp.length_recipientBytes_le e.recipient
    have hstring := Rlp.length_encodeString_le
      (show (Rlp.recipientBytes e.recipient).length < 2 ^ 64 by omega)
    rw [Rlp.recipient, Rlp.encode_string]
    omega
  have hstring := Rlp.length_encodeString_le (show e.input.length < 2 ^ 64 by omega)
  simp only [List.forall_mem_cons, List.not_mem_nil, false_implies, implies_true, and_true]
    at hnumbers
  obtain ⟨hnonce, hprice, hlimit, hvalue, hv, hr, hs⟩ := hnumbers
  -- Seven numbers, a recipient and the input, each with its header.
  have hpayload : (Rlp.encodeItems e.items).length ≤ 7 * 41 + 29 + (e.input.length + 9) := by
    have hnonce := hnumber _ hnonce
    have hprice := hnumber _ hprice
    have hlimit := hnumber _ hlimit
    have hvalue := hnumber _ hvalue
    have hv := hnumber _ hv
    have hr := hnumber _ hr
    have hs := hnumber _ hs
    simp only [items, Rlp.encodeItems_cons, Rlp.encodeItems_nil, List.length_append,
      Rlp.encode_string e.input, List.length_nil]
    omega
  have hheader := Rlp.length_header 0xc0
    (show (Rlp.encodeItems e.items).length < 2 ^ 64 by omega)
  rw [encode, Rlp.encode_list, List.length_append]
  omega

end Envelope

namespace Wallet

variable {ecdsa : Nat → Bytes → Option Secp256k1.Signature} {w : Wallet} {tx : Transaction}
  {signed : SignedTx}

/-! ### Signing -/

/-- **Signing a transaction** with any function that makes signatures. -/
def signUsing (ecdsa : Nat → Bytes → Option Secp256k1.Signature) (w : Wallet) (tx : Transaction) :
    Except ChainError SignedTx :=
  let tx := { tx with sender := w.address, chainId := w.chainId }
  withSignature tx (ecdsa w.key (Keccak.hash (signingPayload tx)))

/-- Wallets sign with the signatures of the curve. -/
theorem sign_eq_signUsing (w : Wallet) (tx : Transaction) :
    w.sign tx = w.signUsing Secp256k1.sign? tx := rfl

/-- The envelope of a transaction with its signature. -/
def envelope (tx : Transaction) (signature : Secp256k1.Signature) : Envelope where
  nonce := tx.nonce.toNat
  gasPrice := tx.gasPrice.toNat
  gasLimit := tx.gasLimit.toNat
  recipient := tx.recipient
  value := tx.value.toNat
  input := tx.input
  v := recoveryNumber tx.chainId signature.odd
  r := signature.r.toNat
  s := signature.s.toNat

theorem wireForm_eq_encode (tx : Transaction) (signature : Secp256k1.Signature) :
    wireForm tx signature = (envelope tx signature).encode := by
  cases h : tx.recipient <;> simp [wireForm, body, envelope, Envelope.encode, Envelope.items, h,
    Rlp.recipient, Rlp.recipientBytes]

/-- A byte string in memory is shorter than `2 ^ 63` bytes; then a wire form has all its lengths
told. -/
theorem length_wireForm_lt (hinput : tx.input.length < 2 ^ 63) (signature : Secp256k1.Signature) :
    (envelope tx signature).encode.length < 2 ^ 64 := by
  have hnonce := tx.nonce.toNat_lt
  have hprice := tx.gasPrice.isLt
  have hlimit := tx.gasLimit.toNat_lt
  have hchain := tx.chainId.toNat_lt
  have hodd := Bool.toNat_le signature.odd
  refine Envelope.length_encode_lt ?_ hinput
  simp only [envelope, recoveryNumber, List.forall_mem_cons, List.not_mem_nil, false_implies,
    implies_true, and_true]
  exact ⟨by omega, by omega, by omega, tx.value.isLt, by omega, signature.r.isLt,
    signature.s.isLt⟩

/-- **A wire form is read as its envelope**, and nothing else is. -/
theorem decode?_eq_envelope_iff (tx : Transaction) (hinput : tx.input.length < 2 ^ 63)
    (signature : Secp256k1.Signature) (bytes : Bytes) :
    Envelope.decode? bytes = some (envelope tx signature) ↔ bytes = wireForm tx signature := by
  rw [wireForm_eq_encode]
  exact Envelope.decode?_eq_some_iff (length_wireForm_lt hinput signature)

/-- **The body of a transaction, and its chain, can be told from its envelope.** -/
theorem of_envelope_eq {tx' : Transaction} {signature signature' : Secp256k1.Signature}
    (h : envelope tx' signature' = envelope tx signature) :
    tx' = { tx with sender := tx'.sender } := by
  injection h with hnonce hprice hlimit hrecipient hvalue hinput hv
  have hodd := Bool.toNat_le signature.odd
  have hodd' := Bool.toNat_le signature'.odd
  -- The parity is the lowest bit above the constant, so it cannot be taken for a chain.
  have hchain : tx'.chainId.toNat = tx.chainId.toNat := by
    simp only [recoveryNumber] at hv
    omega
  obtain ⟨sender, recipient, input, gasPrice, gasLimit, value, nonce, chainId⟩ := tx
  obtain ⟨sender', recipient', input', gasPrice', gasLimit', value', nonce', chainId'⟩ := tx'
  obtain rfl := UInt64.toNat_inj.mp hnonce
  obtain rfl := BitVec.toNat_inj.mp hprice
  obtain rfl := UInt64.toNat_inj.mp hlimit
  obtain rfl : recipient' = recipient := hrecipient
  obtain rfl := BitVec.toNat_inj.mp hvalue
  obtain rfl : input' = input := hinput
  obtain rfl := UInt64.toNat_inj.mp hchain
  rfl

/-- What a transaction with its signature is made of. -/
theorem of_withSignature {signature? : Option Secp256k1.Signature}
    (h : withSignature tx signature? = .ok signed) :
    ∃ signature, signature? = some signature ∧
      signed = ⟨tx, hashOf (wireForm tx signature), wireForm tx signature⟩ := by
  cases signature? with
  | none => contradiction
  | some signature => exact ⟨signature, rfl, (Except.ok.inj h).symm⟩

/-- A digest is as long as a hash. -/
theorem length_digest (message : Bytes) : (Keccak.hash message).length = 32 := by
  simp [Keccak.hash, Keccak.laneBytes]

/-- The hash of a byte string is its digest. -/
theorem ofWord_hashOf (bytes : Bytes) : Bytes.ofWord (hashOf bytes) = Keccak.hash bytes := by
  have hlt : (Keccak.hash bytes).toNat < 2 ^ 256 := by
    have hbytes := Bytes.toNat_lt (Keccak.hash bytes)
    rw [length_digest] at hbytes
    exact hbytes
  rw [Bytes.ofWord, hashOf, BitVec.toNat_ofNat, Nat.mod_eq_of_lt hlt]
  have hword : (256 / 8 : Nat) = (Keccak.hash bytes).length := (length_digest bytes).symm
  rw [hword, Bytes.ofNat_toNat]

/-- **Signing is faithful and injective**, whatever the signatures are.

* What was signed is what was given, with the address and the chain of the wallet.
* Its wire form is a list of nine items. It is read as what was signed, with the chain, the parity
  and the numbers of the signature, and no other bytes are.
* Its hash is the digest of its wire form.
* Whatever has the same wire form, from whichever wallet, is the same but for the sender.

No byte string in memory has `2 ^ 63` bytes, so the bound on the input excludes nothing. -/
theorem faithful_of_signUsing (hinput : tx.input.length < 2 ^ 63)
    (h : w.signUsing ecdsa tx = .ok signed) :
    w.sign tx = w.signUsing Secp256k1.sign? tx ∧
      signed.tx = { tx with sender := w.address, chainId := w.chainId } ∧
      (∃ signature : Secp256k1.Signature, ∃ e : Envelope,
        ecdsa w.key (Keccak.hash (signingPayload signed.tx)) = some signature ∧
        e = { nonce := tx.nonce.toNat, gasPrice := tx.gasPrice.toNat,
              gasLimit := tx.gasLimit.toNat, recipient := tx.recipient, value := tx.value.toNat,
              input := tx.input, v := 35 + 2 * w.chainId.toNat + signature.odd.toNat,
              r := signature.r.toNat, s := signature.s.toNat } ∧
        e.items.length = 9 ∧ signed.raw = (Rlp.list e.items).encode ∧
        ∀ bytes, Envelope.decode? bytes = some e ↔ bytes = signed.raw) ∧
      Bytes.ofWord signed.hash = Keccak.hash signed.raw ∧
      ∀ (ecdsa' : Nat → Bytes → Option Secp256k1.Signature) (w' : Wallet) (tx' : Transaction)
        (signed' : SignedTx), tx'.input.length < 2 ^ 63 →
        w'.signUsing ecdsa' tx' = .ok signed' → signed'.raw = signed.raw →
        tx'.nonce = tx.nonce ∧ tx'.gasPrice = tx.gasPrice ∧ tx'.gasLimit = tx.gasLimit ∧
          tx'.recipient = tx.recipient ∧ tx'.value = tx.value ∧ tx'.input = tx.input ∧
          w'.chainId = w.chainId := by
  obtain ⟨signature, hsignature, rfl⟩ := of_withSignature h
  have hread := decode?_eq_envelope_iff
    { tx with sender := w.address, chainId := w.chainId } hinput signature
  refine ⟨sign_eq_signUsing w tx, rfl, ⟨signature, envelope _ signature, hsignature, rfl, rfl,
    wireForm_eq_encode _ signature, hread⟩, ofWord_hashOf _, ?_⟩
  intro ecdsa' w' tx' signed' hinput' h' hsame
  obtain ⟨signature', -, rfl⟩ := of_withSignature h'
  -- The same bytes are read as both envelopes.
  have hread' := (decode?_eq_envelope_iff
    { tx' with sender := w'.address, chainId := w'.chainId } hinput' signature' _).mpr rfl
  have henvelope := Option.some.inj (hread'.symm.trans ((hread _).mpr hsame))
  injection of_envelope_eq henvelope with _ hrecipient hinput hprice hlimit hvalue hnonce hchain
  exact ⟨hnonce, hprice, hlimit, hrecipient, hvalue, hinput, hchain⟩

/-- A wallet for a chain of tests. -/
def ofTestChain : Wallet :=
  ⟨0xac0974bec39a17e36ba4a6b4d238ff944bacb478cbed5efcae784d7bf4f2ff80, 31337⟩

/-- A transfer of a thousand wei. -/
def sampleTransfer : Transaction :=
  { recipient := some 0x1111111111111111111111111111111111111111, value := 1000,
    gasLimit := 21000, gasPrice := 1000000000, nonce := 4 }

/-- The signature of the transfer. -/
def sampleSignature : Secp256k1.Signature :=
  ⟨false, 0xd57754c00db23dfba41e67501506c9683ba47442d6c4a0858a5a9e188479785f,
    0x1836d5bce081e55a88a5be3eec8dda6d413eb896018e3cca962fa01f34fd835c⟩

/-- The transfer is read back from its wire form. -/
theorem faithful_of_signUsing_transfer :
    ∃ signed, ofTestChain.signUsing (fun _ _ => some sampleSignature) sampleTransfer = .ok signed ∧
      Envelope.decode? signed.raw = some {
        nonce := 4, gasPrice := 1000000000, gasLimit := 21000,
        recipient := some 0x1111111111111111111111111111111111111111, value := 1000, input := [],
        v := 62709,
        r := 0xd57754c00db23dfba41e67501506c9683ba47442d6c4a0858a5a9e188479785f,
        s := 0x1836d5bce081e55a88a5be3eec8dda6d413eb896018e3cca962fa01f34fd835c } := by
  obtain ⟨signed, hsigned⟩ : ∃ signed,
      ofTestChain.signUsing (fun _ _ => some sampleSignature) sampleTransfer = .ok signed :=
    ⟨_, rfl⟩
  obtain ⟨-, -, ⟨signature, e, hsignature, he, -, -, hread⟩, -⟩ :=
    faithful_of_signUsing (by decide) hsigned
  obtain rfl := Option.some.inj hsignature
  exact ⟨signed, hsigned, he ▸ (hread signed.raw).mpr rfl⟩

end Wallet

end TxDelivery
