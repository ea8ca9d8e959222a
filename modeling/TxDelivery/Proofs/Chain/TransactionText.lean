import Mathlib.Data.List.Forall2
import TxDelivery.Chain.TransactionText
import TxDelivery.Proofs.Hex
import TxDelivery.Proofs.Json.RoundTrip

/-!
# Transactions read back

A transaction is written in one way and read in many, and this says in which
(`TxDelivery.Transaction.SpelledBy`): as an array of its fields, or as an object with the fields in
any order and others among them, a recipient that is missing counting as none; bytes as hexadecimal
text or one by one; the value as a number or as a text in one of four bases. **The reader accepts
the spellings of a transaction and nothing else** (`TxDelivery.Transaction.ofJson?_eq_some_iff`), so
all that is to be known of the written form is that it is one of them
(`TxDelivery.Transaction.spelledBy_toJson`).

To prove only that what is written is read back would have been less work and would have said
nothing of other texts. With the spellings said first, reading back is a consequence, and so is that
a text has a normal form: the transactions that a text denotes are those that its value spells, so
there is one, and writing that one gives a text that denotes the same.

## Part by part

The parts are settled in the order in which a text is taken apart, each by an equivalence between
what the reader makes of it and what spells it:

* the text of an amount (`TxDelivery.Amount.ofText?_eq_some_iff`), where a marker announces the base
  and decimal digits can never be taken for one;
* bytes and addresses (`TxDelivery.Transaction.bytes?_eq_some_iff`);
* all fields in their order (`TxDelivery.Transaction.ofFields?_eq_some_iff`);
* fields by their names (`TxDelivery.Transaction.forall₂_theField?_iff`).

The last is the one with an argument. The reader looks each name up and refuses it unless it stands
once; a spelling says that the fields, in some order and among others with other names, are the ones
wanted. That the first gives the second is by induction on the names, taking one field out at a time
(`TxDelivery.Transaction.exists_perm_of_filter`). The name that may be missing is settled before: a
recipient left out is one that is set to nothing.

With the text of a value reading back as the value, `TxDelivery.Transaction.text_normal` follows: a
transaction is what its text denotes, and any text of it is normalized to that one.
-/

namespace TxDelivery

/-! ### Amounts -/

namespace Amount

/-- What may stand in front of the digits of an amount, and the base it announces. -/
def markers : List (List Char × Nat) :=
  [([], 10), (['0', 'x'], 16), (['0', 'X'], 16), (['0', 'o'], 8), (['0', 'O'], 8),
    (['0', 'b'], 2), (['0', 'B'], 2)]

/-- **The spellings of an amount**: its digits in one of four bases, with underscores anywhere
between them and zeros in front; no digits at all for zero. -/
def Spells (text : List Char) (a : Amount) : Prop :=
  ∃ m ∈ markers, ∃ ds, text = m.1 ++ ds ∧
    Numeral.ofDigits? m.2 (ds.filter (· != '_')) = some a.toNat

/-- A text is taken apart into a marker and what follows it. -/
theorem exists_marker (text : List Char) :
    ∃ marker, (marker, (base text).1) ∈ markers ∧ text = marker ++ (base text).2 := by
  unfold base
  split
  case h_1 c rest =>
    split_ifs with hx ho hb
    · exact ⟨['0', c], by simpa [markers] using hx, rfl⟩
    · exact ⟨['0', c], by simpa [markers] using ho, rfl⟩
    · exact ⟨['0', c], by simpa [markers] using hb, rfl⟩
    · exact ⟨[], by simp [markers], rfl⟩
  case h_2 => exact ⟨[], by simp [markers], rfl⟩

/-- Digits that have a value in decimal do not start with the marker of another base. -/
theorem base_of_ofDigits? {ds : List Char} {n : Nat}
    (h : Numeral.ofDigits? 10 (ds.filter (· != '_')) = some n) : base ds = (10, ds) := by
  have hdigit (c : Char) (hc : c ∈ ds) (hne : c ≠ '_') : (Numeral.digitOf? 10 c).isSome :=
    Numeral.isSome_digitOf? h (List.mem_filter.mpr ⟨hc, by simpa using hne⟩)
  unfold base
  split
  case h_1 c rest =>
    have hno (d : Char) (hd : d ≠ '_') (hnone : Numeral.digitOf? 10 d = none) : c ≠ d := by
      rintro rfl
      have hsome := hdigit c (by simp) hd
      simp [hnone] at hsome
    simp [hno 'x' (by decide) (by decide), hno 'X' (by decide) (by decide),
      hno 'o' (by decide) (by decide), hno 'O' (by decide) (by decide),
      hno 'b' (by decide) (by decide), hno 'B' (by decide) (by decide)]
  case h_2 => rfl

/-- **Reading an amount.** -/
theorem ofText?_eq_some_iff {text : List Char} {a : Amount} :
    ofText? text = some a ↔ Spells text a := by
  have hvalue {b : Nat} {ds : List Char} (hbase : base text = (b, ds)) :
      ofText? text = some a ↔ Numeral.ofDigits? b (ds.filter (· != '_')) = some a.toNat := by
    simp only [ofText?, hbase]
    generalize Numeral.ofDigits? b (ds.filter (· != '_')) = value
    rcases value with - | n
    · exact ⟨nofun, nofun⟩
    · have hlt : a.toNat < Nat.pow 2 256 := a.isLt
      simp only [Option.ite_none_right_eq_some, Option.some.injEq]
      constructor
      · rintro ⟨hn, rfl⟩
        rw [BitVec.toNat_ofNat]
        exact (Nat.mod_eq_of_lt hn).symm
      · rintro rfl
        exact ⟨hlt, by simp⟩
  constructor
  · intro h
    obtain ⟨marker, hmarker, htext⟩ := exists_marker text
    exact ⟨_, hmarker, _, htext, (hvalue rfl).mp h⟩
  · rintro ⟨⟨marker, b⟩, hmarker, ds, htext, hds⟩
    refine (hvalue ?_).mpr hds
    simp only [markers, List.mem_cons, List.not_mem_nil, or_false, Prod.mk.injEq] at hmarker
    rw [htext]
    rcases hmarker with ⟨rfl, rfl⟩ | ⟨rfl, rfl⟩ | ⟨rfl, rfl⟩ | ⟨rfl, rfl⟩ | ⟨rfl, rfl⟩ |
      ⟨rfl, rfl⟩ | ⟨rfl, rfl⟩
    · exact base_of_ofDigits? hds
    all_goals rfl

/-- What is written for an amount spells it. -/
theorem spells_quantity (a : Amount) : Spells (Numeral.quantity a.toNat).toList a := by
  refine ⟨(['0', 'x'], 16), by simp [markers], Numeral.digits 16 a.toNat, ?_, ?_⟩
  · simp [Numeral.quantity, Numeral.hexadecimal]
  · -- No digit is an underscore.
    have hplain : ∀ d < 16, Numeral.digitChar d ≠ '_' := by decide
    have hall : ∀ c ∈ Numeral.digits 16 a.toNat, (c != '_') = true := by
      intro c hc
      obtain ⟨d, hd, rfl⟩ := Numeral.allDigits_digits (by omega) a.toNat c hc
      simpa using hplain d hd
    rw [List.filter_eq_self.mpr hall, Numeral.ofDigits?_digits (by omega) (by omega)]

end Amount

namespace Transaction

/-! ### Fields -/

/-- **The spellings of a byte string** as a value: hexadecimal text, or an array of the bytes. -/
inductive SpellsBytes : Json → Bytes → Prop where
  /-- Hexadecimal text. -/
  | text {s : String} {bs : Bytes} (h : Hex.Spells s.toList bs) : SpellsBytes (.string s) bs
  /-- The bytes one by one. -/
  | items {items : List Json} {bs : Bytes}
      (h : List.Forall₂ (fun v b => v.natural? = some b.toNat) items bs) :
      SpellsBytes (.array items) bs

/-- **The spellings of a recipient**: an address, or nothing for the creation of a contract. -/
inductive SpellsRecipient : Json → Option Address → Prop where
  /-- There is no recipient. -/
  | creation : SpellsRecipient .null none
  /-- The bytes of an address. -/
  | address {v : Json} {a : Address} (h : SpellsBytes v (Bytes.ofWord a)) :
      SpellsRecipient v (some a)

/-- **The spellings of a value**: a number of 64 bits, or the text of an amount. -/
inductive SpellsValue : Json → Amount → Prop where
  /-- A number. -/
  | number {n : Json.Number} {a : Amount} (h : n.natural? = some a.toNat)
      (hlt : a.toNat < UInt64.size) : SpellsValue (.number n) a
  /-- A text. -/
  | text {s : String} {a : Amount} (h : Amount.Spells s.toList a) : SpellsValue (.string s) a

/-- **The spellings of all fields of a transaction**, in their order. -/
inductive FieldsSpelledBy (tx : Transaction) : List Json → Prop where
  /-- One value for each field. -/
  | intro {sender recipient input gasPrice gasLimit value nonce chainId : Json}
      (hsender : SpellsBytes sender (Bytes.ofWord tx.sender))
      (hrecipient : SpellsRecipient recipient tx.recipient)
      (hinput : SpellsBytes input tx.input)
      (hgasPrice : gasPrice.natural? = some tx.gasPrice.toNat)
      (hgasLimit : gasLimit.natural? = some tx.gasLimit.toNat)
      (hvalue : SpellsValue value tx.value)
      (hnonce : nonce.natural? = some tx.nonce.toNat)
      (hchainId : chainId.natural? = some tx.chainId.toNat) :
      FieldsSpelledBy tx [sender, recipient, input, gasPrice, gasLimit, value, nonce, chainId]

section Fields

variable {v : Json} {bs : Bytes}

/-- **Reading a number below a bound** into a type whose elements stand for numbers. -/
theorem map_numberBelow?_eq_some_iff {α : Type} {bound : Nat} {ofNat : Nat → α} {toNat : α → Nat}
    (hto : ∀ n < bound, toNat (ofNat n) = n) (hof : ∀ a, ofNat (toNat a) = a) {a : α} :
    (numberBelow? bound v).map ofNat = some a ↔
      v.natural? = some (toNat a) ∧ toNat a < bound := by
  have hread {n : Nat} : numberBelow? bound v = some n ↔ v.natural? = some n ∧ n < bound := by
    simp [numberBelow?, Option.filter_eq_some_iff]
  rw [Option.map_eq_some_iff]
  constructor
  · rintro ⟨n, hn, rfl⟩
    obtain ⟨hn, hlt⟩ := hread.mp hn
    rw [hto n hlt]
    exact ⟨hn, hlt⟩
  · intro h
    exact ⟨_, hread.mpr h, hof a⟩

/-- Reading a 64-bit field. -/
theorem word?_eq_some_iff {n : UInt64} : word? v = some n ↔ v.natural? = some n.toNat := by
  rw [word?, map_numberBelow?_eq_some_iff (fun _ h => UInt64.toNat_ofNat_of_lt' h)
    fun _ => UInt64.ofNat_toNat]
  exact and_iff_left n.toNat_lt_size

/-- Reading a price. -/
theorem price?_eq_some_iff {p : GasPrice} : price? v = some p ↔ v.natural? = some p.toNat := by
  have hread := map_numberBelow?_eq_some_iff (v := v) (a := p)
    (fun n h => (BitVec.toNat_ofNat n 128).trans (Nat.mod_eq_of_lt h)) fun a => by simp
  exact hread.trans (and_iff_left p.isLt)

/-- Reading a byte. -/
theorem byte?_eq_some_iff {b : UInt8} :
    (numberBelow? 256 v).map UInt8.ofNat = some b ↔ v.natural? = some b.toNat := by
  rw [map_numberBelow?_eq_some_iff (fun _ h => UInt8.toNat_ofNat_of_lt' h)
    fun _ => UInt8.ofNat_toNat]
  exact and_iff_left b.toNat_lt

/-- Reading one thing after the other. -/
theorem mapM_eq_some_iff {α β : Type} {f : α → Option β} {l : List α} {r : List β} :
    l.mapM f = some r ↔ List.Forall₂ (fun a b => f a = some b) l r := by
  induction l generalizing r with
  | nil => cases r <;> simp
  | cons a l ih =>
    rw [List.mapM_cons]
    cases r with
    | nil => cases f a <;> cases l.mapM f <;> simp
    | cons b r =>
      rw [List.forall₂_cons, ← ih]
      cases f a <;> cases l.mapM f <;> simp

theorem byteItems?_eq_some_iff {items : List Json} :
    byteItems? items = some bs ↔
      List.Forall₂ (fun v b => v.natural? = some b.toNat) items bs := by
  rw [byteItems?, mapM_eq_some_iff]
  simp only [byte?_eq_some_iff]

/-- **Reading a data field.** -/
theorem bytes?_eq_some_iff : bytes? v = some bs ↔ SpellsBytes v bs := by
  constructor
  · intro h
    unfold bytes? at h
    split at h
    case h_1 s =>
      refine .text (Hex.decode_eq_ok_iff.mp ?_)
      cases hdecode : Hex.decode s.toList <;> simp_all [Except.toOption]
    case h_2 items => exact .items (byteItems?_eq_some_iff.mp h)
    case h_3 => contradiction
  · rintro (h | h)
    · simp [bytes?, Hex.decode_eq_ok_iff.mpr h, Except.toOption]
    · simp [bytes?, byteItems?_eq_some_iff.mpr h]

/-- **Reading an address.** -/
theorem address?_eq_some_iff {a : Address} :
    address? v = some a ↔ SpellsBytes v (Bytes.ofWord a) := by
  constructor
  · intro h
    unfold address? at h
    split at h
    case h_1 s => exact .text ((Hex.word?_eq_some_iff (k := 20)).mp h)
    case h_2 items =>
      split at h
      case h_1 bytes hbytes =>
        obtain ⟨hlength, ha⟩ := Option.ite_none_right_eq_some.mp h
        have hword : bytes = Bytes.ofWord a :=
          (Bytes.eq_ofWord_iff (k := 20)).mpr ⟨hlength, (Option.some.inj ha).symm⟩
        exact .items (byteItems?_eq_some_iff.mp (hword ▸ hbytes))
      case h_2 => contradiction
    case h_3 => contradiction
  · rintro (h | h)
    · exact (Hex.word?_eq_some_iff (k := 20)).mpr h
    · obtain ⟨hlength, ha⟩ := (Bytes.eq_ofWord_iff (k := 20) (x := a)).mp rfl
      simp only [address?, byteItems?_eq_some_iff.mpr h, if_pos hlength]
      exact congrArg some ha.symm

/-- Reading a recipient. -/
theorem recipient?_eq_some_iff {r : Option Address} :
    recipient? v = some r ↔ SpellsRecipient v r := by
  constructor
  · intro h
    unfold recipient? at h
    split at h
    case h_1 =>
      obtain rfl := Option.some.inj h
      exact .creation
    case h_2 =>
      obtain ⟨a, ha, rfl⟩ := Option.map_eq_some_iff.mp h
      exact .address (address?_eq_some_iff.mp ha)
  · rintro (_ | h)
    · rfl
    · have hread := address?_eq_some_iff.mpr h
      cases h <;> simp [recipient?, hread]

/-- Reading a value. -/
theorem value?_eq_some_iff {a : Amount} : value? v = some a ↔ SpellsValue v a := by
  have hnumber {n : Json.Number} : value? (.number n) = some a ↔
      n.natural? = some a.toNat ∧ a.toNat < UInt64.size := by
    have hsize : UInt64.size < 2 ^ 256 := by decide
    exact map_numberBelow?_eq_some_iff (fun _ h => Nat.mod_eq_of_lt (Nat.lt_trans h hsize))
      fun a => by simp
  constructor
  · intro h
    cases v with
    | string s => exact .text (Amount.ofText?_eq_some_iff.mp h)
    | number n =>
      obtain ⟨hn, hlt⟩ := hnumber.mp h
      exact .number hn hlt
    | _ => contradiction
  · rintro (⟨h, hlt⟩ | h)
    · exact hnumber.mpr ⟨h, hlt⟩
    · exact Amount.ofText?_eq_some_iff.mpr h

/-- **Reading the fields of a transaction** in their order. -/
theorem ofFields?_eq_some_iff {values : List Json} {tx : Transaction} :
    ofFields? values = some tx ↔ FieldsSpelledBy tx values := by
  constructor
  · intro h
    unfold ofFields? at h
    split at h
    case h_1 =>
      simp only [Option.bind_eq_bind, Option.bind_eq_some_iff, Option.pure_def,
        Option.some.injEq] at h
      obtain ⟨sender, hsender, recipient, hrecipient, input, hinput, gasPrice, hgasPrice, gasLimit,
        hgasLimit, value, hvalue, nonce, hnonce, chainId, hchainId, rfl⟩ := h
      exact .intro (address?_eq_some_iff.mp hsender) (recipient?_eq_some_iff.mp hrecipient)
        (bytes?_eq_some_iff.mp hinput) (price?_eq_some_iff.mp hgasPrice)
        (word?_eq_some_iff.mp hgasLimit) (value?_eq_some_iff.mp hvalue)
        (word?_eq_some_iff.mp hnonce) (word?_eq_some_iff.mp hchainId)
    case h_2 => contradiction
  · rintro ⟨hsender, hrecipient, hinput, hgasPrice, hgasLimit, hvalue, hnonce, hchainId⟩
    simp [ofFields?, address?_eq_some_iff.mpr hsender, recipient?_eq_some_iff.mpr hrecipient,
      bytes?_eq_some_iff.mpr hinput, price?_eq_some_iff.mpr hgasPrice,
      word?_eq_some_iff.mpr hgasLimit, value?_eq_some_iff.mpr hvalue,
      word?_eq_some_iff.mpr hnonce, word?_eq_some_iff.mpr hchainId]

end Fields

/-! ### Fields in any order -/

section Named

variable {named fields : List (String × Json)}

/-- Of fields with different names one has a name. -/
theorem filter_eq_singleton (hnodup : (named.map Prod.fst).Nodup) {p : String × Json}
    (hp : p ∈ named) : named.filter (fun f => f.1 == p.1) = [p] := by
  induction named with
  | nil => simp at hp
  | cons q named ih =>
    obtain ⟨hq, hnodup⟩ := List.nodup_cons.mp hnodup
    rcases List.mem_cons.mp hp with rfl | hp
    · have hnone : named.filter (fun f => f.1 == p.1) = [] := by
        refine List.filter_eq_nil_iff.mpr fun f hf heq => hq ?_
        exact List.mem_map.mpr ⟨f, hf, by simpa using heq⟩
      rw [List.filter_cons_of_pos (by simp), hnone]
    · have hne : q.1 ≠ p.1 := fun heq => hq (heq ▸ List.mem_map_of_mem hp)
      rw [List.filter_cons_of_neg (by simpa using hne), ih hnodup hp]

/-- Fields that stand once each stand in some order among others. -/
theorem exists_perm_of_filter (hnodup : (named.map Prod.fst).Nodup)
    (h : ∀ p ∈ named, fields.filter (fun f => f.1 == p.1) = [p]) :
    ∃ others, fields.Perm (named ++ others) ∧ ∀ f ∈ others, f.1 ∉ named.map Prod.fst := by
  induction named generalizing fields with
  | nil => exact ⟨fields, .refl _, by simp⟩
  | cons q named ih =>
    obtain ⟨hq, hnodup⟩ := List.nodup_cons.mp hnodup
    obtain ⟨hone, h⟩ := List.forall_mem_cons.mp h
    -- The fields of other names are the remaining ones among others.
    have hrest : ∀ p ∈ named, (fields.filter fun f => !(f.1 == q.1)).filter
        (fun f => f.1 == p.1) = [p] := by
      intro p hp
      have hne : p.1 ≠ q.1 := fun heq => hq (heq ▸ List.mem_map_of_mem hp)
      rw [List.filter_filter, ← h p hp]
      refine List.filter_congr fun f _ => ?_
      by_cases hf : f.1 = p.1 <;> simp [hf, hne]
    obtain ⟨others, hperm, hothers⟩ := ih hnodup hrest
    refine ⟨others, ?_, fun f hf => ?_⟩
    · have hsplit := (List.filter_append_perm (fun f => f.1 == q.1) fields).symm
      rw [hone] at hsplit
      exact hsplit.trans (hperm.cons q)
    · have hmem : f ∈ fields.filter fun f => !(f.1 == q.1) :=
        hperm.mem_iff.mpr (List.mem_append_right _ hf)
      have hne : f.1 ≠ q.1 := by simpa using (List.mem_filter.mp hmem).2
      rw [List.map_cons, List.mem_cons, not_or]
      exact ⟨hne, hothers f hf⟩

/-- **Fields stand once each** exactly if they stand in some order among others. -/
theorem forall_filter_eq_iff (hnodup : (named.map Prod.fst).Nodup) :
    (∀ p ∈ named, fields.filter (fun f => f.1 == p.1) = [p]) ↔
      ∃ others, fields.Perm (named ++ others) ∧ ∀ f ∈ others, f.1 ∉ named.map Prod.fst := by
  refine ⟨exists_perm_of_filter hnodup, ?_⟩
  rintro ⟨others, hperm, hothers⟩ p hp
  have hnone : others.filter (fun f => f.1 == p.1) = [] := by
    refine List.filter_eq_nil_iff.mpr fun f hf heq => hothers f hf ?_
    exact List.mem_map.mpr ⟨p, hp, by simpa using (beq_iff_eq.mp heq).symm⟩
  have hfound := hperm.filter fun f => f.1 == p.1
  rwa [List.filter_append, filter_eq_singleton hnodup hp, hnone, List.append_nil,
    List.perm_singleton] at hfound

end Named

/-- The values of all fields of a transaction, each under its name, in any order and among
others. -/
def Names (fields : List (String × Json)) (values : List Json) : Prop :=
  ∃ others, fields.Perm (fieldNames.zip values ++ others) ∧ ∀ f ∈ others, f.1 ∉ fieldNames

/-- **The spellings of a transaction.** -/
inductive SpelledBy (tx : Transaction) : Json → Prop where
  /-- The fields in order. -/
  | array {values : List Json} (h : FieldsSpelledBy tx values) : SpelledBy tx (.array values)
  /-- The fields by their names. -/
  | object {values : List Json} {fields : List (String × Json)} (h : FieldsSpelledBy tx values)
      (hfields : Names fields values) : SpelledBy tx (.object fields)
  /-- The fields by their names, without the recipient that a creation does not have. -/
  | creation {values : List Json} {fields : List (String × Json)} (h : FieldsSpelledBy tx values)
      (hto : ∀ f ∈ fields, f.1 ≠ "to") (hfields : Names (("to", .null) :: fields) values) :
      SpelledBy tx (.object fields)

section Objects

variable {fields : List (String × Json)} {values : List Json} {tx : Transaction}

theorem theField?_eq_some_iff {name : String} {v : Json} :
    theField? fields name = some v ↔
      fields.filter (fun f => f.1 == name) = [(name, v)] ∨
        fields.filter (fun f => f.1 == name) = [] ∧ name = "to" ∧ v = .null := by
  have hname : ∀ f ∈ fields.filter (fun f => f.1 == name), f.1 = name := by
    intro f hf
    simpa using (List.mem_filter.mp hf).2
  rw [theField?]
  generalize fields.filter (fun f => f.1 == name) = found at hname
  rcases found with - | ⟨⟨k, w⟩, - | ⟨f, found⟩⟩
  · by_cases hto : name = "to"
    · simp [hto, eq_comm]
    · simp [hto]
  · obtain rfl : k = name := hname (k, w) (by simp)
    simp
  · simp

theorem FieldsSpelledBy.length_eq (h : FieldsSpelledBy tx values) :
    values.length = fieldNames.length := by
  cases h
  rfl

/-- One value for each name. -/
theorem map_fst_zip_fieldNames (hlength : values.length = fieldNames.length) :
    (fieldNames.zip values).map Prod.fst = fieldNames :=
  List.map_fst_zip (Nat.le_of_eq hlength.symm)

/-- Among the values of all fields there is one under the name of the recipient. -/
theorem Names.exists_to (h : Names fields values) (hlength : values.length = fieldNames.length) :
    ∃ f ∈ fields, f.1 = "to" := by
  obtain ⟨others, hperm, -⟩ := h
  have hmem : "to" ∈ (fieldNames.zip values).map Prod.fst := by
    rw [map_fst_zip_fieldNames hlength]
    decide
  obtain ⟨f, hf, hname⟩ := List.mem_map.mp hmem
  exact ⟨f, hperm.mem_iff.mpr (List.mem_append_left _ hf), hname⟩

/-- A recipient that is left out is nothing. -/
theorem theField?_cons (hto : ∀ f ∈ fields, f.1 ≠ "to") (name : String) :
    theField? (("to", .null) :: fields) name = theField? fields name := by
  have hnone : fields.filter (fun f => f.1 == "to") = [] := by simpa using hto
  by_cases hname : name = "to"
  · subst hname
    simp [theField?, hnone]
  · simp [theField?, Ne.symm hname]

/-- If there is a recipient, the fields are read off exactly if they are all named once. -/
theorem forall₂_theField?_iff (hto : ∃ f ∈ fields, f.1 = "to") :
    List.Forall₂ (fun name v => theField? fields name = some v) fieldNames values ↔
      values.length = fieldNames.length ∧ Names fields values := by
  rw [List.forall₂_iff_zip]
  refine Iff.trans (and_congr_left' eq_comm) (and_congr_right fun hlength => ?_)
  have hnames := map_fst_zip_fieldNames hlength
  have hnodup : ((fieldNames.zip values).map Prod.fst).Nodup := by
    rw [hnames]
    decide
  have hiff : (∀ p ∈ fieldNames.zip values, fields.filter (fun f => f.1 == p.1) = [p]) ↔
      Names fields values := by
    rw [Names, forall_filter_eq_iff hnodup, hnames]
  rw [← hiff]
  constructor
  · rintro h ⟨name, v⟩ hp
    obtain hone | ⟨hnone, rfl, -⟩ := theField?_eq_some_iff.mp (h hp)
    · exact hone
    · obtain ⟨f, hf, hname⟩ := hto
      exact absurd hname (by simpa using List.filter_eq_nil_iff.mp hnone f hf)
  · intro h name v hp
    exact theField?_eq_some_iff.mpr (.inl (h (name, v) hp))

theorem ofJson?_object_eq_some_iff :
    ofJson? (.object fields) = some tx ↔ ∃ values,
      List.Forall₂ (fun name v => theField? fields name = some v) fieldNames values ∧
        FieldsSpelledBy tx values := by
  rw [ofJson?, Option.bind_eq_bind, Option.bind_eq_some_iff]
  simp only [mapM_eq_some_iff, ofFields?_eq_some_iff]

/-- **Reading a transaction**: what is read are its spellings. -/
theorem ofJson?_eq_some_iff {v : Json} : ofJson? v = some tx ↔ SpelledBy tx v := by
  constructor
  · intro h
    unfold ofJson? at h
    split at h
    case h_1 fields =>
      obtain ⟨values, hvalues, hspelled⟩ := ofJson?_object_eq_some_iff.mp h
      by_cases hto : ∃ f ∈ fields, f.1 = "to"
      · exact .object hspelled ((forall₂_theField?_iff hto).mp hvalues).2
      · have hto : ∀ f ∈ fields, f.1 ≠ "to" := fun f hf hname => hto ⟨f, hf, hname⟩
        simp only [← theField?_cons hto] at hvalues
        exact .creation hspelled hto ((forall₂_theField?_iff (by simp)).mp hvalues).2
    case h_2 items => exact .array (ofFields?_eq_some_iff.mp h)
    case h_3 => contradiction
  · rintro (h | ⟨h, hfields⟩ | ⟨h, hto, hfields⟩)
    · exact ofFields?_eq_some_iff.mpr h
    · refine ofJson?_object_eq_some_iff.mpr ⟨_, ?_, h⟩
      exact (forall₂_theField?_iff (hfields.exists_to h.length_eq)).mpr ⟨h.length_eq, hfields⟩
    · refine ofJson?_object_eq_some_iff.mpr ⟨_, ?_, h⟩
      simp only [← theField?_cons hto]
      exact (forall₂_theField?_iff (by simp)).mpr ⟨h.length_eq, hfields⟩

end Objects

/-! ### Writing -/

/-- What is written for an address spells it. -/
theorem spellsBytes_addressJson (a : Address) : SpellsBytes (addressJson a) (Bytes.ofWord a) :=
  .text (Hex.spells_encode _)

/-- **What is written for a transaction spells it.** -/
theorem spelledBy_toJson (tx : Transaction) : SpelledBy tx tx.toJson := by
  have hrecipient : SpellsRecipient (.ofOption addressJson tx.recipient) tx.recipient := by
    cases tx.recipient with
    | none => exact .creation
    | some a => exact .address (spellsBytes_addressJson a)
  have hfields : FieldsSpelledBy tx
      [addressJson tx.sender, .ofOption addressJson tx.recipient, .string (Hex.encode tx.input),
        .nat tx.gasPrice.toNat, .nat tx.gasLimit.toNat,
        .string (Numeral.quantity tx.value.toNat), .nat tx.nonce.toNat, .nat tx.chainId.toNat] :=
    .intro (spellsBytes_addressJson tx.sender) hrecipient (.text (Hex.spells_encode tx.input))
      (Json.natural?_nat _) (Json.natural?_nat _) (.text (Amount.spells_quantity tx.value))
      (Json.natural?_nat _) (Json.natural?_nat _)
  exact .object hfields ⟨[], .refl _, nofun⟩

theorem wellFormed_toJson (tx : Transaction) : tx.toJson.WellFormed := by
  have hnat (n : Nat) := Json.wellFormed_nat n
  have hrecipient : (Json.ofOption addressJson tx.recipient).WellFormed := by
    cases tx.recipient <;> simp [Json.ofOption, addressJson, Json.WellFormed]
  simp [toJson, Json.WellFormed, Json.WellFormedFields, addressJson, hnat, hrecipient]

/-! ### Reading back -/

/-- The text of a transaction that another text of it denotes. -/
def normalize? (text : String) : Option String := (ofText? text).map Transaction.text

/-- A text denotes what its value spells. -/
theorem ofText?_eq_some_iff {text : String} {tx : Transaction} :
    ofText? text = some tx ↔ ∃ v, Json.parseWith? .inside text = some v ∧ SpelledBy tx v := by
  rw [ofText?, Option.bind_eq_bind, Option.bind_eq_some_iff]
  simp only [ofJson?_eq_some_iff]

/-- The text of a value denotes what the value spells. -/
theorem ofText?_compact {v : Json} {tx : Transaction} (hv : v.WellFormed) (h : SpelledBy tx v) :
    ofText? v.compact = some tx :=
  ofText?_eq_some_iff.mpr ⟨v, Json.parseWith?_compact .inside hv, h⟩

/-- **Transactions read back, and texts have a normal form.** Any transaction is what its text
denotes. What any text is normalized to denotes the same transaction, and is normalized to itself.
A text denotes a transaction exactly if its value is one of the spellings: in any order and among
other fields, or as an array, with the numbers and bytes in any of their forms; and every spelling
has such a text. -/
theorem text_normal (tx : Transaction) :
    ofText? tx.text = some tx ∧
    (∀ text, ofText? text = some tx →
      normalize? text = some tx.text ∧ ofText? tx.text = ofText? text ∧
        normalize? tx.text = some tx.text) ∧
    (∀ text, ofText? text = some tx ↔
      ∃ v, Json.parseWith? .inside text = some v ∧ SpelledBy tx v) ∧
    ∀ v : Json, v.WellFormed → SpelledBy tx v → ofText? v.compact = some tx := by
  have hread : ofText? tx.text = some tx :=
    ofText?_compact (wellFormed_toJson tx) (spelledBy_toJson tx)
  refine ⟨hread, fun text h => ⟨?_, ?_, ?_⟩, fun text => ofText?_eq_some_iff,
    fun v hv h => ofText?_compact hv h⟩
  · rw [normalize?, h, Option.map_some]
  · rw [hread, h]
  · rw [normalize?, hread, Option.map_some]

/-- The creation of a contract by an account whose number ends with an odd digit. -/
def sampleCreation : Transaction where
  sender := 0xab
  input := [1, 255]
  gasPrice := 7
  value := 127
  chainId := 1

/-- Its fields in another order and among others: the sender without a marker and in capitals, the
input byte by byte, the value in octal, and no recipient. -/
def sampleCreationJson : Json := .object
  [("value", .string "0o17_7"), ("input", .array [.nat 1, .nat 255]),
    ("memo", .object [("to", .string "nobody")]), ("chain_id", .nat 1), ("nonce", .nat 0),
    ("from", .string "00000000000000000000000000000000000000AB"), ("gas_limit", .nat 0),
    ("gas_price", .nat 7)]

/-- Its text denotes the transaction, and is normalized to another one that does. -/
theorem text_normal_sampleCreation :
    ofText? sampleCreationJson.compact = some sampleCreation ∧
      normalize? sampleCreationJson.compact = some sampleCreation.text ∧
      ofText? sampleCreation.text = some sampleCreation := by
  have hv : sampleCreationJson.WellFormed := by
    simp [sampleCreationJson, Json.WellFormed, Json.WellFormedFields, Json.WellFormedItems,
      Json.wellFormed_nat]
  have hsender : SpellsBytes (.string "00000000000000000000000000000000000000AB")
      (Bytes.ofWord sampleCreation.sender) :=
    .text ⟨[], by simp [Hex.markers], _, rfl, by decide⟩
  have hinput : SpellsBytes (.array [.nat 1, .nat 255]) sampleCreation.input :=
    .items (by simp [sampleCreation, Json.natural?_nat])
  have hvalue : SpellsValue (.string "0o17_7") sampleCreation.value :=
    .text ⟨(['0', 'o'], 8), by simp [Amount.markers], "17_7".toList, rfl, by decide⟩
  have hspelled : SpelledBy sampleCreation sampleCreationJson := by
    refine .creation (.intro hsender .creation hinput (Json.natural?_nat 7) (Json.natural?_nat 0)
      hvalue (Json.natural?_nat 0) (Json.natural?_nat 1)) (by decide)
      ⟨[("memo", .object [("to", .string "nobody")])], ?_, by decide⟩
    -- The names are all different, so it is enough that the same fields are there.
    refine (List.perm_ext_iff_of_nodup ?_ ?_).mpr fun f => ?_
    · simp
    · simp [fieldNames]
    · simp only [fieldNames, List.zip_cons_cons, List.zip_nil_right, List.cons_append,
        List.nil_append, List.mem_cons, List.not_mem_nil, or_false]
      tauto
  obtain ⟨hread, hnormal, -, hdenotes⟩ := text_normal sampleCreation
  have htext := hdenotes sampleCreationJson hv hspelled
  exact ⟨htext, (hnormal _ htext).1, hread⟩

end Transaction

end TxDelivery
