import TxDelivery.Proofs.Bytes
import TxDelivery.Proofs.Numeral

/-!
# Hexadecimal text

Which texts are read as a byte string: two digits of either case for each byte, behind one of the
two markers or behind none (`TxDelivery.Hex.Spells`). The reader accepts **these and no others**
(`TxDelivery.Hex.decode_eq_ok_iff`), and the writer's text is one of them
(`TxDelivery.Hex.spells_encode`). Where a width is asked for, the byte string has it
(`TxDelivery.Hex.decodeExact_eq_ok_iff`), and a word is spelled by its bytes
(`TxDelivery.Hex.word?_eq_some_iff`).

Spelling is a relation and not the inverse of a function, since a byte string has many spellings: up
to two cases for each of its digits, and three ways to begin. So the statement is said with the
*values* of the digits: a text spells a byte string when its characters, taken as digits, have the
values of the half-bytes (`TxDelivery.Hex.digitValues`). Both directions are then rewriting, but for
two steps that need an argument.

* The reader takes the bytes of a text in UTF-8 for its characters. That makes no difference: a
  character that takes more than one byte is no digit, and neither is the first of its bytes, so
  neither side of the equivalence holds (`TxDelivery.Hex.map_nibble?_ofText`). The induction is on
  the characters, and a character beyond ASCII ends it at once.
* The reader drops at most one marker, while a spelling only says that some marker may stand in
  front. As `x` is no digit, a text of digits does not start with a marker, so dropping one is
  finding the only one there can be (`TxDelivery.Hex.spells_iff_dropMarker`).

Reading the digits in pairs follows the recursion of the reader
(`TxDelivery.Hex.pairs_eq_ok_iff`); its step is the division of a byte by sixteen
(`TxDelivery.Hex.ofNat_eq_iff`).
-/

namespace TxDelivery

namespace Bytes

/-! ### The bytes of a text -/

/-- The bytes of an array are listed from a place on behind those listed before. -/
theorem toList_loop (bytes : ByteArray) (i : Nat) (listed : Bytes) :
    ByteArray.toList.loop bytes i listed = listed.reverse ++ bytes.data.toList.drop i := by
  fun_induction ByteArray.toList.loop bytes i listed with
  | case1 i listed hi ih =>
    have hnext : bytes.data.toList.drop i = bytes.get! i :: bytes.data.toList.drop (i + 1) := by
      rw [List.drop_eq_getElem_cons (by exact hi), Array.getElem_toList]
      rw [ByteArray.get!, getElem!_pos bytes.data i hi]
    rw [ih, hnext, List.reverse_cons, List.append_assoc, List.singleton_append]
  | case2 i listed hi =>
    have hend : bytes.data.toList.length ≤ i := Nat.le_of_not_lt hi
    rw [List.drop_of_length_le hend, List.append_nil]

/-- The bytes of a text are those of its characters. -/
theorem ofText_ofList (cs : List Char) :
    ofText (String.ofList cs) = cs.flatMap String.utf8EncodeChar := by
  rw [ofText, String.toUTF8, String.toByteArray_ofList, ByteArray.toList, toList_loop,
    List.utf8Encode, List.toList_data_toByteArray]
  rfl

/-- **The bytes of a word** are those that stand for it, in its width. -/
theorem eq_ofWord_iff {k : Nat} {bs : Bytes} {x : BitVec (8 * k)} :
    bs = ofWord x ↔ bs.length = k ∧ x = BitVec.ofNat (8 * k) bs.toNat := by
  have hwidth : 8 * k / 8 = k := by omega
  have hpow : (256 : Nat) ^ k = 2 ^ (8 * k) := by rw [Nat.pow_mul]
  constructor
  · rintro rfl
    refine ⟨by rw [ofWord, length_ofNat, hwidth], ?_⟩
    rw [ofWord, hwidth, toNat_ofNat_of_lt (hpow ▸ x.isLt), BitVec.ofNat_toNat, BitVec.setWidth_eq]
  · rintro ⟨hlength, rfl⟩
    have hlt : bs.toNat < 2 ^ (8 * k) := by rw [← hpow, ← hlength]; exact toNat_lt bs
    rw [ofWord, hwidth, BitVec.toNat_ofNat, Nat.mod_eq_of_lt hlt, ← hlength, ofNat_toNat]

end Bytes

namespace Hex

variable {text ds : List Char} {bs : Bytes}

/-- The values of the digits of a byte string. -/
def digitValues (bs : Bytes) : List Nat := bs.flatMap fun b => [b.toNat / 16, b.toNat % 16]

/-- What may stand in front of the digits. -/
def markers : List (List Char) := [[], ['0', 'x'], ['0', 'X']]

/-- **The spellings of a byte string**: two digits of either case for each byte, behind a marker or
not. -/
def Spells (text : List Char) (bs : Bytes) : Prop :=
  ∃ marker ∈ markers, ∃ ds, text = marker ++ ds ∧
    ds.map (Numeral.digitOf? 16) = (digitValues bs).map some

/-! ### Bytes as characters -/

/-- Beyond the ASCII characters there are no digits. -/
theorem digitOf?_eq_none {c : Char} (h : 128 ≤ c.toNat) (base : Nat) :
    Numeral.digitOf? base c = none := by
  have hle (d : Char) (hd : d.toNat < 128) : ¬ c ≤ d := by
    intro hcd
    have hcd : c.toNat ≤ d.toNat := hcd
    omega
  simp [Numeral.digitOf?, Numeral.digitValue?, hle '9' (by decide), hle 'z' (by decide),
    hle 'Z' (by decide)]

/-- A byte that is no ASCII character is no digit. -/
theorem nibble?_eq_none {b : UInt8} (h : 128 ≤ b.toNat) : nibble? b = none := by
  have hb := b.toNat_lt
  have hvalid : b.toNat.isValidChar := .inl (by omega)
  have hbyte : (Char.ofNat b.toNat).toNat = b.toNat := by
    rw [Char.ofNat, dif_pos hvalid]
    rfl
  exact digitOf?_eq_none (hbyte.symm ▸ h) 16

/-- A digit is one byte, and the same digit as that. -/
theorem nibble?_ofNat_toNat {c : Char} (h : c.toNat < 128) :
    nibble? (UInt8.ofNat c.toNat) = Numeral.digitOf? 16 c := by
  rw [nibble?, UInt8.toNat_ofNat', Nat.mod_eq_of_lt (by omega), Char.ofNat_toNat]

/-- A character beyond them starts with such a byte. -/
theorem exists_utf8EncodeChar_eq_cons {c : Char} (h : 128 ≤ c.toNat) :
    ∃ b bs, String.utf8EncodeChar c = b :: bs ∧ 128 ≤ b.toNat := by
  have hone : ¬ c.val.toNat ≤ 127 := Nat.not_le.mpr h
  simp only [String.utf8EncodeChar, hone, if_false]
  split_ifs
  all_goals
    refine ⟨_, _, rfl, ?_⟩
    rw [UInt8.toNat_ofNat', Nat.mod_eq_of_lt (by omega)]
    omega

/-- **The bytes of a text are the digits its characters are**, if all of either are digits. -/
theorem map_nibble?_ofText (ds : List Char) (values : List Nat) :
    (Bytes.ofText (String.ofList ds)).map nibble? = values.map some ↔
      ds.map (Numeral.digitOf? 16) = values.map some := by
  rw [Bytes.ofText_ofList]
  induction ds generalizing values with
  | nil => rfl
  | cons c ds ih =>
    by_cases hc : c.toNat < 128
    · have hone : String.utf8EncodeChar c = [UInt8.ofNat c.toNat] :=
        if_pos (Nat.le_of_lt_succ hc)
      cases values with
      | nil => simp [hone]
      | cons n values => simp [hone, nibble?_ofNat_toNat hc, ih]
    · have hc : 128 ≤ c.toNat := Nat.not_lt.mp hc
      obtain ⟨b, bs, hbytes, hb⟩ := exists_utf8EncodeChar_eq_cons hc
      cases values with
      | nil => simp [hbytes]
      | cons n values => simp [hbytes, nibble?_eq_none hb, digitOf?_eq_none hc]

/-! ### Reading and writing -/

/-- A digit counts less than sixteen. -/
theorem lt_of_nibble? {b : UInt8} {n : Nat} (h : nibble? b = some n) : n < 16 := by
  obtain ⟨-, hn⟩ := Option.filter_eq_some_iff.mp h
  simpa using hn

/-- **Two digits make one byte.** -/
theorem ofNat_eq_iff {h l : Nat} (hh : h < 16) (hl : l < 16) {b : UInt8} :
    UInt8.ofNat (h * 16 + l) = b ↔ h = b.toNat / 16 ∧ l = b.toNat % 16 := by
  have hb := b.toNat_lt
  rw [← UInt8.toNat_inj, UInt8.toNat_ofNat', Nat.mod_eq_of_lt (by omega)]
  omega

/-- The pairs of digits that make a byte string. -/
theorem pairs_eq_ok_iff {bytes : Bytes} {position : Nat} :
    pairs bytes position = .ok bs ↔ bytes.map nibble? = (digitValues bs).map some := by
  induction bytes, position using pairs.induct generalizing bs with
  | case1 hi lo rest position h l hlo hhi ih =>
    have hpairs : pairs (hi :: lo :: rest) position =
        (pairs rest (position + 2)).map (UInt8.ofNat (h * 16 + l) :: ·) := by
      rw [pairs, hhi, hlo]
      rfl
    rw [hpairs]
    cases bs with
    | nil => cases pairs rest (position + 2) <;> simp [Except.map, digitValues]
    | cons b bs =>
      have hsplit : (pairs rest (position + 2)).map (UInt8.ofNat (h * 16 + l) :: ·) =
          .ok (b :: bs) ↔ UInt8.ofNat (h * 16 + l) = b ∧ pairs rest (position + 2) = .ok bs := by
        cases pairs rest (position + 2) <;> simp [Except.map]
      rw [hsplit, ofNat_eq_iff (lt_of_nibble? hhi) (lt_of_nibble? hlo), ih]
      simp [digitValues, hhi, hlo, and_assoc]
  | case2 hi lo rest position hhi =>
    cases bs <;> simp [pairs, hhi, digitValues, throw, throwThe, MonadExceptOf.throw]
  | case3 hi lo rest position h hlo hhi =>
    cases bs <;> simp [pairs, hhi, hlo, digitValues, throw, throwThe, MonadExceptOf.throw]
  | case4 position head =>
    cases bs <;> simp [pairs, digitValues, throw, throwThe, MonadExceptOf.throw]
  | case5 position => cases bs <;> simp [pairs, digitValues, pure, Except.pure]

/-- A marker is no digits, so at most one is dropped. -/
theorem spells_iff_dropMarker :
    Spells text bs ↔
      (dropMarker text).map (Numeral.digitOf? 16) = (digitValues bs).map some := by
  have hx : Numeral.digitOf? 16 'x' = none := by decide
  have hX : Numeral.digitOf? 16 'X' = none := by decide
  constructor
  · rintro ⟨marker, hmarker, ds, rfl, hds⟩
    simp only [markers, List.mem_cons, List.not_mem_nil, or_false] at hmarker
    rcases hmarker with rfl | rfl | rfl
    · have hdigit : ∀ c ∈ ds, Numeral.digitOf? 16 c ≠ none := by
        intro c hc hnone
        have hmem : none ∈ (digitValues bs).map some := by
          rw [← hds, ← hnone]
          exact List.mem_map_of_mem hc
        simp at hmem
      rw [List.nil_append]
      unfold dropMarker
      split
      · exact absurd hx (hdigit 'x' (by simp))
      · exact absurd hX (hdigit 'X' (by simp))
      · exact hds
    · exact hds
    · exact hds
  · intro hds
    unfold dropMarker at hds
    split at hds
    · exact ⟨['0', 'x'], by simp [markers], _, rfl, hds⟩
    · exact ⟨['0', 'X'], by simp [markers], _, rfl, hds⟩
    · exact ⟨[], by simp [markers], _, rfl, hds⟩

/-- The digits of a byte string are twice as many as its bytes. -/
theorem length_digitValues (bs : Bytes) : (digitValues bs).length = 2 * bs.length := by
  simp [digitValues, Nat.mul_comm]

/-- A byte string is spelled by twice as many bytes. -/
theorem length_eq_of_pairs {bytes : Bytes} {position : Nat} (h : pairs bytes position = .ok bs) :
    bytes.length = 2 * bs.length := by
  have hlength := congrArg List.length (pairs_eq_ok_iff.mp h)
  simpa [length_digitValues] using hlength

theorem spells_iff_pairs :
    Spells text bs ↔ pairs (Bytes.ofText (String.ofList (dropMarker text))) 0 = .ok bs := by
  rw [spells_iff_dropMarker, ← map_nibble?_ofText, pairs_eq_ok_iff]

/-- **Reading hexadecimal text.** -/
theorem decode_eq_ok_iff : decode text = .ok bs ↔ Spells text bs := by
  rw [spells_iff_pairs, decode]
  generalize Bytes.ofText (String.ofList (dropMarker text)) = bytes
  split_ifs with hodd
  · refine ⟨nofun, fun h => ?_⟩
    have hlength := length_eq_of_pairs h
    omega
  · rfl

/-- **Reading hexadecimal text of a width.** -/
theorem decodeExact_eq_ok_iff {width : Nat} :
    decodeExact width text = .ok bs ↔ Spells text bs ∧ bs.length = width := by
  rw [spells_iff_pairs, decodeExact]
  generalize Bytes.ofText (String.ofList (dropMarker text)) = bytes
  split_ifs with hodd hwidth
  · refine ⟨nofun, fun ⟨h, _⟩ => ?_⟩
    have hlength := length_eq_of_pairs h
    omega
  · refine ⟨nofun, fun ⟨h, _⟩ => ?_⟩
    have hlength := length_eq_of_pairs h
    omega
  · refine ⟨fun h => ⟨h, ?_⟩, And.left⟩
    have hlength := length_eq_of_pairs h
    omega

/-- **A word is spelled by its bytes.** -/
theorem word?_eq_some_iff {k : Nat} {x : BitVec (8 * k)} :
    word? (8 * k) text = some x ↔ Spells text (Bytes.ofWord x) := by
  have hwidth : 8 * k / 8 = k := by omega
  rw [word?, hwidth, Option.map_eq_some_iff]
  constructor
  · rintro ⟨bs, hbs, rfl⟩
    have hok : decodeExact k text = .ok bs := by
      cases hdecode : decodeExact k text <;> rw [hdecode] at hbs
      · simp [Except.toOption] at hbs
      · rw [Option.some.inj hbs]
    obtain ⟨hspells, hlength⟩ := decodeExact_eq_ok_iff.mp hok
    rwa [← Bytes.eq_ofWord_iff.mpr ⟨hlength, rfl⟩]
  · intro hspells
    obtain ⟨hlength, hx⟩ := Bytes.eq_ofWord_iff.mp (rfl : Bytes.ofWord x = Bytes.ofWord x)
    refine ⟨_, ?_, hx.symm⟩
    rw [decodeExact_eq_ok_iff.mpr ⟨hspells, hlength⟩]
    rfl

/-- What is written for a byte string spells it. -/
theorem spells_encode (bs : Bytes) : Spells (encode bs).toList bs := by
  refine ⟨['0', 'x'], by simp [markers], digits bs, by simp [encode], ?_⟩
  induction bs with
  | nil => rfl
  | cons b bs ih =>
    have hb := b.toNat_lt
    have hhigh := Numeral.digitOf?_digitChar (by omega) (show b.toNat / 16 < 16 by omega)
    have hlow := Numeral.digitOf?_digitChar (by omega) (show b.toNat % 16 < 16 by omega)
    simp_all [digits, byteDigits, digitValues]

end Hex

end TxDelivery
