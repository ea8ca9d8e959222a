import TxDelivery.Proofs.Bytes
import TxDelivery.Rlp

/-!
# Length prefixes read back

Writing and reading are inverse to each other: what `TxDelivery.Rlp.encode` writes is read back
(`TxDelivery.Rlp.decode?_encode`), and nothing else is read
(`TxDelivery.Rlp.encode_of_decode?`). So **an item has one written form**, and two items never share
their bytes.

## What is written is read back

Both directions rest on the first byte, which tells the kind of an item
(`TxDelivery.Rlp.read?_cons`): below `0x80` a byte stands for itself, and four ranges behind it are
for byte strings and lists with short and long headers. For each range there is a lemma on what is
read behind it, so that the ranges are compared once and never again.

An item is a tree and its reader three functions that call each other, so the law is proved for
items (`TxDelivery.Rlp.read?_encode`) and for rows of items
(`TxDelivery.Rlp.readItems?_encodeItems`) at the same time, by recursion on the item. Two things
have to be said in it to make the recursion go through: what is read back is read back *whatever
follows it*, since the items of a list stand behind each other, and the reader has fuel for three
calls a byte, since a list is read in three nested calls and its header takes a byte.

A header tells lengths of up to eight bytes, which is why only items whose written form is shorter
than `2 ^ 64` bytes are read back.

## Nothing else is read

The other direction is by recursion on the fuel, through the same three functions
(`TxDelivery.Rlp.encode_of_read?`). It holds because the reader refuses the other spellings of the
same item: a header for a byte that could stand for itself, a long header for a short length, and a
length with leading zeros (`TxDelivery.Rlp.of_longLength?`).
-/

namespace TxDelivery

namespace Rlp

variable {item : Rlp} {items : List Rlp} {bytes rest payload : Bytes} {b : UInt8}
  {fuel length short n : Nat}

/-! ### Headers -/

theorem split?_append (bytes rest : Bytes) :
    split? bytes.length (bytes ++ rest) = some (bytes, rest) := by
  simp [split?]

/-- What is split off stood in front. -/
theorem of_split? (h : split? n bytes = some (payload, rest)) :
    bytes = payload ++ rest ∧ payload.length = n := by
  obtain ⟨hle, h⟩ := Option.ite_none_right_eq_some.mp h
  obtain ⟨rfl, rfl⟩ : bytes.take n = payload ∧ bytes.drop n = rest := by simpa using h
  exact ⟨(List.take_append_drop n bytes).symm, by simp [hle]⟩

theorem header_of_le (h : length ≤ 55) : header short length = [UInt8.ofNat (short + length)] :=
  if_pos h

theorem header_of_lt (h : 55 < length) : header short length =
    UInt8.ofNat (short + 55 + (Bytes.minimal length).length) :: Bytes.minimal length :=
  if_neg (Nat.not_le_of_lt h)

/-- A length that needs a long header needs at least one byte, and at most eight. -/
theorem length_minimal_length (h : 55 < length) (hlength : length < 2 ^ 64) :
    1 ≤ (Bytes.minimal length).length ∧ (Bytes.minimal length).length ≤ 8 := by
  refine ⟨?_, Bytes.length_minimal_le (by omega)⟩
  exact List.length_pos_of_ne_nil (Bytes.minimal_ne_nil (by omega))

/-- **The length behind a long header** is read back. -/
theorem longLength?_minimal (h : 55 < length) (rest : Bytes) :
    longLength? (Bytes.minimal length).length (Bytes.minimal length ++ rest) =
      some (length, rest) := by
  have hle : ¬ length ≤ 55 := Nat.not_le_of_lt h
  simp [longLength?, split?_append, Bytes.toNat_minimal, Bytes.head?_minimal, hle]

/-- The length behind a long header is written without leading zeros, and is a long one. -/
theorem of_longLength? (h : longLength? n bytes = some (length, rest)) :
    bytes = Bytes.minimal length ++ rest ∧ (Bytes.minimal length).length = n ∧ 55 < length := by
  unfold longLength? at h
  split at h
  case h_1 => contradiction
  case h_2 ds rest' hsplit =>
    obtain ⟨hcanonical, h⟩ := Option.ite_none_left_eq_some.mp h
    obtain ⟨rfl, rfl⟩ : ds.toNat = length ∧ rest' = rest := by simpa using h
    obtain ⟨hhead, hlong⟩ := not_or.mp hcanonical
    obtain ⟨rfl, hlen⟩ := of_split? hsplit
    rw [Bytes.minimal_toNat hhead]
    exact ⟨rfl, hlen, Nat.lt_of_not_le hlong⟩

/-- A header is at least one byte and at most nine. -/
theorem length_header (short : Nat) (h : length < 2 ^ 64) :
    1 ≤ (header short length).length ∧ (header short length).length ≤ 9 := by
  rcases Nat.lt_or_ge 55 length with hlong | hshort
  · have hsize := length_minimal_length hlong h
    rw [header_of_lt hlong, List.length_cons]
    omega
  · rw [header_of_le hshort]
    simp

/-! ### Written forms -/

theorem encodeString_singleton (b : UInt8) :
    encodeString [b] = if b < 0x80 then [b] else [0x81, b] := rfl

/-- Byte strings other than single bytes have a header. -/
theorem encodeString_of_ne (h : bytes.length ≠ 1) :
    encodeString bytes = header 0x80 bytes.length ++ bytes := by
  unfold encodeString
  split
  case h_1 => simp at h
  case h_2 => rfl

theorem encode_string (bytes : Bytes) : (string bytes).encode = encodeString bytes := by
  rw [encode]

theorem encode_list (items : List Rlp) : (list items).encode =
    header 0xc0 (encodeItems items).length ++ encodeItems items := by
  rw [encode]

theorem encodeItems_nil : encodeItems [] = [] := by rw [encodeItems]

theorem encodeItems_cons (item : Rlp) (items : List Rlp) :
    encodeItems (item :: items) = item.encode ++ encodeItems items := by
  rw [encodeItems]

/-- A written byte string is at most nine bytes longer than the byte string. -/
theorem length_encodeString_le (h : bytes.length < 2 ^ 64) :
    (encodeString bytes).length ≤ bytes.length + 9 := by
  by_cases hone : bytes.length = 1
  · obtain ⟨b, rfl⟩ := List.length_eq_one_iff.mp hone
    rw [encodeString_singleton]
    split <;> simp
  · have hheader := length_header 0x80 h
    rw [encodeString_of_ne hone, List.length_append]
    omega

/-- A written byte string holds the byte string. -/
theorem length_le_encodeString (bytes : Bytes) : bytes.length ≤ (encodeString bytes).length := by
  by_cases hone : bytes.length = 1
  · obtain ⟨b, rfl⟩ := List.length_eq_one_iff.mp hone
    rw [encodeString_singleton]
    split <;> simp
  · rw [encodeString_of_ne hone, List.length_append]
    omega

/-- Every item takes a byte. -/
theorem encode_ne_nil (item : Rlp) : item.encode ≠ [] := by
  have hheader (short length : Nat) : header short length ≠ [] := by
    rw [header]
    split <;> exact List.cons_ne_nil _ _
  cases item with
  | list items =>
    rw [encode_list]
    exact fun h => hheader _ _ (List.append_eq_nil_iff.mp h).1
  | string bytes =>
    rw [encode_string]
    by_cases hone : bytes.length = 1
    · obtain ⟨b, rfl⟩ := List.length_eq_one_iff.mp hone
      rw [encodeString_singleton]
      split <;> exact List.cons_ne_nil _ _
    · rw [encodeString_of_ne hone]
      exact fun h => hheader _ _ (List.append_eq_nil_iff.mp h).1

/-! ### The first byte -/

set_option maxRecDepth 2048 in
/-- **The first byte of an item tells its kind.** -/
theorem read?_cons (fuel : Nat) (b : UInt8) (rest : Bytes) :
    read? (fuel + 1) (b :: rest) =
      if b.toNat < 0x80 then some (string [b], rest)
      else if b.toNat ≤ 0xb7 then
        match split? (b.toNat - 0x80) rest with
        | none => none
        | some ([c], rest) => if c < 0x80 then none else some (string [c], rest)
        | some (bytes, rest) => some (string bytes, rest)
      else if b.toNat ≤ 0xbf then
        match longLength? (b.toNat - 0xb7) rest with
        | none => none
        | some (length, rest) =>
          (split? length rest).map fun (bytes, rest) => (string bytes, rest)
      else if b.toNat ≤ 0xf7 then readList? fuel (b.toNat - 0xc0) rest
      else
        match longLength? (b.toNat - 0xf7) rest with
        | none => none
        | some (length, rest) => readList? fuel length rest := by
  rfl

/-- Without fuel nothing is read. -/
theorem read?_zero (bytes : Bytes) : read? 0 bytes = none := rfl

/-- From no bytes nothing is read. -/
theorem read?_nil (fuel : Nat) : read? fuel [] = none := by
  cases fuel <;> rfl

/-- The first byte of a header is what it was made of. -/
theorem toNat_headerByte (h : n < 256) : (UInt8.ofNat n).toNat = n := by
  rw [Bytes.toNat_lastByte, Nat.mod_eq_of_lt h]

/-- A byte below `0x80` is an item. -/
theorem read?_byte (h : b < 0x80) (fuel : Nat) (rest : Bytes) :
    read? (fuel + 1) (b :: rest) = some (string [b], rest) := by
  have hb : b.toNat < 0x80 := UInt8.lt_iff_toNat_lt.mp h
  rw [read?_cons, if_pos hb]

/-- A byte string with a short header. -/
theorem read?_shortString (h : length ≤ 55) (fuel : Nat) (rest : Bytes) :
    read? (fuel + 1) (UInt8.ofNat (0x80 + length) :: rest) =
      match split? length rest with
      | none => none
      | some ([c], rest) => if c < 0x80 then none else some (string [c], rest)
      | some (bytes, rest) => some (string bytes, rest) := by
  have hsub : 0x80 + length - 0x80 = length := by omega
  rw [read?_cons, toNat_headerByte (by omega), if_neg (by omega), if_pos (by omega), hsub]

/-- A byte string with a long header. -/
theorem read?_longString (hpos : 1 ≤ n) (hsize : n ≤ 8) (fuel : Nat) (rest : Bytes) :
    read? (fuel + 1) (UInt8.ofNat (0x80 + 55 + n) :: rest) =
      match longLength? n rest with
      | none => none
      | some (length, rest) =>
        (split? length rest).map fun (bytes, rest) => (string bytes, rest) := by
  have hsub : 0x80 + 55 + n - 0xb7 = n := by omega
  rw [read?_cons, toNat_headerByte (by omega), if_neg (by omega), if_neg (by omega),
    if_pos (by omega), hsub]

/-- A list with a short header. -/
theorem read?_shortList (h : length ≤ 55) (fuel : Nat) (rest : Bytes) :
    read? (fuel + 1) (UInt8.ofNat (0xc0 + length) :: rest) = readList? fuel length rest := by
  have hsub : 0xc0 + length - 0xc0 = length := by omega
  rw [read?_cons, toNat_headerByte (by omega), if_neg (by omega), if_neg (by omega),
    if_neg (by omega), if_pos (by omega), hsub]

/-- A list with a long header. -/
theorem read?_longList (hpos : 1 ≤ n) (hsize : n ≤ 8) (fuel : Nat) (rest : Bytes) :
    read? (fuel + 1) (UInt8.ofNat (0xc0 + 55 + n) :: rest) =
      match longLength? n rest with
      | none => none
      | some (length, rest) => readList? fuel length rest := by
  have hsub : 0xc0 + 55 + n - 0xf7 = n := by omega
  rw [read?_cons, toNat_headerByte (by omega), if_neg (by omega), if_neg (by omega),
    if_neg (by omega), if_neg (by omega), hsub]

/-! ### Reading back what was written -/

/-- Items are read one after another. -/
theorem readItems?_of_read? (h : read? fuel bytes = some (item, rest)) (hne : bytes ≠ []) :
    readItems? (fuel + 1) bytes = (readItems? fuel rest).map (item :: ·) := by
  cases bytes with
  | nil => exact absurd rfl hne
  | cons b bytes =>
    rw [readItems?, h]
    exact List.cons_ne_nil b bytes

/-- **A byte string is read back**, whatever follows it. -/
theorem read?_encodeString (hlength : bytes.length < 2 ^ 64) (fuel : Nat) (rest : Bytes) :
    read? (fuel + 1) (encodeString bytes ++ rest) = some (string bytes, rest) := by
  by_cases hone : bytes.length = 1
  · obtain ⟨b, rfl⟩ := List.length_eq_one_iff.mp hone
    rw [encodeString_singleton]
    by_cases hb : b < 0x80
    · rw [if_pos hb]
      exact read?_byte hb fuel rest
    · have hread := read?_shortString (show 1 ≤ 55 by omega) fuel (b :: rest)
      have hsplit : split? 1 (b :: rest) = some ([b], rest) := split?_append [b] rest
      rw [hsplit] at hread
      rw [if_neg hb]
      exact hread.trans (if_neg hb)
  · rw [encodeString_of_ne hone]
    rcases Nat.lt_or_ge 55 bytes.length with hlong | hshort
    · obtain ⟨hpos, hsize⟩ := length_minimal_length hlong hlength
      rw [header_of_lt hlong, List.append_assoc, List.cons_append, read?_longString hpos hsize,
        longLength?_minimal hlong]
      simp only [split?_append, Option.map_some]
    · rw [header_of_le hshort, List.append_assoc, List.singleton_append,
        read?_shortString hshort, split?_append]
      split
      case h_1 heq => simp at heq
      case h_2 c rest' heq =>
        obtain ⟨rfl, -⟩ : bytes = [c] ∧ _ := by simpa using heq
        simp at hone
      case h_3 bytes' rest' _ heq =>
        obtain ⟨rfl, rfl⟩ : bytes = bytes' ∧ rest = rest' := by simpa using heq
        rfl

/-- **A list is read back** if its items are. -/
theorem read?_list (hlength : payload.length < 2 ^ 64)
    (hitems : readItems? fuel payload = some items) (rest : Bytes) :
    read? (fuel + 2) (header 0xc0 payload.length ++ payload ++ rest) =
      some (list items, rest) := by
  have hlist : readList? (fuel + 1) payload.length (payload ++ rest) =
      some (list items, rest) := by
    simp [readList?, split?_append, hitems]
  rcases Nat.lt_or_ge 55 payload.length with hlong | hshort
  · obtain ⟨hpos, hsize⟩ := length_minimal_length hlong hlength
    rw [header_of_lt hlong, List.append_assoc, List.cons_append, read?_longList hpos hsize,
      longLength?_minimal hlong]
    exact hlist
  · rw [header_of_le hshort, List.append_assoc, List.singleton_append, read?_shortList hshort,
      hlist]

mutual

/-- **An item is read back**, whatever follows it. -/
theorem read?_encode (item : Rlp) (hlength : item.encode.length < 2 ^ 64) (fuel : Nat)
    (hfuel : 3 * item.encode.length ≤ fuel + 1) (rest : Bytes) :
    read? fuel (item.encode ++ rest) = some (item, rest) := by
  have hpos : 1 ≤ item.encode.length := List.length_pos_of_ne_nil (encode_ne_nil item)
  -- A list is read in three nested calls, and its header is a byte at least.
  obtain ⟨fuel, rfl⟩ : ∃ k, fuel = k + 2 := ⟨fuel - 2, by omega⟩
  match item with
  | .string bytes =>
    rw [encode_string] at hlength ⊢
    exact read?_encodeString (Nat.lt_of_le_of_lt (length_le_encodeString bytes) hlength) _ _
  | .list items =>
    rw [encode_list] at hlength hfuel ⊢
    rw [List.length_append] at hlength hfuel
    have hpayload : (encodeItems items).length < 2 ^ 64 := by omega
    have hheader := length_header 0xc0 hpayload
    exact read?_list hpayload (readItems?_encodeItems items hpayload fuel (by omega)) rest

/-- **Items are read back**, one after another. -/
theorem readItems?_encodeItems (items : List Rlp) (hlength : (encodeItems items).length < 2 ^ 64)
    (fuel : Nat) (hfuel : 3 * (encodeItems items).length ≤ fuel) :
    readItems? fuel (encodeItems items) = some items := by
  match items with
  | [] => rw [encodeItems_nil, readItems?]
  | item :: items =>
    rw [encodeItems_cons] at hlength hfuel ⊢
    rw [List.length_append] at hlength hfuel
    have hpos : 1 ≤ item.encode.length := List.length_pos_of_ne_nil (encode_ne_nil item)
    obtain ⟨fuel, rfl⟩ : ∃ k, fuel = k + 1 := ⟨fuel - 1, by omega⟩
    have hitem := read?_encode item (by omega) fuel (by omega) (encodeItems items)
    have hitems := readItems?_encodeItems items (by omega) fuel (by omega)
    have hne : item.encode ++ encodeItems items ≠ [] :=
      fun hnil => encode_ne_nil item (List.append_eq_nil_iff.mp hnil).1
    rw [readItems?_of_read? hitem hne, hitems, Option.map_some]

end

/-- **What is written is read back.** -/
theorem decode?_encode (hlength : item.encode.length < 2 ^ 64) :
    decode? item.encode = some item := by
  have hread := read?_encode item hlength (4 * item.encode.length + 4) (by omega) []
  rw [List.append_nil] at hread
  rw [decode?, hread]

/-! ### Nothing else is read -/

/-- A first byte is what its header is made of. -/
theorem ofNat_headerByte (h : n = b.toNat) : UInt8.ofNat n = b := by
  rw [h, UInt8.ofNat_toNat]

/-- **A byte string read behind a short header** is written so. A single byte below `0x80` has no
header. -/
theorem encode_of_split? (h : split? n bytes = some (payload, rest)) (hn : n ≤ 55)
    (hbyte : ∀ c, payload = [c] → ¬ c < 0x80) :
    UInt8.ofNat (0x80 + n) :: bytes = (string payload).encode ++ rest := by
  obtain ⟨rfl, rfl⟩ := of_split? h
  rw [encode_string]
  by_cases hone : payload.length = 1
  · obtain ⟨c, rfl⟩ := List.length_eq_one_iff.mp hone
    rw [encodeString_singleton, if_neg (hbyte c rfl)]
    rfl
  · rw [encodeString_of_ne hone, header_of_le hn]
    rfl

/-- **A byte string read behind a long header** is written so. -/
theorem encode_of_longLength? {bytes' : Bytes}
    (hlength : longLength? n bytes = some (length, bytes'))
    (h : split? length bytes' = some (payload, rest)) :
    UInt8.ofNat (0x80 + 55 + n) :: bytes = (string payload).encode ++ rest := by
  obtain ⟨rfl, rfl, hlong⟩ := of_longLength? hlength
  obtain ⟨rfl, rfl⟩ := of_split? h
  rw [encode_string, encodeString_of_ne (by omega), header_of_lt hlong]
  simp

mutual

/-- **What is read as an item** is what the item is written as. -/
theorem encode_of_read? (fuel : Nat) {bytes rest : Bytes} {item : Rlp}
    (h : read? fuel bytes = some (item, rest)) : bytes = item.encode ++ rest := by
  match fuel, bytes with
  | 0, _ => simp [read?_zero] at h
  | _ + 1, [] => simp [read?_nil] at h
  | fuel + 1, b :: bytes =>
    rw [read?_cons] at h
    split at h
    case isTrue hb =>
      -- a single byte
      obtain ⟨rfl, rfl⟩ : string [b] = item ∧ bytes = rest := by simpa using h
      rw [encode_string, encodeString_singleton, if_pos (UInt8.lt_iff_toNat_lt.mpr hb)]
      rfl
    case isFalse hb =>
    split at h
    case isTrue hshort =>
      -- a byte string behind a short header
      have hfirst : UInt8.ofNat (0x80 + (b.toNat - 0x80)) = b := ofNat_headerByte (by omega)
      rw [← hfirst]
      split at h
      case h_1 => exact nomatch h
      case h_2 c rest' hsplit =>
        obtain ⟨hc, h⟩ := Option.ite_none_left_eq_some.mp h
        obtain ⟨rfl, rfl⟩ : string [c] = item ∧ rest' = rest := by simpa using h
        refine encode_of_split? hsplit (by omega) fun c' hc' => ?_
        rwa [← (List.cons.inj hc').1]
      case h_3 payload rest' hne hsplit =>
        obtain ⟨rfl, rfl⟩ : string payload = item ∧ rest' = rest := by simpa using h
        exact encode_of_split? hsplit (by omega) fun c hc => absurd hc (hne c)
    case isFalse hshort =>
    split at h
    case isTrue hlong =>
      -- a byte string behind a long header
      have hfirst : UInt8.ofNat (0x80 + 55 + (b.toNat - 0xb7)) = b := ofNat_headerByte (by omega)
      rw [← hfirst]
      split at h
      case h_1 => exact nomatch h
      case h_2 length bytes' hlength =>
        obtain ⟨⟨payload, rest'⟩, hsplit, h⟩ := Option.map_eq_some_iff.mp h
        obtain ⟨rfl, rfl⟩ : string payload = item ∧ rest' = rest := by simpa using h
        exact encode_of_longLength? hlength hsplit
    case isFalse hlong =>
    split at h
    case isTrue hlist =>
      -- a list behind a short header
      have hfirst : UInt8.ofNat (0xc0 + (b.toNat - 0xc0)) = b := ofNat_headerByte (by omega)
      obtain ⟨items, rfl, hsize, rfl⟩ := encode_of_readList? fuel h
      rw [encode_list, header_of_le (by omega), hsize, hfirst, List.append_assoc,
        List.singleton_append]
    case isFalse hlist =>
      -- a list behind a long header
      have hfirst : UInt8.ofNat (0xc0 + 55 + (b.toNat - 0xf7)) = b := ofNat_headerByte (by omega)
      split at h
      case h_1 => exact nomatch h
      case h_2 length bytes' hlength =>
        obtain ⟨items, rfl, hsize, rfl⟩ := encode_of_readList? fuel h
        obtain ⟨rfl, hdigits, hlong⟩ := of_longLength? hlength
        rw [encode_list, header_of_lt (by omega), hsize, hdigits, hfirst]
        simp

/-- What is read as a list is the items of the list, written one after another. -/
theorem encode_of_readList? (fuel : Nat) {length : Nat} {bytes rest : Bytes} {item : Rlp}
    (h : readList? fuel length bytes = some (item, rest)) :
    ∃ items, item = list items ∧ (encodeItems items).length = length ∧
      bytes = encodeItems items ++ rest := by
  match fuel with
  | 0 => simp [readList?] at h
  | fuel + 1 =>
    rw [readList?] at h
    split at h
    case h_1 => contradiction
    case h_2 payload rest' hsplit =>
      obtain ⟨items, hitems, h⟩ := Option.map_eq_some_iff.mp h
      obtain ⟨rfl, rfl⟩ : list items = item ∧ rest' = rest := by simpa using h
      obtain ⟨rfl, hsize⟩ := of_split? hsplit
      obtain rfl := encode_of_readItems? fuel hitems
      exact ⟨items, rfl, hsize, rfl⟩

/-- What is read as items is the items, written one after another. -/
theorem encode_of_readItems? (fuel : Nat) {bytes : Bytes} {items : List Rlp}
    (h : readItems? fuel bytes = some items) : bytes = encodeItems items := by
  match fuel, bytes with
  | _, [] =>
    obtain rfl : [] = items := by simpa [readItems?] using h
    exact encodeItems_nil.symm
  | 0, _ :: _ => simp [readItems?] at h
  | fuel + 1, b :: bytes =>
    rw [readItems?] at h
    · split at h
      case h_1 => contradiction
      case h_2 item rest hitem =>
        obtain ⟨items', hitems, rfl⟩ := Option.map_eq_some_iff.mp h
        rw [encode_of_read? fuel hitem, encode_of_readItems? fuel hitems, encodeItems_cons]
    · exact List.cons_ne_nil b bytes

end

/-- **Nothing else is read**: a byte string that holds an item is what the item is written as. -/
theorem encode_of_decode? (h : decode? bytes = some item) : bytes = item.encode := by
  unfold decode? at h
  split at h
  case h_2 => contradiction
  case h_1 item' hread =>
    obtain rfl : item' = item := Option.some.inj h
    rw [encode_of_read? _ hread, List.append_nil]

end Rlp

end TxDelivery
