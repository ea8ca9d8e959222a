import TxDelivery.Json.Printer
import TxDelivery.Json.Reader
import TxDelivery.Proofs.Numeral

/-!
# JSON reads back

What `TxDelivery.Json.compact` writes for a value is read as that value
(`TxDelivery.Json.parseWith?_compact`), wherever halves of surrogate pairs are let through: none are
written. All that is asked of the value is that its numbers are numbers
(`TxDelivery.Json.WellFormed`), since a number is kept as the digits it was written with.

The readers stop behind the part they read, so each is put in front of **an arbitrary rest**, which
it has to leave as it is. How much has to be known of the rest is different from part to part.

* For a text it is nothing (`TxDelivery.Json.textBody?_quoteChars`), since its end is marked and
  whatever could be taken for the mark is escaped. The induction is on the characters of the text,
  and its step is one of them (`TxDelivery.Json.textBody?_escapeChar`).
* The end of a number is not marked: what follows must not continue it
  (`TxDelivery.Json.Detached`), and what is written behind a value never does, be it a comma, a
  closing bracket or the end of the text. A number is read in three parts, and none of the parts can
  be taken for the start of the next (`TxDelivery.Json.number?_text`).
* A list or an object ends with its bracket, and no value starts with one that closes
  (`TxDelivery.Json.exists_compactChars_eq_cons`), so a reader that looks for a first item finds it.

## The induction

Values, items and fields are read by three functions that call each other with ever less fuel. It
goes down by two from a value to one inside of it, whose text is shorter by a bracket at least; so
twice the length of its text is enough for a value, and **one induction on the fuel covers all
three** (`TxDelivery.Json.ReadsBack`, `TxDelivery.Json.readsBack`). An induction on the value would
need three motives and would still have to count the fuel.
-/

namespace TxDelivery

namespace Json

/-! ### Texts -/

/-- Four digits of a code point are read as it. -/
theorem hex4?_padded {n : Nat} (h : n < 16 ^ 4) :
    ∃ a b c d, Numeral.padded 16 4 n = [a, b, c, d] ∧ hex4? a b c d = some n := by
  have hlength := Numeral.length_padded (Numeral.length_digits_le 3 h)
  have hvalue : Numeral.ofDigits? 16 (Numeral.padded 16 4 n) = some n := by
    rw [Numeral.padded, Numeral.ofDigits?_replicate_append (by omega) (by omega),
      Numeral.ofDigits?_digits (by omega) (by omega)]
  generalize Numeral.padded 16 4 n = ds at hlength hvalue
  rcases ds with - | ⟨a, - | ⟨b, - | ⟨c, - | ⟨d, - | ⟨e, ds⟩⟩⟩⟩⟩ <;> simp at hlength
  exact ⟨a, b, c, d, rfl, hvalue⟩

/-- The reader takes up what was written for a character. -/
theorem textBody?_escapeChar (halves : Bool) (c : Char) (rest : List Char) :
    textBody? halves (escapeChar c ++ rest) =
      (textBody? halves rest).map fun (cs, rest) => (c :: cs, rest) := by
  rw [escapeChar]
  split_ifs with hquote hslash hnewline hreturn htab hback hfeed hcode
  · rw [hquote]
    simp [textBody?, escaped?]
  · rw [hslash]
    simp [textBody?, escaped?]
  · rw [hnewline]
    simp [textBody?, escaped?]
  · rw [hreturn]
    simp [textBody?, escaped?]
  · rw [htab]
    simp [textBody?, escaped?]
  · obtain rfl : c = Char.ofNat 8 := by rw [← hback, Char.ofNat_toNat]
    simp [textBody?, escaped?]
  · obtain rfl : c = Char.ofNat 12 := by rw [← hfeed, Char.ofNat_toNat]
    simp [textBody?, escaped?]
  · -- A code below the space is no half of a surrogate pair.
    obtain ⟨x, y, z, w, hds, hvalue⟩ := hex4?_padded (show c.toNat < 16 ^ 4 by omega)
    have hpair : ¬ (0xD800 ≤ c.toNat) := by omega
    have hlow : ¬ (0xDC00 ≤ c.toNat) := by omega
    simp [hds, textBody?, hvalue, hpair, hlow, Char.ofNat_toNat]
  · rw [List.singleton_append, textBody?.eq_def]
    simp [hslash, hcode]

/-- **A text is read back**, up to its closing quote. -/
theorem textBody?_quoteChars (halves : Bool) (cs rest : List Char) :
    textBody? halves (cs.flatMap escapeChar ++ '"' :: rest) = some (cs, rest) := by
  induction cs with
  | nil => simp [textBody?]
  | cons c cs ih =>
    rw [List.flatMap_cons, List.append_assoc, textBody?_escapeChar, ih, Option.map_some]

/-! ### Numbers -/

/-- A nonempty run of digits. -/
structure IsRun (ds : List Char) : Prop where
  /-- There is a digit. -/
  ne_nil : ds ≠ []
  /-- There are digits only. -/
  isDigit : ∀ c ∈ ds, c.isDigit = true

/-- A run starts with a digit. -/
theorem IsRun.exists_cons {ds : List Char} (h : IsRun ds) :
    ∃ c cs, ds = c :: cs ∧ c.isDigit = true := by
  obtain ⟨c, cs, rfl⟩ := List.exists_cons_of_ne_nil h.ne_nil
  exact ⟨c, cs, rfl, h.isDigit c (by simp)⟩

/-- A digit is no other character. -/
theorem ne_of_isDigit {c d : Char} (hc : c.isDigit = true) (hd : d.isDigit = false) : c ≠ d := by
  rintro rfl
  simp [hc] at hd

/-- **A number as the grammar has it.** -/
structure Number.WellFormed (n : Number) : Prop where
  /-- There are digits in front of the point. -/
  whole : IsRun n.whole
  /-- A zero in front of the point stands alone. -/
  zero : ∀ ds, n.whole = '0' :: ds → ds = []
  /-- There are digits behind the point. -/
  fraction : ∀ ds ∈ n.fraction, IsRun ds
  /-- There are digits behind the mark of the exponent. -/
  exponent : ∀ e ∈ n.exponent, IsRun e.2

/-- **What may follow a number**: anything that does not continue it. -/
def Detached (rest : List Char) : Prop :=
  ∀ c ∈ rest.head?, c.isDigit = false ∧ c ≠ '.' ∧ c ≠ 'e' ∧ c ≠ 'E'

theorem detached_nil : Detached [] := by simp [Detached]

theorem detached_of_mem {c : Char} (h : c ∈ [',', ']', '\x7d']) (rest : List Char) :
    Detached (c :: rest) := by
  simp only [List.mem_cons, List.not_mem_nil, or_false] at h
  rcases h with rfl | rfl | rfl <;> simp [Detached]

/-- The digits end where something else follows. -/
theorem spanDigits_append {ds rest : List Char} (hds : ∀ c ∈ ds, c.isDigit = true)
    (hrest : ∀ c ∈ rest.head?, c.isDigit = false) : spanDigits (ds ++ rest) = (ds, rest) := by
  rw [spanDigits, List.takeWhile_append_of_pos hds, List.dropWhile_append_of_pos hds]
  cases rest with
  | nil => simp
  | cons c rest =>
    have hc := hrest c rfl
    simp [hc]

/-- The digits in front of the point are read back. -/
theorem wholePart?_append {ds rest : List Char} (hds : IsRun ds)
    (hzero : ∀ ds', ds = '0' :: ds' → ds' = [])
    (hrest : ∀ c ∈ rest.head?, c.isDigit = false) : wholePart? (ds ++ rest) = some (ds, rest) := by
  have hspan := spanDigits_append hds.isDigit hrest
  obtain ⟨c, ds, rfl, -⟩ := hds.exists_cons
  by_cases hc : c = '0'
  · subst hc
    obtain rfl := hzero ds rfl
    cases rest with
    | nil => rfl
    | cons d rest => simp [wholePart?, hrest d rfl]
  · rw [List.cons_append] at hspan ⊢
    simp [wholePart?, hc, hspan]

/-- A point and the digits behind it, if there are any. -/
def fractionChars : Option (List Char) → List Char
  | none => []
  | some ds => '.' :: ds

/-- The mark of an exponent, its sign and its digits, if there is one. -/
def exponentChars : Option (Bool × List Char) → List Char
  | none => []
  | some (negative, ds) => 'e' :: ((if negative then ['-'] else []) ++ ds)

theorem Number.text_eq (n : Number) : n.text = (if n.negative then ['-'] else []) ++
    (n.whole ++ (fractionChars n.fraction ++ exponentChars n.exponent)) := by
  obtain ⟨negative, whole, fraction | _, exponent | _⟩ := n <;>
    simp [Number.text, fractionChars, exponentChars]

/-- Behind the digits in front of the point there is no further digit. -/
theorem head?_fractionChars (fraction : Option (List Char)) {rest : List Char}
    (hrest : ∀ c ∈ rest.head?, c.isDigit = false) :
    ∀ c ∈ (fractionChars fraction ++ rest).head?, c.isDigit = false := by
  cases fraction with
  | none => exact hrest
  | some ds => simp [fractionChars]

/-- An exponent starts with a mark that continues no digits. -/
theorem head?_exponentChars (exponent : Option (Bool × List Char)) {rest : List Char}
    (hrest : Detached rest) :
    ∀ c ∈ (exponentChars exponent ++ rest).head?, c.isDigit = false ∧ c ≠ '.' := by
  cases exponent with
  | none => exact fun c hc => ⟨(hrest c hc).1, (hrest c hc).2.1⟩
  | some e => simp [exponentChars]

/-- The fraction is read back. -/
theorem fractionPart?_append {fraction : Option (List Char)} {rest : List Char}
    (h : ∀ ds ∈ fraction, IsRun ds)
    (hrest : ∀ c ∈ rest.head?, c.isDigit = false ∧ c ≠ '.') :
    fractionPart? (fractionChars fraction ++ rest) = some (fraction, rest) := by
  cases fraction with
  | none =>
    cases rest with
    | nil => rfl
    | cons c rest => simp [fractionChars, fractionPart?, (hrest c rfl).2]
  | some ds =>
    have hspan := spanDigits_append (h ds rfl).isDigit fun c hc => (hrest c hc).1
    obtain ⟨c, ds, rfl, -⟩ := (h ds rfl).exists_cons
    rw [List.cons_append] at hspan
    simp [fractionChars, fractionPart?, hspan]

/-- The digits of an exponent are read back. -/
theorem exponentDigits?_append (negative : Bool) {ds rest : List Char} (hds : IsRun ds)
    (hrest : Detached rest) :
    exponentDigits? negative (ds ++ rest) = some (some (negative, ds), rest) := by
  have hspan := spanDigits_append hds.isDigit fun c hc => (hrest c hc).1
  obtain ⟨c, ds, rfl, -⟩ := hds.exists_cons
  rw [exponentDigits?, hspan]

/-- The exponent is read back. -/
theorem exponentPart?_append {exponent : Option (Bool × List Char)} {rest : List Char}
    (h : ∀ e ∈ exponent, IsRun e.2) (hrest : Detached rest) :
    exponentPart? (exponentChars exponent ++ rest) = some (exponent, rest) := by
  rcases exponent with - | ⟨negative, ds⟩
  · cases rest with
    | nil => rfl
    | cons c rest => simp [exponentChars, exponentPart?, (hrest c rfl).2.2]
  · have hread := exponentDigits?_append negative (h _ rfl) hrest
    cases negative with
    | true => simpa [exponentChars, exponentPart?] using hread
    | false =>
      -- The digits do not start with a sign.
      obtain ⟨c, ds, rfl, hdigit⟩ := (h _ rfl).exists_cons
      have hminus : c ≠ '-' := ne_of_isDigit hdigit (by decide)
      have hplus : c ≠ '+' := ne_of_isDigit hdigit (by decide)
      simpa [exponentChars, exponentPart?, hminus, hplus] using hread

/-- **A number is read back**, up to what does not continue it. -/
theorem number?_text {n : Number} (hn : n.WellFormed) {rest : List Char} (hrest : Detached rest) :
    number? (n.text ++ rest) = some (n, rest) := by
  have hexponent := head?_exponentChars n.exponent hrest
  have hfraction := head?_fractionChars n.fraction fun c hc => (hexponent c hc).1
  have hread : unsigned? n.negative
      (n.whole ++ (fractionChars n.fraction ++ (exponentChars n.exponent ++ rest))) =
      some (n, rest) := by
    simp [unsigned?, wholePart?_append hn.whole hn.zero hfraction,
      fractionPart?_append hn.fraction hexponent, exponentPart?_append hn.exponent hrest]
  rw [n.text_eq]
  cases hneg : n.negative with
  | true => simpa [number?, hneg] using hread
  | false =>
    obtain ⟨c, ds, hwhole, hdigit⟩ := hn.whole.exists_cons
    have hminus : c ≠ '-' := ne_of_isDigit hdigit (by decide)
    simpa [number?, hneg, hwhole, hminus] using hread

/-! ### Values -/

mutual

/-- **A value whose numbers are numbers.** -/
def WellFormed : Json → Prop
  | .number n => n.WellFormed
  | .array items => WellFormedItems items
  | .object fields => WellFormedFields fields
  | .null | .bool _ | .string _ => True

/-- Items whose numbers are numbers. -/
def WellFormedItems : List Json → Prop
  | [] => True
  | v :: rest => v.WellFormed ∧ WellFormedItems rest

/-- Fields whose numbers are numbers. -/
def WellFormedFields : List (String × Json) → Prop
  | [] => True
  | (_, v) :: rest => v.WellFormed ∧ WellFormedFields rest

end

/-- The text of a number starts with a sign or a digit. -/
theorem exists_text_eq_cons {n : Number} (hn : n.WellFormed) :
    ∃ c cs, n.text = c :: cs ∧ (c = '-' ∨ c.isDigit = true) := by
  obtain ⟨c, ds, hwhole, hdigit⟩ := hn.whole.exists_cons
  rw [n.text_eq, hwhole]
  cases n.negative with
  | true => exact ⟨_, _, rfl, .inl rfl⟩
  | false => exact ⟨_, _, rfl, .inr hdigit⟩

/-- **What a value starts with**: no blank, and no bracket that would close a list of values. -/
theorem exists_compactChars_eq_cons {v : Json} (hv : v.WellFormed) :
    ∃ c cs, compactChars v = c :: cs ∧ isBlank c = false ∧ c ≠ ']' := by
  cases v with
  | null => exact ⟨'n', _, rfl, by decide, by decide⟩
  | bool b => cases b <;> exact ⟨_, _, rfl, by decide, by decide⟩
  | string s => exact ⟨'"', _, by rw [compactChars, quoteChars], by decide, by decide⟩
  | array items => exact ⟨'[', _, by rw [compactChars], by decide, by decide⟩
  | object fields => exact ⟨'\x7b', _, by rw [compactChars], by decide, by decide⟩
  | number n =>
    obtain ⟨c, cs, htext, hc⟩ := exists_text_eq_cons (n := n) (by simpa [WellFormed] using hv)
    refine ⟨c, cs, by rw [compactChars, htext], ?_, ?_⟩
    · rcases hc with rfl | hc
      · decide
      · by_contra hblank
        simp only [isBlank, Bool.not_eq_false, Bool.or_eq_true, decide_eq_true_eq] at hblank
        rcases hblank with ((rfl | rfl) | rfl) | rfl <;> simp at hc
    · rintro rfl
      simp at hc

theorem compactItems_cons_cons (v w : Json) (vs : List Json) :
    compactItems (v :: w :: vs) = compactChars v ++ ',' :: compactItems (w :: vs) := by
  rw [compactItems]
  exact nofun

theorem compactFields_cons_cons (k : String) (v : Json) (f : String × Json)
    (fs : List (String × Json)) : compactFields ((k, v) :: f :: fs) =
      quoteChars k.toList ++ ':' :: (compactChars v ++ ',' :: compactFields (f :: fs)) := by
  rw [compactFields]
  exact nofun

/-- Items start with what the first of them starts with. -/
theorem exists_compactItems_eq_cons {v : Json} (hv : v.WellFormed) (vs : List Json) :
    ∃ c cs, compactItems (v :: vs) = c :: cs ∧ isBlank c = false ∧ c ≠ ']' := by
  obtain ⟨c, cs, htext, hc⟩ := exists_compactChars_eq_cons hv
  cases vs with
  | nil => exact ⟨c, cs, by rw [compactItems, htext], hc⟩
  | cons w vs => exact ⟨c, _, by rw [compactItems_cons_cons, htext, List.cons_append], hc⟩

/-- Fields start with a quote. -/
theorem exists_compactFields_eq_cons (k : String) (v : Json) (fs : List (String × Json)) :
    ∃ cs, compactFields ((k, v) :: fs) = '"' :: cs := by
  cases fs with
  | nil => exact ⟨_, by rw [compactFields, quoteChars, List.cons_append]⟩
  | cons f fs => exact ⟨_, by rw [compactFields_cons_cons, quoteChars, List.cons_append]⟩

/-- Nothing is skipped in front of what does not start with a blank. -/
theorem skipBlanks_cons {c : Char} (h : isBlank c = false) (cs : List Char) :
    skipBlanks (c :: cs) = c :: cs := by
  simp [skipBlanks, h]

/-- Nothing is skipped in front of a mark. -/
theorem skipBlanks_mark {c : Char} (h : c ∈ ['"', '[', ']', '\x7b', '\x7d', ':', ','])
    (cs : List Char) : skipBlanks (c :: cs) = c :: cs := by
  simp only [List.mem_cons, List.not_mem_nil, or_false] at h
  rcases h with rfl | rfl | rfl | rfl | rfl | rfl | rfl <;> exact skipBlanks_cons (by decide) cs

/-- What starts as a number does is read as one. -/
theorem readValue?_number (halves : Halves) (fuel : Nat) {c : Char} (cs : List Char)
    (hc : c = '-' ∨ c.isDigit = true) :
    readValue? halves (fuel + 1) (c :: cs) =
      (number? (c :: cs)).map fun (n, rest) => (.number n, rest) := by
  have hne (d : Char) (hd : d ≠ '-' ∧ d.isDigit = false) : c ≠ d := by
    rintro rfl
    simp [hd] at hc
  have hblank : isBlank c = false := by
    simp [isBlank, hne ' ' (by decide), hne '\n' (by decide), hne '\t' (by decide),
      hne '\r' (by decide)]
  rw [readValue?, skipBlanks_cons hblank]
  simp [hne '"' (by decide), hne '[' (by decide), hne '\x7b' (by decide), hne 'n' (by decide),
    hne 't' (by decide), hne 'f' (by decide)]

/-- **What is read back with a given fuel**: values up to what does not continue a number, items and
fields up to their closing brackets. -/
structure ReadsBack (fuel : Nat) : Prop where
  /-- A value, if its text is at most half as long. -/
  value : ∀ (halves : Halves) {v : Json}, v.WellFormed → 2 * (compactChars v).length ≤ fuel →
    ∀ {rest : List Char}, Detached rest →
      readValue? halves fuel (compactChars v ++ rest) = some (v, rest)
  /-- Items, if their text is shorter than that. -/
  items : ∀ (halves : Halves) {v : Json} {vs : List Json}, WellFormedItems (v :: vs) →
    2 * (compactItems (v :: vs)).length < fuel → ∀ rest : List Char,
      readItems? halves fuel (compactItems (v :: vs) ++ ']' :: rest) = some (v :: vs, rest)
  /-- Fields likewise. -/
  fields : ∀ (halves : Halves) {k : String} {v : Json} {fs : List (String × Json)},
    WellFormedFields ((k, v) :: fs) →
    2 * (compactFields ((k, v) :: fs)).length < fuel → ∀ rest : List Char,
      readFields? halves fuel (compactFields ((k, v) :: fs) ++ '\x7d' :: rest) =
        some ((k, v) :: fs, rest)

namespace ReadsBack

variable {fuel : Nat}

/-- With no fuel nothing has to be read. -/
theorem zero : ReadsBack 0 where
  value _ v hv hfuel := by
    obtain ⟨c, cs, htext, -⟩ := exists_compactChars_eq_cons hv
    simp [htext] at hfuel
  items _ _ _ _ hfuel := absurd hfuel (Nat.not_lt_zero _)
  fields _ _ _ _ _ hfuel := absurd hfuel (Nat.not_lt_zero _)

/-- A value takes up one of the fuel, and its items or fields have the others. -/
theorem value_succ (h : ReadsBack fuel) (halves : Halves) {v : Json} (hv : v.WellFormed)
    (hfuel : 2 * (compactChars v).length ≤ fuel + 1) {rest : List Char} (hrest : Detached rest) :
    readValue? halves (fuel + 1) (compactChars v ++ rest) = some (v, rest) := by
  cases v with
  | null => simp [compactChars, readValue?, skipBlanks, isBlank, List.isPrefixOf?]
  | bool b => cases b <;> simp [compactChars, readValue?, skipBlanks, isBlank, List.isPrefixOf?]
  | string s =>
    simp [compactChars, quoteChars, readValue?, skipBlanks, isBlank, textBody?_quoteChars]
  | number n =>
    have hn : n.WellFormed := by simpa [WellFormed] using hv
    obtain ⟨c, cs, htext, hc⟩ := exists_text_eq_cons hn
    have hread := number?_text hn hrest
    rw [htext, List.cons_append] at hread
    rw [compactChars, htext, List.cons_append, readValue?_number halves fuel _ hc, hread]
    rfl
  | array vs =>
    rcases vs with - | ⟨v, vs⟩
    · simp [compactChars, compactItems, readValue?, skipBlanks, isBlank]
    · have hvs : WellFormedItems (v :: vs) := by simpa [WellFormed] using hv
      have hread := h.items halves hvs
        (by simp only [compactChars, List.length_cons, List.length_append] at hfuel; omega) rest
      obtain ⟨c, cs, htext, hblank, hclose⟩ := exists_compactItems_eq_cons hvs.1 vs
      rw [htext, List.cons_append] at hread
      simp [compactChars, htext, readValue?, hread, hclose, skipBlanks_cons hblank,
        skipBlanks_mark]
  | object fs =>
    rcases fs with - | ⟨⟨k, v⟩, fs⟩
    · simp [compactChars, compactFields, readValue?, skipBlanks, isBlank]
    · have hread := h.fields halves (by simpa [WellFormed] using hv)
        (by simp only [compactChars, List.length_cons, List.length_append] at hfuel; omega) rest
      obtain ⟨cs, htext⟩ := exists_compactFields_eq_cons k v fs
      rw [htext, List.cons_append] at hread
      simp [compactChars, htext, readValue?, hread, skipBlanks_mark]

/-- The first of some items takes up one of the fuel, and so does the comma behind it. -/
theorem items_succ (h : ReadsBack fuel) (halves : Halves) {v : Json} {vs : List Json}
    (hv : WellFormedItems (v :: vs)) (hfuel : 2 * (compactItems (v :: vs)).length < fuel + 1)
    (rest : List Char) :
    readItems? halves (fuel + 1) (compactItems (v :: vs) ++ ']' :: rest) =
      some (v :: vs, rest) := by
  rcases vs with - | ⟨w, vs⟩
  · rw [compactItems] at hfuel
    have hread := h.value halves.below hv.1 (by omega) (detached_of_mem (c := ']') (by simp) rest)
    simp [compactItems, readItems?, hread, skipBlanks_mark]
  · rw [compactItems_cons_cons, List.length_append, List.length_cons] at hfuel
    have hread := h.value halves.below hv.1 (by omega) (detached_of_mem (c := ',') (by simp)
      (compactItems (w :: vs) ++ ']' :: rest))
    have hmore := h.items halves hv.2 (by omega) rest
    simp [compactItems_cons_cons, readItems?, hread, hmore, skipBlanks_mark]

/-- The first of some fields takes up one of the fuel, and so does the comma behind it. -/
theorem fields_succ (h : ReadsBack fuel) (halves : Halves) {k : String} {v : Json}
    {fs : List (String × Json)} (hv : WellFormedFields ((k, v) :: fs))
    (hfuel : 2 * (compactFields ((k, v) :: fs)).length < fuel + 1) (rest : List Char) :
    readFields? halves (fuel + 1) (compactFields ((k, v) :: fs) ++ '\x7d' :: rest) =
      some ((k, v) :: fs, rest) := by
  rcases fs with - | ⟨⟨l, w⟩, fs⟩
  · rw [compactFields, List.length_append, List.length_cons] at hfuel
    have hread := h.value halves.below hv.1 (by omega)
      (detached_of_mem (c := '\x7d') (by simp) rest)
    simp [compactFields, quoteChars, readFields?, textBody?_quoteChars, hread,
      skipBlanks_mark]
  · rw [compactFields_cons_cons, List.length_append, List.length_cons, List.length_append,
      List.length_cons] at hfuel
    have hread := h.value halves.below hv.1 (by omega) (detached_of_mem (c := ',') (by simp)
      (compactFields ((l, w) :: fs) ++ '\x7d' :: rest))
    have hmore := h.fields halves hv.2 (by omega) rest
    simp [compactFields_cons_cons, quoteChars, readFields?, textBody?_quoteChars, hread, hmore,
      skipBlanks_mark]

end ReadsBack

/-- **Any fuel reads back** as much as it should. -/
theorem readsBack (fuel : Nat) : ReadsBack fuel := by
  induction fuel with
  | zero => exact .zero
  | succ fuel ih => exact ⟨ih.value_succ, ih.items_succ, ih.fields_succ⟩

/-- **JSON reads back**: a value whose numbers are numbers is what its text without blanks
denotes. -/
theorem parseWith?_compact (halves : Halves) {v : Json} (hv : v.WellFormed) :
    parseWith? halves v.compact = some v := by
  have hread := (readsBack (2 * (compactChars v).length + 1)).value halves hv (by omega)
    detached_nil
  rw [List.append_nil] at hread
  simp [parseWith?, compact, hread, skipBlanks]

/-- The numeral of a natural number is one. -/
theorem wellFormed_nat (n : Nat) : (nat n).WellFormed := by
  obtain ⟨c, cs, hdigits, -, hzero⟩ := Numeral.exists_cons_digits n
  rw [nat, WellFormed]
  refine ⟨⟨Numeral.digits_ne_nil n, fun c hc => (Numeral.isDigit_of_mem_digits hc).1⟩, ?_,
    nofun, nofun⟩
  rintro ds hds
  obtain ⟨rfl, rfl⟩ := List.cons.inj (hdigits.symm.trans hds)
  exact hzero rfl

/-- **A natural number is read back.** -/
theorem natural?_nat (n : Nat) : (nat n).natural? = some n := by
  simp [nat, natural?, Number.ofNat, Number.natural?, Numeral.ofDecimal?,
    Numeral.digits_ne_nil, Numeral.ofDigits?_digits]

end Json

end TxDelivery
