import TxDelivery.Proofs.Toml.Quoted
import TxDelivery.Toml.Reader

/-!
# Written values read back

The values of settings are texts, lists of texts, natural numbers and truth values, each the last of
its line. `TxDelivery.Toml.Denotes` says of a written value **what a document needs to know of it,
and no more**: it does not start with a blank, and in front of a line end it is read as the value it
stands for. Every value that is written denotes what it was written for: texts
(`TxDelivery.Toml.denotes_quote`), lists of texts (`TxDelivery.Toml.denotes_list`), truth values
(`TxDelivery.Toml.denotes_flagText`), and numbers if they fit into sixty-three bits
(`TxDelivery.Toml.denotes_integerText?`).

## Numbers

A number is tried as a date, a time, a fraction and a special number before it is read as an
integer, so what has to be shown is mostly what a numeral is *not*. All the others want a character
that is no digit behind their first digits, which a numeral in front of a line end does not have.
Each of them is refused for that reason, and the reason is said once
(`TxDelivery.Toml.isPrefixOf?_append`): digits in front of a line end do not start with a mark. For
a date it has to survive the parts of fixed width in front of the mark, which leave fewer digits in
front of the same line end (`TxDelivery.Toml.exists_of_fixed?`).

## Lists

A list of several texts has one item a line, each with a comma behind it, the last one too. Its
reader is met in front of an item, and what follows the item decides between two ways to go on: a
bracket ends the list, a comma leads to the items behind it. Both are in one lemma
(`TxDelivery.Toml.readItems?_quoteChars`), and the list is read by an induction on its items with
the text that is left for a motive (`TxDelivery.Toml.itemLines`). The reader's fuel is counted in
items there; it has been given more than the text has characters, so it is enough.
-/

namespace TxDelivery

namespace Toml

/-- **A written value**: it starts with no blank, and in front of a line end it is read as `v`. -/
structure Denotes (text : List Char) (v : Toml) : Prop where
  /-- It starts with no blank. -/
  head : ∃ c cs, text = c :: cs ∧ isSpace c = false
  /-- In front of a line end it is read as the value. -/
  reads : ∀ rest, value? (text ++ '\n' :: rest) = some (v, '\n' :: rest)

/-! ### Runs of digits -/

section Digits

variable {ds : List Char} (hdigits : ∀ c ∈ ds, c.isDigit)

/-- A run of digits ends at the line end. -/
theorem digitRun_append {p : Char → Bool} (hds : ∀ c ∈ ds, p c) (hend : p '\n' = false)
    (hunderscore : p '_' = false) (rest : List Char) :
    digitRun p (ds ++ '\n' :: rest) = (ds, '\n' :: rest) := by
  induction ds with
  | nil => simp [digitRun.eq_def, hend]
  | cons c ds ih =>
    have hread := ih fun d hd => hds d (List.mem_cons_of_mem c hd)
    have hgap : ∀ d r, ds ++ '\n' :: rest ≠ '_' :: d :: r := by
      intro d r heq
      cases ds with
      | nil => simp at heq
      | cons e ds =>
        have he : p e := hds e (by simp)
        rw [List.cons_append, List.cons.injEq] at heq
        simp [heq.1, hunderscore] at he
    rw [List.cons_append, digitRun.eq_3 _ _ _ hgap]
    simp [hds c (List.mem_cons_self ..), hread]

include hdigits in
/-- A part of fixed width leaves digits in front of the line end. -/
theorem exists_of_fixed? {width low high n : Nat} {cs rest : List Char}
    (h : fixed? width low high (ds ++ '\n' :: rest) = some (n, cs)) :
    ∃ ds', (∀ c ∈ ds', c.isDigit) ∧ cs = ds' ++ '\n' :: rest := by
  rw [fixed?] at h
  split_ifs at h with hall
  · split at h
    · split_ifs at h with hbounds
      obtain ⟨-, rfl⟩ : _ ∧ _ := by simpa using h
      -- the line end is no digit, so all of the part lies in front of it
      have hwidth : width ≤ ds.length := by
        by_contra hlt
        obtain ⟨k, hk⟩ : ∃ k, width - ds.length = k + 1 := ⟨width - ds.length - 1, by omega⟩
        have hmem : '\n' ∈ (ds ++ '\n' :: rest).take width := by
          simp [List.take_append, hk]
        simp only [Bool.and_eq_true, List.all_eq_true] at hall
        exact absurd (hall.2 _ hmem) (by decide)
      exact ⟨ds.drop width, fun c hc => hdigits c (List.mem_of_mem_drop hc),
        List.drop_append_of_le_length hwidth⟩
    · simp at h

include hdigits in
/-- Digits in front of a line end do not start with a mark. -/
theorem isPrefixOf?_append {mark : Char} (hmark : mark.isDigit = false) (hend : mark ≠ '\n')
    (rest : List Char) : [mark].isPrefixOf? (ds ++ '\n' :: rest) = none := by
  cases ds with
  | nil => simp [List.isPrefixOf?, hend]
  | cons c ds =>
    have hc : mark ≠ c := by
      rintro rfl
      simp [hdigits mark (List.mem_cons_self ..)] at hmark
    simp [List.isPrefixOf?, hc]

include hdigits in
/-- Digits in front of a line end are no date. -/
theorem datetime?_append (rest : List Char) : datetime? (ds ++ '\n' :: rest) = none := by
  have hdate : date? (ds ++ '\n' :: rest) = none := by
    cases hyear : fixed? 4 0 9999 (ds ++ '\n' :: rest) with
    | none => simp [date?, hyear]
    | some r =>
      obtain ⟨ds', hds', hr⟩ := exists_of_fixed? hdigits hyear
      simp [date?, hyear, hr, isPrefixOf?_append hds']
  have htime : time? (ds ++ '\n' :: rest) = none := by
    cases hhour : fixed? 2 0 23 (ds ++ '\n' :: rest) with
    | none => simp [time?, hhour]
    | some r =>
      obtain ⟨ds', hds', hr⟩ := exists_of_fixed? hdigits hhour
      simp [time?, hhour, hr, isPrefixOf?_append hds']
  simp [datetime?, hdate, htime]

end Digits

/-! ### Numbers -/

/-- A character that starts a number starts no other value. -/
theorem readValue?_digit {c : Char} (h : c.isDigit) (fuel depth : Nat) (rest : List Char) :
    readValue? (fuel + 1) depth (c :: rest) = numeric? (c :: rest) := by
  have hne : ∀ d : Char, d.isDigit = false → c ≠ d := by
    rintro d hd rfl
    simp [h] at hd
  simp [readValue?, h, hne '[' (by decide), hne '\x7b' (by decide), hne '"' (by decide),
    hne '\'' (by decide), hne 't' (by decide), hne 'f' (by decide), hne 'i' (by decide),
    hne 'n' (by decide)]

section Decimal

variable (n : Nat) (rest : List Char)

/-- A numeral is a run of digits without a leading zero. -/
theorem decimalRun?_digits :
    decimalRun? (Numeral.digits 10 n ++ '\n' :: rest) =
      some (Numeral.digits 10 n, '\n' :: rest) := by
  have hread : digitRun (fun c => (Numeral.digitOf? 10 c).isSome)
      (Numeral.digits 10 n ++ '\n' :: rest) = (Numeral.digits 10 n, '\n' :: rest) :=
    digitRun_append (fun c hc => (Numeral.isDigit_of_mem_digits hc).2) (by decide) (by decide) rest
  obtain ⟨c, cs, hcons, -, hzero⟩ := Numeral.exists_cons_digits n
  rw [hcons] at hread ⊢
  by_cases hc : c = '0'
  · simp [hzero hc, hc, decimalRun?]
  · rw [List.cons_append] at hread ⊢
    simp [decimalRun?, hc, run?, hread]

/-- A numeral has no sign. -/
theorem sign_digits : sign (Numeral.digits 10 n ++ '\n' :: rest) =
    (false, Numeral.digits 10 n ++ '\n' :: rest) := by
  obtain ⟨c, cs, hcons, hdigit, -⟩ := Numeral.exists_cons_digits n
  have hplus : c ≠ '+' := by rintro rfl; simp at hdigit
  have hminus : c ≠ '-' := by rintro rfl; simp at hdigit
  simp [hcons, sign, hplus, hminus]

/-- A numeral has neither a point nor an exponent. -/
theorem fractional?_digits : fractional? (Numeral.digits 10 n ++ '\n' :: rest) = none := by
  simp [fractional?, sign_digits, decimalRun?_digits, exponent?]

/-- A numeral is no special number. -/
theorem special?_digits : special? (Numeral.digits 10 n ++ '\n' :: rest) = none := by
  obtain ⟨c, cs, hcons, hdigit, -⟩ := Numeral.exists_cons_digits n
  have hi : 'i' ≠ c := by rintro rfl; simp at hdigit
  have hn : 'n' ≠ c := by rintro rfl; simp at hdigit
  rw [special?, sign_digits, hcons]
  simp [List.isPrefixOf?, hi, hn]

/-- **A numeral is the integer it stands for**, if that fits into sixty-four bits with a sign. -/
theorem integer?_digits (h : n < 2 ^ 63) : integer? (Numeral.digits 10 n ++ '\n' :: rest) =
    some (.integer n, '\n' :: rest) := by
  have hint : int64? 10 false (Numeral.digits 10 n) = some (n : Int) := by
    rw [int64?, Numeral.ofDigits?_digits (by omega) (by omega)]
    exact if_pos h
  have hsign := sign_digits n rest
  have hrun := decimalRun?_digits n rest
  obtain ⟨c, cs, hcons, -, hzero⟩ := Numeral.exists_cons_digits n
  rw [hcons, List.cons_append] at hsign hrun ⊢
  rw [hcons] at hint
  -- no marker of another base: behind a leading zero there is the line end
  by_cases hc : c = '0'
  · rw [hzero hc, hc, List.nil_append] at hsign hrun
    rw [hzero hc, hc] at hint
    rw [hzero hc, hc, List.nil_append]
    simp [integer?, sign, hrun, hint]
  · simp [integer?, hc, hsign, hrun, hint]

/-- A number is written so that it denotes itself. -/
theorem denotes_digits (h : n < 2 ^ 63) : Denotes (Numeral.digits 10 n) (.integer n) := by
  obtain ⟨c, cs, hcons, hdigit, -⟩ := Numeral.exists_cons_digits n
  refine ⟨⟨c, cs, hcons, ?_⟩, fun rest => ?_⟩
  · have hspace : c ≠ ' ' := by rintro rfl; simp at hdigit
    have htab : c ≠ '\t' := by rintro rfl; simp at hdigit
    simp [isSpace, hspace, htab]
  · have hdate := datetime?_append (fun c hc => (Numeral.isDigit_of_mem_digits (n := n) hc).1) rest
    have hread : numeric? (Numeral.digits 10 n ++ '\n' :: rest) =
        some (.integer n, '\n' :: rest) := by
      rw [numeric?, hdate, fractional?_digits, special?_digits, integer?_digits n rest h]
      rfl
    rw [hcons, List.cons_append] at hread ⊢
    rw [value?, readValue?_digit hdigit, hread]

end Decimal

/-- **A number that is written denotes itself.** -/
theorem denotes_integerText? {n : UInt64} {text : String} (h : integerText? n = some text) :
    Denotes text.toList (.integer n.toNat) := by
  rw [integerText?] at h
  split_ifs at h with hn
  obtain rfl : Numeral.decimal n.toNat = text := by simpa using h
  simpa [Numeral.decimal] using denotes_digits n.toNat hn

/-! ### Truth values and texts -/

/-- A truth value is written so that it denotes itself. -/
theorem denotes_flagText (b : Bool) : Denotes (flagText b).toList (.boolean b) := by
  cases b with
  | false => exact ⟨⟨'f', "alse".toList, rfl, rfl⟩, fun rest => by rfl⟩
  | true => exact ⟨⟨'t', "rue".toList, rfl, rfl⟩, fun rest => by rfl⟩

/-- A text in quotes starts with a quote. -/
theorem exists_cons_quoteChars (cs : List Char) :
    ∃ q r, quoteChars cs = q :: r ∧ (q = '"' ∨ q = '\'') := by
  rw [quoteChars]
  split_ifs <;> exact ⟨_, _, rfl, by simp⟩

/-- A text in quotes is read as a value, at any depth and whatever detached text follows. -/
theorem readValue?_quoteChars (fuel depth : Nat) (cs : List Char) {rest : List Char}
    (hrest : Detached rest) : readValue? (fuel + 1) depth (quoteChars cs ++ rest) =
      some (.string (String.ofList cs), rest) := by
  have hread := quoted?_quoteChars cs hrest
  obtain ⟨q, r, hcons, hq⟩ := exists_cons_quoteChars cs
  rw [hcons, List.cons_append] at hread ⊢
  obtain rfl | rfl := hq <;> simp [readValue?, hread]

/-- A text is written so that it denotes itself. -/
theorem denotes_quote (s : String) : Denotes (quote s).toList (.string s) := by
  obtain ⟨q, r, hcons, hq⟩ := exists_cons_quoteChars s.toList
  refine ⟨⟨q, r, by simpa [quote] using hcons, by obtain rfl | rfl := hq <;> rfl⟩, fun rest => ?_⟩
  have hrest : Detached ('\n' :: rest) := by simp [Detached]
  simpa [value?, quote] using readValue?_quoteChars _ 0 s.toList hrest

/-! ### Lists of texts -/

/-- Blanks and line ends in front of an item are skipped, up to the first visible character. -/
theorem skipLayout_visible {c : Char} (hspace : isSpace c = false)
    (hc : c ≠ '#' ∧ c ≠ '\n' ∧ c ≠ '\r') (cs : List Char) : skipLayout (c :: cs) = c :: cs := by
  simp [skipLayout, skipLines, skipSpaces, hspace, hc, newline?]

/-- A line end is skipped, and the blanks that indent the next line with it. -/
theorem skipLayout_newline {c : Char} (hspace : isSpace c = false)
    (hc : c ≠ '#' ∧ c ≠ '\n' ∧ c ≠ '\r') (blanks : Nat) (cs : List Char) :
    skipLayout ('\n' :: (List.replicate blanks ' ' ++ c :: cs)) = c :: cs := by
  have hblanks : skipSpaces (List.replicate blanks ' ' ++ c :: cs) = c :: cs := by
    rw [skipSpaces, List.dropWhile_append_of_pos (by simp [isSpace])]
    simp [hspace]
  have hline : skipSpaces ('\n' :: (List.replicate blanks ' ' ++ c :: cs)) =
      '\n' :: (List.replicate blanks ' ' ++ c :: cs) := by
    simp [skipSpaces, isSpace]
  simp [skipLayout, skipLines, hline, hblanks, hc, newline?]

section Items

variable (depth : Nat)

/-- **One item of a list.** It is the last one in front of the bracket, and in front of a comma the
items behind that follow it. -/
theorem readItems?_quoteChars {s : String} {cs rest : List Char}
    (hskip : skipLayout cs = quoteChars s.toList ++ rest) (hrest : Detached rest) (fuel : Nat) :
    (∀ {r}, skipLayout rest = ']' :: r →
      readItems? (fuel + 2) depth cs = some ([.string s], r)) ∧
    ∀ {r vs r'}, skipLayout rest = ',' :: r → readItems? (fuel + 1) depth r = some (vs, r') →
      readItems? (fuel + 2) depth cs = some (.string s :: vs, r') := by
  have hread := readValue?_quoteChars fuel depth s.toList hrest
  obtain ⟨q, r, hcons, hq⟩ := exists_cons_quoteChars s.toList
  have hne : q ≠ ']' := by obtain rfl | rfl := hq <;> decide
  rw [hcons, List.cons_append] at hskip hread
  rw [readItems?, hskip]
  constructor
  · intro r hlast
    simp [hne, hread, hlast]
  · intro r vs r' hnext hitems
    simp [hne, hread, hnext, hitems]

/-- The only item of a list is read. -/
theorem readItems?_single (s : String) (fuel : Nat) (rest : List Char) :
    readItems? (fuel + 2) depth (quoteChars s.toList ++ ']' :: rest) =
      some ([.string s], rest) := by
  have hskip : skipLayout (quoteChars s.toList ++ ']' :: rest) =
      quoteChars s.toList ++ ']' :: rest := by
    obtain ⟨q, r, hcons, hq⟩ := exists_cons_quoteChars s.toList
    rw [hcons]
    obtain rfl | rfl := hq <;> exact skipLayout_visible rfl (by decide) _
  exact (readItems?_quoteChars depth hskip (by simp [Detached]) fuel).1
    (skipLayout_visible rfl (by decide) rest)

/-- What stands behind the opening bracket, or behind a comma, of a list with one item a line. -/
def itemLines : List String → List Char
  | [] => ['\n', ']']
  | s :: items => '\n' :: (List.replicate 4 ' ' ++ (quoteChars s.toList ++ ',' :: itemLines items))

/-- The items of a list with one item a line are read one after the other. -/
theorem readItems?_itemLines (items : List String) {fuel : Nat} (hfuel : items.length < fuel)
    (rest : List Char) :
    readItems? fuel depth (itemLines items ++ rest) = some (items.map .string, rest) := by
  induction items generalizing fuel with
  | nil =>
    obtain ⟨fuel, rfl⟩ := Nat.exists_eq_add_of_lt hfuel
    have hskip := skipLayout_newline (c := ']') rfl (by decide) 0 rest
    simp only [List.replicate_zero, List.nil_append] at hskip
    simp [itemLines, readItems?, hskip]
  | cons s items ih =>
    obtain ⟨fuel, rfl⟩ : ∃ k, fuel = k + 2 := ⟨fuel - 2, by simp at hfuel; omega⟩
    have hskip : skipLayout (itemLines (s :: items) ++ rest) =
        quoteChars s.toList ++ ',' :: (itemLines items ++ rest) := by
      obtain ⟨q, r, hcons, hq⟩ := exists_cons_quoteChars s.toList
      rw [itemLines, hcons]
      simp only [List.cons_append, List.append_assoc]
      obtain rfl | rfl := hq <;> exact skipLayout_newline rfl (by decide) 4 _
    have hitems := ih (show items.length < fuel + 1 by simpa using hfuel)
    exact (readItems?_quoteChars depth hskip (by simp [Detached]) fuel).2
      (skipLayout_visible rfl (by decide) (itemLines items ++ rest)) hitems

end Items

/-- From two items on a list has one item a line. -/
theorem toList_list_quote (s t : String) (items : List String) :
    (list ((s :: t :: items).map quote)).toList = '[' :: itemLines (s :: t :: items) := by
  have hlines : ∀ items : List String, itemLines items = '\n' ::
      ((items.map quote).flatMap (fun item => ("    " ++ item ++ ",\n").toList) ++ [']']) := by
    intro items
    induction items with
    | nil => rfl
    | cons s items ih => simp [itemLines, ih, quote]
  rw [hlines]
  simp [list, String.toList_join, List.flatMap_map]

/-- There are at least as many characters as items. -/
theorem length_lt_itemLines (items : List String) : items.length < (itemLines items).length := by
  induction items with
  | nil => decide
  | cons s items ih =>
    simp only [itemLines, List.length_cons, List.length_append]
    omega

/-- A list is read behind its bracket. -/
theorem value?_bracket {cs : List Char} {items : List Toml} {rest : List Char}
    (h : readItems? (2 * (cs.length + 1)) 1 cs = some (items, rest)) :
    value? ('[' :: cs) = some (.array items, rest) := by
  simp [value?, readValue?, depthLimit, h]

/-- **A list of texts is written so that it denotes itself**, however many items it has. -/
theorem denotes_list (items : List String) :
    Denotes (list (items.map quote)).toList (.array (items.map .string)) := by
  match items with
  | [] => exact ⟨⟨'[', _, rfl, rfl⟩, fun rest => by rfl⟩
  | [s] =>
    have htext : (list ([s].map quote)).toList = '[' :: (quoteChars s.toList ++ [']']) := by
      simp [list, quote]
    refine ⟨⟨'[', _, htext, rfl⟩, fun rest => ?_⟩
    rw [htext, List.cons_append, List.append_assoc]
    exact value?_bracket (readItems?_single 1 s _ ('\n' :: rest))
  | s :: t :: items =>
    have htext := toList_list_quote s t items
    refine ⟨⟨'[', _, htext, rfl⟩, fun rest => ?_⟩
    rw [htext, List.cons_append]
    refine value?_bracket (readItems?_itemLines 1 (s :: t :: items) ?_ ('\n' :: rest))
    have := length_lt_itemLines (s :: t :: items)
    rw [List.length_append]
    omega

end Toml

end TxDelivery
