import TxDelivery.Proofs.Numeral
import TxDelivery.Toml.Printer
import TxDelivery.Toml.Text

/-!
# Quoted texts read back

Whatever a text contains, **what `TxDelivery.Toml.quoteChars` writes for it reads as that text**,
and the reader stops right behind the closing delimiter (`TxDelivery.Toml.quoted?_quoteChars`). All
that is asked of what follows is that it does not start with a quote of either kind
(`TxDelivery.Toml.Detached`): a delimiter of three may be followed by two more quotes, which would
count as part of the text.

The four ways of quoting are settled one by one. The two basic ones escape character by character,
so there a step is one character: `TxDelivery.Toml.escape_cons` says what is written for it, in the
vocabulary of `TxDelivery.Toml.Writes`, and the readers take up exactly that. The two literal ones
leave the text as it is, and what has to be shown is that it does not contain the delimiter.

| read back by | what it asks of the text |
|---|---|
| `TxDelivery.Toml.quoted?_asBasic` | nothing |
| `TxDelivery.Toml.quoted?_asLiteral` | no codes, no line end, no single quote |
| `TxDelivery.Toml.quoted?_asBasicLines` | nothing |
| `TxDelivery.Toml.quoted?_asLiteralLines` | no codes, no three single quotes in a row |

What the table asks is what the writer looks at before it chooses (`TxDelivery.Toml.shape`), so the
last step is to go through its choices.

The inductions are on the text. In the two ways over several lines they carry a number more: how
many quotes in a row stand directly in front. A run of quotes is the one thing that cannot be judged
character by character, for the third of three would close the text. So what is shown of an escaped
text holds wherever in a run of at most two the reader starts
(`TxDelivery.Toml.basicLines?_escape`), and of a literal text if no run in it is longer
(`TxDelivery.Toml.longestRun`).
-/

namespace TxDelivery

namespace Toml

/-- **What may follow a quoted text**: anything that does not start with a quote. -/
def Detached (rest : List Char) : Prop := ∀ c ∈ rest.head?, c ≠ '"' ∧ c ≠ '\''

/-! ### Escapes -/

/-- **How a basic text writes a character** other than a quote left as it is. -/
inductive Writes (lines : Bool) (c : Char) : List Char → Prop
  /-- As it is. -/
  | plain (h : isPlain c) (hquote : c ≠ '"') (hslash : c ≠ '\\') : Writes lines c [c]
  /-- As it is, over several lines. -/
  | newline (hlines : lines = true) (h : c = '\n') : Writes lines c [c]
  /-- With a letter behind a backslash. -/
  | letter (e : Char) (h : escaped? e = some c) : Writes lines c ['\\', e]
  /-- With four digits of its code point. -/
  | code (x y z w : Char) (h : scalar? [x, y, z, w] = some c) :
      Writes lines c ['\\', 'u', x, y, z, w]

/-- The code point of a character in four hexadecimal digits is read as that character. -/
theorem scalar?_padded {c : Char} (h : c.toNat < 16 ^ 4) :
    ∃ x y z w, (Numeral.padded 16 4 c.toNat).map Char.toUpper = [x, y, z, w] ∧
      scalar? [x, y, z, w] = some c := by
  have hlength := Numeral.length_padded (Numeral.length_digits_le 3 h)
  have hvalue := Numeral.ofDigits?_padded (show 2 ≤ 16 by omega) (by omega) 4 c.toNat
  generalize hds : (Numeral.padded 16 4 c.toNat).map Char.toUpper = ds at hvalue
  have hfour : ds.length = 4 := by rw [← hds, List.length_map, hlength]
  obtain ⟨x, y, z, w, rfl⟩ : ∃ x y z w, ds = [x, y, z, w] :=
    match ds, hfour with
    | [x, y, z, w], _ => ⟨x, y, z, w, rfl⟩
  refine ⟨x, y, z, w, rfl, ?_⟩
  have hvalid : c.toNat.isValidChar := c.valid
  simp [scalar?, hvalue, hvalid]

/-- Only codes below the space and the one of deletion are written with their digits. -/
theorem toNat_lt_of_needsCode {c : Char} (h : needsCode c) : c.toNat < 16 ^ 4 := by
  simp [needsCode] at h
  omega

/-- Without need of a code a character is plain or a line end. -/
theorem isPlain_or_of_not_needsCode {c : Char} (h : needsCode c = false) :
    isPlain c ∨ c = '\n' := by
  by_cases htab : c = '\t'
  · exact .inl (by simp [isPlain, htab])
  by_cases hnewline : c = '\n'
  · exact .inr hnewline
  refine .inl ?_
  simp [needsCode, isPlain, htab, hnewline] at h ⊢
  omega

/-- **One character of a basic text**: either a quote left as it is, or what `Writes` lists. -/
theorem escape_cons (lines : Bool) (quotes k : Nat) (c : Char) (cs : List Char) :
    (c = '"' ∧ k < quotes ∧
      escape lines quotes k (c :: cs) = '"' :: escape lines quotes (k + 1) cs) ∨
    ∃ ds, Writes lines c ds ∧ escape lines quotes k (c :: cs) = ds ++ escape lines quotes 0 cs := by
  rw [escape]
  split_ifs with hquote hraw hslash htab hnewline hlines hreturn hback hfeed hcode
  · exact .inl ⟨hquote, hraw, rfl⟩
  · exact .inr ⟨_, .letter '"' (by rw [hquote]; rfl), rfl⟩
  · exact .inr ⟨_, .letter '\\' (by rw [hslash]; rfl), rfl⟩
  · exact .inr ⟨_, .letter 't' (by rw [htab]; rfl), rfl⟩
  · exact .inr ⟨_, .newline hlines hnewline, by rw [hnewline]; rfl⟩
  · exact .inr ⟨_, .letter 'n' (by rw [hnewline]; rfl), rfl⟩
  · exact .inr ⟨_, .letter 'r' (by rw [hreturn]; rfl), rfl⟩
  · exact .inr ⟨_, .letter 'b' (by rw [← Char.ofNat_toNat c, hback]; rfl), rfl⟩
  · exact .inr ⟨_, .letter 'f' (by rw [← Char.ofNat_toNat c, hfeed]; rfl), rfl⟩
  · obtain ⟨x, y, z, w, hds, hchar⟩ := scalar?_padded (toNat_lt_of_needsCode hcode)
    exact .inr ⟨_, .code x y z w hchar, by rw [hds]; rfl⟩
  · have hplain := (isPlain_or_of_not_needsCode (by simpa using hcode)).resolve_right hnewline
    exact .inr ⟨_, .plain hplain hquote hslash, rfl⟩

/-- What is written for a character starts neither with a quote nor with half a line end, and with
a line end only for one. -/
theorem Writes.head {lines : Bool} {c : Char} {ds : List Char} (h : Writes lines c ds) :
    ∃ d ds', ds = d :: ds' ∧ d ≠ '"' ∧ d ≠ '\r' ∧ (d = '\n' → c = '\n') := by
  cases h with
  | plain h hquote hslash =>
    exact ⟨c, [], rfl, hquote, by rintro rfl; simp [isPlain] at h, id⟩
  | newline hlines h => exact ⟨c, [], rfl, by simp [h], by simp [h], id⟩
  | letter e h => exact ⟨'\\', _, rfl, by decide, by decide, by simp⟩
  | code x y z w h => exact ⟨'\\', _, rfl, by decide, by decide, by simp⟩

/-- The first character that is written is a quote only for a quote left as it is. -/
theorem exists_cons_of_escape (lines : Bool) {quotes k : Nat} {c : Char} (cs : List Char)
    (h : ¬ (c = '"' ∧ k < quotes)) :
    ∃ x xs, escape lines quotes k (c :: cs) = x :: xs ∧ x ≠ '"' := by
  obtain ⟨hc, hlt, -⟩ | ⟨ds, hds, hescape⟩ := escape_cons lines quotes k c cs
  · exact absurd ⟨hc, hlt⟩ h
  · obtain ⟨d, ds', rfl, hd, -⟩ := hds.head
    exact ⟨d, ds' ++ escape lines quotes 0 cs, hescape, hd⟩

/-- A letter that escapes something announces no digits and is no part of a line end. -/
theorem ne_of_escaped? {c e : Char} (h : escaped? e = some c) :
    e ≠ 'u' ∧ e ≠ 'U' ∧ e ≠ ' ' ∧ e ≠ '\t' ∧ e ≠ '\n' ∧ e ≠ '\r' := by
  refine ⟨?_, ?_, ?_, ?_, ?_, ?_⟩ <;> rintro rfl <;> simp [escaped?] at h

/-! ### Basic texts on one line -/

/-- The reader takes up what was written for a character. -/
theorem basic?_writes {c : Char} {ds : List Char} (h : Writes false c ds) (rest : List Char) :
    basic? (ds ++ rest) = consText c (basic? rest) := by
  cases h with
  | plain h hquote hslash => simp [basic?, h, hslash]
  | newline hlines h => simp at hlines
  | letter e h =>
    obtain ⟨hu, hU, -⟩ := ne_of_escaped? h
    simp [basic?, h, hu, hU]
  | code x y z w h => simp [basic?, h]

/-- An escaped text reads as that text, up to the delimiter. -/
theorem basic?_escape (cs rest : List Char) :
    basic? (escape false 0 0 cs ++ '"' :: rest) = some (cs, rest) := by
  induction cs with
  | nil => simp [escape, basic?]
  | cons c cs ih =>
    obtain ⟨-, hlt, -⟩ | ⟨ds, hds, hescape⟩ := escape_cons false 0 0 c cs
    · exact absurd hlt (Nat.not_lt_zero 0)
    · rw [hescape, List.append_assoc, basic?_writes hds, ih]
      rfl

/-- **A basic text on one line is read back.** -/
theorem quoted?_asBasic (cs : List Char) {rest : List Char} (hrest : Detached rest) :
    quoted? (asBasic cs ++ rest) = some (cs, rest) := by
  have hread := basic?_escape cs rest
  -- the text must not start with three quotes: an empty one is followed by no quote
  have hopen : ∀ r, escape false 0 0 cs ++ '"' :: rest ≠ '"' :: '"' :: r := by
    intro r heq
    cases cs with
    | nil =>
      rw [escape, List.nil_append, List.cons.injEq] at heq
      exact (hrest '"' (by rw [heq.2]; rfl)).1 rfl
    | cons c cs =>
      obtain ⟨x, xs, hx, hne⟩ :=
        exists_cons_of_escape false cs (show ¬ (c = '"' ∧ 0 < 0) by omega)
      rw [hx, List.cons_append, List.cons.injEq] at heq
      exact hne heq.1
  simpa [asBasic, quoted?, hopen] using hread

/-! ### Basic texts over several lines -/

/-- Nothing is left of a text that does not start with the delimiter. -/
theorem closing_of_head?_ne {q : Char} {rest : List Char} (hrest : rest.head? ≠ some q) :
    closing q rest = ([], rest) := by
  match rest, hrest with
  | [], _ => rfl
  | [a], h => simpa [closing] using h
  | a :: b :: _, h =>
    have ha : a ≠ q := by simpa using h
    simp [closing, ha]

/-- One delimiter in front of such a text belongs to what was quoted. -/
theorem closing_one {q : Char} {rest : List Char} (hrest : rest.head? ≠ some q) :
    closing q (q :: rest) = ([q], rest) := by
  match rest, hrest with
  | [], _ => simp [closing]
  | b :: _, h =>
    have hb : b ≠ q := by simpa using h
    simp [closing, hb]

/-- So do two. -/
theorem closing_two (q : Char) (rest : List Char) :
    closing q (q :: q :: rest) = ([q, q], rest) := by
  simp [closing]

/-- The reader takes up what was written for a character. -/
theorem basicLines?_writes {c : Char} {ds : List Char} (h : Writes true c ds)
    (rest : List Char) :
    basicLines? false (ds ++ rest) = consText c (basicLines? false rest) := by
  cases h with
  | plain h hquote hslash =>
    have hreturn : c ≠ '\r' := by rintro rfl; simp [isPlain] at h
    simp [basicLines?, h, hquote, hslash, hreturn]
  | newline hlines h => simp [basicLines?, h]
  | letter e h =>
    obtain ⟨hu, hU, hspace, htab, hnewline, hreturn⟩ := ne_of_escaped? h
    have hjoin : joinsLines (e :: rest) = false := by
      simp [joinsLines, skipSpaces, isSpace, newline?, hspace, htab, hnewline, hreturn]
    simp [basicLines?, h, hu, hU, hjoin]
  | code x y z w h => simp [basicLines?, h]

/-- A quote that is not the first of three stands for itself. -/
theorem basicLines?_quote {rest : List Char} (h : ∀ r, rest ≠ '"' :: '"' :: r) :
    basicLines? false ('"' :: rest) = consText '"' (basicLines? false rest) := by
  simp [basicLines?, isPlain, h]

/-- **An escaped text of several lines reads as that text**, up to the delimiter, wherever in a run
of quotes the reader starts. -/
theorem basicLines?_escape {rest : List Char} (hrest : rest.head? ≠ some '"') (cs : List Char)
    {k : Nat} (hk : k ≤ 2) :
    basicLines? false (escape true 2 k cs ++ (triple '"' ++ rest)) = some (cs, rest) := by
  induction cs generalizing k with
  | nil => simp [escape, triple, basicLines?, closing_of_head?_ne hrest]
  | cons c cs ih =>
    obtain ⟨rfl, hlt, hescape⟩ | ⟨ds, hds, hescape⟩ := escape_cons true 2 k c cs
    swap
    · rw [hescape, List.append_assoc, basicLines?_writes hds, ih (by omega)]
      rfl
    -- A quote left as it is. It belongs to a delimiter only if nothing but quotes follows, and
    -- there are at most two of them before the delimiter proper.
    rw [hescape, List.cons_append]
    match cs, ih (show k + 1 ≤ 2 by omega) with
    | [], _ => simp [escape, triple, basicLines?, closing_one hrest]
    | d :: cs, hread =>
      obtain ⟨rfl, hlt', hescape'⟩ | ⟨ds, hds, hescape'⟩ := escape_cons true 2 (k + 1) d cs
      · obtain rfl : k = 0 := by omega
        match cs with
        | [] => simp [escape, triple, basicLines?, closing_two]
        | e :: cs =>
          obtain ⟨x, xs, hx, hne⟩ :=
            exists_cons_of_escape true cs (show ¬ (e = '"' ∧ 2 < 2) by omega)
          rw [basicLines?_quote, hread]
          · rfl
          · simp [hescape', hx, hne]
      · obtain ⟨x, xs, rfl, hne, -⟩ := hds.head
        rw [basicLines?_quote, hread]
        · rfl
        · simp [hescape', hne]

/-- The line end behind an opening delimiter is dropped where it was put, and where it was not the
text does not start with one. -/
theorem dropNewline_lead_append {cs text : List Char}
    (h : '\n' ∉ cs → ∀ c ∈ text.head?, c ≠ '\n' ∧ c ≠ '\r') :
    dropNewline (lead (shape cs) ++ text) = text := by
  by_cases hnewline : '\n' ∈ cs
  · simp [lead, shape, hnewline, dropNewline, newline?]
  · have hlead : lead (shape cs) = [] := by simp [lead, shape, hnewline]
    rw [hlead, List.nil_append, dropNewline]
    match text, h hnewline with
    | [], _ => rfl
    | c :: _, hhead =>
      obtain ⟨hline, hreturn⟩ := hhead c rfl
      simp [newline?, hline, hreturn]

/-- **A basic text over several lines is read back.** -/
theorem quoted?_asBasicLines (cs : List Char) {rest : List Char} (hrest : Detached rest) :
    quoted? (asBasicLines (shape cs) cs ++ rest) = some (cs, rest) := by
  have hquote : rest.head? ≠ some '"' := fun h => (hrest '"' h).1 rfl
  have hdrop : dropNewline (lead (shape cs) ++ (escape true 2 0 cs ++ (triple '"' ++ rest))) =
      escape true 2 0 cs ++ (triple '"' ++ rest) := by
    refine dropNewline_lead_append fun hnewline d hd => ?_
    cases cs with
    | nil =>
      obtain rfl : '"' = d := by simpa [escape, triple] using hd
      decide
    | cons c cs =>
      obtain ⟨-, -, hescape⟩ | ⟨ds, hds, hescape⟩ := escape_cons true 2 0 c cs
      · obtain rfl : '"' = d := by simpa [hescape] using hd
        decide
      · obtain ⟨x, xs, rfl, -, hreturn, hline⟩ := hds.head
        obtain rfl : x = d := by simpa [hescape] using hd
        exact ⟨fun h => hnewline (by simp [hline h]), hreturn⟩
  have hread := basicLines?_escape hquote cs (Nat.zero_le 2)
  rw [← hdrop] at hread
  simpa [asBasicLines, triple, quoted?] using hread

/-! ### Literal texts -/

/-- A literal text on one line reads as it is, up to the delimiter. -/
theorem literal?_append {cs : List Char} (h : ∀ c ∈ cs, isPlain c ∧ c ≠ '\'')
    (rest : List Char) : literal? (cs ++ '\'' :: rest) = some (cs, rest) := by
  induction cs with
  | nil => simp [literal?]
  | cons c cs ih =>
    obtain ⟨hplain, hquote⟩ := h c (List.mem_cons_self ..)
    have hread := ih fun d hd => h d (List.mem_cons_of_mem c hd)
    simp [literal?, hplain, hread, consText]

/-- A run that started earlier is the longer. -/
theorem longestRun_le_succ (q : Char) (k : Nat) (cs : List Char) :
    longestRun q k cs ≤ longestRun q (k + 1) cs := by
  induction cs generalizing k with
  | nil => exact Nat.le_succ k
  | cons c cs ih =>
    simp only [longestRun]
    split
    · exact ih (k + 1)
    · omega

/-- The runs of a text that goes on are no longer than those of all of it. -/
theorem longestRun_le_cons (q c : Char) (cs : List Char) :
    longestRun q 0 cs ≤ longestRun q 0 (c :: cs) := by
  rw [longestRun]
  split
  · exact longestRun_le_succ q 0 cs
  · exact Nat.le_max_right ..

/-- A run is at least as long as what there was of it before the text. -/
theorem le_longestRun (q : Char) (k : Nat) (cs : List Char) : k ≤ longestRun q k cs := by
  induction cs generalizing k with
  | nil => exact Nat.le_refl k
  | cons c cs ih =>
    rw [longestRun]
    split
    · exact Nat.le_trans (Nat.le_succ k) (ih (k + 1))
    · exact Nat.le_max_left ..

/-- A single quote that is not the first of three stands for itself. -/
theorem literalLines?_quote {rest : List Char} (h : ∀ r, rest ≠ '\'' :: '\'' :: r) :
    literalLines? ('\'' :: rest) = consText '\'' (literalLines? rest) := by
  simp [literalLines?, isPlain, h]

/-- A literal text over several lines reads as it is, up to the delimiter. -/
theorem literalLines?_append {rest : List Char} (hrest : rest.head? ≠ some '\'') {cs : List Char}
    (h : ∀ c ∈ cs, isPlain c ∨ c = '\n') (hrun : longestRun '\'' 0 cs ≤ 2) :
    literalLines? (cs ++ (triple '\'' ++ rest)) = some (cs, rest) := by
  induction cs with
  | nil => simp [triple, literalLines?, closing_of_head?_ne hrest]
  | cons c cs ih =>
    have hread := ih (fun d hd => h d (List.mem_cons_of_mem c hd))
      (Nat.le_trans (longestRun_le_cons '\'' c cs) hrun)
    by_cases hc : c = '\''
    swap
    · have hplain := h c (List.mem_cons_self ..)
      have hreturn : c ≠ '\r' := by rintro rfl; simp [isPlain] at hplain
      simp [literalLines?, hc, hreturn, hplain, hread, consText]
    subst hc
    -- As above: quotes that nothing but quotes follows are counted by the delimiter.
    match cs, hread, hrun with
    | [], _, _ => simp [triple, literalLines?, closing_one hrest]
    | d :: cs, hread, hrun =>
      by_cases hd : d = '\''
      swap
      · rw [List.cons_append, literalLines?_quote (by simp [hd]), hread]
        rfl
      subst hd
      match cs, hread, hrun with
      | [], _, _ => simp [triple, literalLines?, closing_two]
      | e :: cs, hread, hrun =>
        have he : e ≠ '\'' := by
          rintro rfl
          have := le_longestRun '\'' 3 cs
          simp [longestRun] at hrun
          omega
        rw [List.cons_append, literalLines?_quote (by simp [he]), hread]
        rfl

/-- A text whose runs of a character are empty does not contain it. -/
theorem notMem_of_longestRun_eq_zero {q : Char} {cs : List Char} (h : longestRun q 0 cs = 0) :
    q ∉ cs := by
  induction cs with
  | nil => simp
  | cons c cs ih =>
    have hrest := ih (Nat.le_zero.mp (Nat.le_trans (longestRun_le_cons q c cs) (Nat.le_of_eq h)))
    have hne : q ≠ c := by
      rintro rfl
      have := le_longestRun q 1 cs
      simp [longestRun] at h
      omega
    simp [hrest, hne]

/-- Without need of codes all of a text is plain or a line end. -/
theorem isPlain_or_of_codes {cs : List Char} (h : (shape cs).codes = false) :
    ∀ c ∈ cs, isPlain c ∨ c = '\n' := by
  intro c hc
  exact isPlain_or_of_not_needsCode (by simpa using List.any_eq_false.mp h c hc)

/-- **A literal text on one line is read back.** -/
theorem quoted?_asLiteral {cs rest : List Char} (hcodes : (shape cs).codes = false)
    (hsingles : (shape cs).singles = 0) (hnewline : (shape cs).newline = false)
    (hrest : Detached rest) : quoted? (asLiteral cs ++ rest) = some (cs, rest) := by
  have hquote : '\'' ∉ cs := notMem_of_longestRun_eq_zero hsingles
  have hline : '\n' ∉ cs := by simpa [shape] using hnewline
  have hplain : ∀ c ∈ cs, isPlain c ∧ c ≠ '\'' := fun c hc =>
    ⟨(isPlain_or_of_codes hcodes c hc).resolve_right fun h => hline (h ▸ hc),
      fun h => hquote (h ▸ hc)⟩
  have hread := literal?_append hplain rest
  have hopen : ∀ r, cs ++ '\'' :: rest ≠ '\'' :: '\'' :: r := by
    intro r heq
    cases cs with
    | nil =>
      rw [List.nil_append, List.cons.injEq] at heq
      exact (hrest '\'' (by rw [heq.2]; rfl)).2 rfl
    | cons c cs =>
      rw [List.cons_append, List.cons.injEq] at heq
      exact hquote (by simp [heq.1])
  simpa [asLiteral, quoted?, hopen] using hread

/-- **A literal text over several lines is read back.** -/
theorem quoted?_asLiteralLines {cs rest : List Char} (hcodes : (shape cs).codes = false)
    (hsingles : (shape cs).singles ≤ 2) (hrest : Detached rest) :
    quoted? (asLiteralLines (shape cs) cs ++ rest) = some (cs, rest) := by
  have hquote : rest.head? ≠ some '\'' := fun h => (hrest '\'' h).2 rfl
  have hdrop : dropNewline (lead (shape cs) ++ (cs ++ (triple '\'' ++ rest))) =
      cs ++ (triple '\'' ++ rest) := by
    refine dropNewline_lead_append fun hnewline d hd => ?_
    cases cs with
    | nil =>
      obtain rfl : '\'' = d := by simpa [triple] using hd
      decide
    | cons c cs =>
      obtain rfl : c = d := by simpa using hd
      have hplain := isPlain_or_of_codes hcodes c (List.mem_cons_self ..)
      exact ⟨by rintro rfl; simp at hnewline, by rintro rfl; simp [isPlain] at hplain⟩
  have hread := literalLines?_append hquote (isPlain_or_of_codes hcodes) hsingles
  rw [← hdrop] at hread
  simpa [asLiteralLines, triple, quoted?] using hread

/-! ### The quotation that is chosen -/

/-- **Every text is read back from its quotation**, whatever it contains, and the reader stops
behind it. -/
theorem quoted?_quoteChars (cs : List Char) {rest : List Char} (hrest : Detached rest) :
    quoted? (quoteChars cs ++ rest) = some (cs, rest) := by
  rw [quoteChars]
  split_ifs with _ hliteral _ hlines _
  · exact quoted?_asBasic cs hrest
  · simp only [Bool.and_eq_true, Bool.not_eq_true', decide_eq_true_eq] at hliteral
    exact quoted?_asLiteral hliteral.1.1 hliteral.1.2 hliteral.2 hrest
  · exact quoted?_asBasicLines cs hrest
  · simp only [Bool.and_eq_true, Bool.not_eq_true', decide_eq_true_eq] at hlines
    exact quoted?_asLiteralLines hlines.1 hlines.2 hrest
  · exact quoted?_asBasicLines cs hrest
  · exact quoted?_asBasic cs hrest

end Toml

end TxDelivery
