import TxDelivery.Proofs.Toml.Value

/-!
# Written documents read back

A document that is written consists of sections (`TxDelivery.Toml.Section`): a header and, a line
each, the settings under it, with blank lines between the sections. Such a document is read as
**the tables it was written for** (`TxDelivery.Toml.parse?_document`): a section whose header is new
adds its table to what has been read (`TxDelivery.Toml.Reads.ofSection`), with all its settings in
order.

`TxDelivery.Toml.Reads` is the reader's big step, from what has been read and the text that is left
to the whole document. It composes from the back: what a statement leaves is read on
(`TxDelivery.Toml.Reads.step`). This is also what hides the fuel. A statement is never empty, so
more fuel than there are characters left is more than there are statements left, and no lemma behind
that one mentions it.

## What a statement does

There are three kinds of statements in a written document, and for each a lemma that says what has
been read when it is through: a blank line changes nothing, a header opens its table, a setting is
added to the table opened last. The text of the statement and what it edits are kept apart. For the
text, a name is read up to what can no longer belong to it (`TxDelivery.Toml.key?_name`) and a value
is whatever denotes one. For the edit, what has been read is a list of tables with the one opened
last *at its end*, which is why adding to it leaves the others alone
(`TxDelivery.Toml.defineIn?_new`).

The inductions are on the settings of a section (`TxDelivery.Toml.Reads.lines`), with the settings
already there as what is carried along, and on the sections of a document
(`TxDelivery.Toml.reads_document`), with the tables already there. Both need that names differ, for
a name that is there already is refused.
-/

namespace TxDelivery

namespace Toml

/-! ### Names -/

/-- **A name without quotes**, as settings and sections have. -/
def BareName (name : String) : Prop := name.toList ≠ [] ∧ name.toList.all isBare

instance (name : String) : Decidable (BareName name) :=
  inferInstanceAs (Decidable (_ ∧ _))

/-- A character of names is none of the others. -/
theorem ne_of_isBare {c d : Char} (h : isBare c) (hd : isBare d = false) : c ≠ d := by
  rintro rfl
  simp [h] at hd

/-- No character of names is a blank. -/
theorem isSpace_of_isBare {c : Char} (h : isBare c) : isSpace c = false := by
  have hspace := ne_of_isBare h (d := ' ') (by decide)
  have htab := ne_of_isBare h (d := '\t') (by decide)
  simp [isSpace, hspace, htab]

section Name

variable {name : String} (hname : BareName name)

include hname in
/-- A name starts with a character of names. -/
theorem BareName.exists_cons : ∃ c cs, name.toList = c :: cs ∧ isBare c := by
  obtain ⟨c, cs, hcons⟩ := List.exists_cons_of_ne_nil hname.1
  exact ⟨c, cs, hcons, List.all_eq_true.mp hname.2 c (by simp [hcons])⟩

include hname in
/-- No blanks are skipped in front of a name. -/
theorem skipSpaces_name (rest : List Char) :
    skipSpaces (name.toList ++ rest) = name.toList ++ rest := by
  obtain ⟨c, cs, hcons, hbare⟩ := hname.exists_cons
  simp [hcons, skipSpaces, isSpace_of_isBare hbare]

include hname in
/-- **A name is read up to what can no longer belong to it.** -/
theorem key?_name (rest : List Char) (hend : ∀ c ∈ rest.head?, isBare c = false)
    (hdot : ∀ r, skipSpaces rest ≠ '.' :: r) :
    key? (name.toList ++ rest) = some ([name], skipSpaces rest) := by
  have hread : name? (name.toList ++ rest) = some (name, rest) := by
    have htake : (name.toList ++ rest).takeWhile isBare = name.toList := by
      rw [List.takeWhile_append_of_pos (List.all_eq_true.mp hname.2)]
      match rest, hend with
      | [], _ => simp
      | c :: _, hend => simp [hend c rfl]
    have hdrop : (name.toList ++ rest).dropWhile isBare = rest := by
      rw [List.dropWhile_append_of_pos (List.all_eq_true.mp hname.2)]
      match rest, hend with
      | [], _ => rfl
      | c :: _, hend => simp [hend c rfl]
    obtain ⟨c, cs, hcons, hbare⟩ := hname.exists_cons
    have hdouble := ne_of_isBare hbare (d := '"') (by decide)
    have hsingle := ne_of_isBare hbare (d := '\'') (by decide)
    rw [hcons, List.cons_append] at htake hdrop ⊢
    simp [name?, hbare, hdouble, hsingle, htake, hdrop, ← hcons]
  rw [key?, depthLimit, path?, skipSpaces_name hname rest, hread]
  -- by `hdot` no dot follows, so this is the only name
  simp

end Name

/-! ### Statements -/

/-- The end of a line is read. -/
theorem lineEnd?_newline (rest : List Char) : lineEnd? ('\n' :: rest) = some rest := by
  simp [lineEnd?, skipSpaces, isSpace, skipComment, newline?]

/-- **A blank line** changes nothing. -/
theorem statement?_newline (d : Document) (rest : List Char) :
    statement? d ('\n' :: rest) = some (d, rest) := by
  simp [statement?, lineEnd?_newline]

section Statement

variable {name : String} (hname : BareName name) {d : Document} {root : Fields}
include hname

/-- **A header** opens its table. -/
theorem statement?_header (hopen : openTable? [name] d.root = some root) (rest : List Char) :
    statement? d ('[' :: (name.toList ++ ']' :: '\n' :: rest)) = some (⟨root, [name]⟩, rest) := by
  have hkey := key?_name hname (']' :: '\n' :: rest) (by simp [isBare])
    (by simp [skipSpaces, isSpace])
  have hline : headerLine? 1 (name.toList ++ ']' :: '\n' :: rest) = some ([name], rest) := by
    simp [headerLine?, hkey, skipSpaces, isSpace, List.isPrefixOf?, lineEnd?_newline]
  obtain ⟨c, cs, hcons, hbare⟩ := hname.exists_cons
  have hbracket := ne_of_isBare hbare (d := '[') (by decide)
  rw [hcons, List.cons_append] at hline ⊢
  simp [statement?, hbracket, hline, hopen]

/-- **A setting** is defined in the table that was opened last. -/
theorem statement?_line {text : List Char} {v : Toml} (hvalue : Denotes text v)
    (hdefine : defineIn? d.header [name] v d.root = some root) (rest : List Char) :
    statement? d (name.toList ++ " = ".toList ++ text ++ '\n' :: rest) =
      some (⟨root, d.header⟩, rest) := by
  have hkey := key?_name hname (" = ".toList ++ (text ++ '\n' :: rest))
    (by simp [isBare]) (by simp [skipSpaces, isSpace])
  have hread := hvalue.reads rest
  have hskip : skipSpaces (' ' :: (text ++ '\n' :: rest)) = text ++ '\n' :: rest := by
    obtain ⟨x, xs, rfl, hspace⟩ := hvalue.head
    have hblank : isSpace ' ' := rfl
    simp [skipSpaces, hspace, hblank]
  have hblank : lineEnd? (name.toList ++ (" = ".toList ++ (text ++ '\n' :: rest))) = none := by
    rw [lineEnd?, skipSpaces_name hname]
    obtain ⟨c, cs, hcons, hbare⟩ := hname.exists_cons
    have hhash := ne_of_isBare hbare (d := '#') (by decide)
    have hline := ne_of_isBare hbare (d := '\n') (by decide)
    have hreturn := ne_of_isBare hbare (d := '\r') (by decide)
    simp [hcons, skipComment, newline?, hhash, hline, hreturn]
  obtain ⟨c, cs, hcons, hbare⟩ := hname.exists_cons
  have hbracket := ne_of_isBare hbare (d := '[') (by decide)
  have hafter : skipSpaces (" = ".toList ++ (text ++ '\n' :: rest)) =
      '=' :: ' ' :: (text ++ '\n' :: rest) := rfl
  rw [List.append_assoc, List.append_assoc]
  rw [hcons, List.cons_append] at hkey hblank ⊢
  simp only [statement?, List.cons.injEq, hbracket, false_and, IsEmpty.forall_iff, implies_true,
    hblank, hkey, hafter]
  simp [List.isPrefixOf?, hskip, hread, lineEnd?_newline, hdefine]

end Statement

/-! ### What statements edit -/

/-- A name that is not there is added at the end. -/
theorem lookup_append_self {name : String} {root : Fields} (h : root.lookup name = none)
    (v : Toml) : (root ++ [(name, v)]).lookup name = some v := by
  simp [List.lookup_append, h]

/-- Changing the value of a name leaves other names alone. -/
theorem replace_append_self {name : String} {root : Fields} (h : root.lookup name = none)
    (v w : Toml) : replace name w (root ++ [(name, v)]) = root ++ [(name, w)] := by
  have hother : ∀ f ∈ root, (if f.1 == name then (name, w) else f) = f := by
    intro f hf
    have hne : name ≠ f.1 := by simpa using List.lookup_eq_none_iff.mp h f hf
    simp [hne.symm]
  rw [replace, List.map_append, List.map_congr_left hother]
  simp

/-- A header that is new opens an empty table. -/
theorem openTable?_new {name : String} {root : Fields} (h : root.lookup name = none) :
    openTable? [name] root = some (root ++ [(name, .table .header [])]) := by
  simp [openTable?, reach?, h]

/-- A setting that is new is added to the table that was opened last. -/
theorem defineIn?_new {header name : String} {root fields : Fields}
    (hroot : root.lookup header = none) (hfields : fields.lookup name = none) (v : Toml) :
    defineIn? [header] [name] v (root ++ [(header, .table .header fields)]) =
      some (root ++ [(header, .table .header (fields ++ [(name, v)]))]) := by
  simp [defineIn?, reach?, define?, lookup_append_self hroot, replace_append_self hroot, hfields]

/-! ### Sections -/

/-- A setting as it is written: its name, and the text and value of what it is set to. -/
structure Entry where
  /-- The name. -/
  name : String
  /-- What it is set to, as it is written. -/
  text : String
  /-- What it is set to. -/
  value : Toml

/-- The name of a setting with its value. -/
def Entry.field (e : Entry) : String × Toml := (e.name, e.value)

/-- **A section as it is written**: a header and the settings under it. -/
structure Section where
  /-- The header. -/
  header : String
  /-- The settings. -/
  entries : List Entry

namespace Section

/-- The text of a section. -/
def text (s : Section) : String :=
  "[" ++ s.header ++ "]\n" ++ String.join (s.entries.map fun e => line e.name e.text)

/-- The table of a section. -/
def field (s : Section) : String × Toml := (s.header, .table .header (s.entries.map Entry.field))

/-- **What makes a section readable**: names without quotes, each at most once, and values that
denote what they were written for. -/
structure WellFormed (s : Section) : Prop where
  /-- The header needs no quotes. -/
  header : BareName s.header
  /-- Nor do the names of the settings. -/
  names : ∀ e ∈ s.entries, BareName e.name
  /-- Each is there once. -/
  nodup : (s.entries.map Entry.name).Nodup
  /-- The values denote what they were written for. -/
  values : ∀ e ∈ s.entries, Denotes e.text.toList e.value

end Section

/-! ### Documents -/

/-- **Reading on**: from what has been read and the text that is left to the whole document. -/
def Reads (d : Document) (cs : List Char) (e : Document) : Prop :=
  ∀ fuel, cs.length < fuel → statements? fuel d cs = some e

namespace Reads

variable {d d' e : Document}

/-- At the end of the text everything has been read. -/
theorem nil (d : Document) : Reads d [] d := by
  intro fuel hfuel
  obtain ⟨fuel, rfl⟩ := Nat.exists_eq_add_of_lt hfuel
  simp [statements?, skipSpaces]

/-- **A statement is read, and what it leaves is read on.** -/
theorem step {text rest : List Char} (hhead : ∃ c cs, text = c :: cs ∧ isSpace c = false)
    (hstatement : statement? d (text ++ rest) = some (d', rest)) (hrest : Reads d' rest e) :
    Reads d (text ++ rest) e := by
  intro fuel hfuel
  obtain ⟨c, cs, rfl, hspace⟩ := hhead
  obtain ⟨fuel, rfl⟩ := Nat.exists_eq_add_of_lt hfuel
  have hskip : skipSpaces (c :: cs ++ rest) = c :: cs ++ rest := by simp [skipSpaces, hspace]
  rw [List.cons_append] at hskip hstatement ⊢
  rw [statements?, hskip]
  simp only [hstatement]
  exact hrest _ (by simp; omega)

/-- A blank line is read over. -/
theorem newline {rest : List Char} (hrest : Reads d rest e) : Reads d ('\n' :: rest) e :=
  step ⟨'\n', [], rfl, rfl⟩ (statement?_newline d rest) hrest

/-- **The lines of a section** add its settings, in order, to the table opened last. -/
theorem lines {root fields : Fields} {header : String} {entries : List Entry} {rest : List Char}
    (hroot : root.lookup header = none) (hnames : ∀ f ∈ entries, BareName f.name)
    (hvalues : ∀ f ∈ entries, Denotes f.text.toList f.value)
    (hnodup : (entries.map Entry.name).Nodup)
    (hnew : ∀ f ∈ entries, fields.lookup f.name = none)
    (hrest : Reads ⟨root ++ [(header, .table .header (fields ++ entries.map Entry.field))],
      [header]⟩ rest e) :
    Reads ⟨root ++ [(header, .table .header fields)], [header]⟩
      (entries.flatMap (fun f => (line f.name f.text).toList) ++ rest) e := by
  induction entries generalizing fields with
  | nil => simpa using hrest
  | cons f entries ih =>
    have hname := hnames f (List.mem_cons_self ..)
    have hvalue := hvalues f (List.mem_cons_self ..)
    obtain ⟨hfresh, hnodup⟩ := List.nodup_cons.mp hnodup
    have hdefine := defineIn?_new hroot (hnew f (List.mem_cons_self ..)) f.value
    have hread : Reads ⟨root ++ [(header, .table .header (fields ++ [f.field]))], [header]⟩
        (entries.flatMap (fun f => (line f.name f.text).toList) ++ rest) e := ih
      (fun g hg => hnames g (List.mem_cons_of_mem f hg))
      (fun g hg => hvalues g (List.mem_cons_of_mem f hg)) hnodup
      (fun g hg => ?_) (by simpa using hrest)
    · have htext : (line f.name f.text).toList =
          f.name.toList ++ " = ".toList ++ f.text.toList ++ ['\n'] := by simp [line]
      rw [List.flatMap_cons, List.append_assoc, htext]
      refine step ?_ ?_ hread
      · obtain ⟨c, cs, hcons, hbare⟩ := hname.exists_cons
        exact ⟨c, _, by rw [hcons]; rfl, isSpace_of_isBare hbare⟩
      · rw [List.append_assoc]
        exact statement?_line hname hvalue hdefine _
    · have hne : g.name ≠ f.name := by
        rintro heq
        exact hfresh (heq ▸ List.mem_map_of_mem hg)
      simp [List.lookup_append, hnew g (List.mem_cons_of_mem f hg), Entry.field, hne]

/-- **A section** whose header is new adds its table to what has been read. -/
theorem ofSection {root : Fields} {s : Section} (hs : s.WellFormed)
    (hroot : root.lookup s.header = none) {rest : List Char}
    (hrest : Reads ⟨root ++ [s.field], [s.header]⟩ rest e) (opened : List String) :
    Reads ⟨root, opened⟩ (s.text.toList ++ rest) e := by
  have htext : s.text.toList ++ rest = ('[' :: (s.header.toList ++ [']', '\n'])) ++
      (s.entries.flatMap (fun f => (line f.name f.text).toList) ++ rest) := by
    simp [Section.text, String.toList_join, List.flatMap_map]
  have hnew : ∀ f ∈ s.entries, ([] : Fields).lookup f.name = none := fun _ _ => rfl
  rw [htext]
  refine step ⟨'[', _, rfl, rfl⟩ ?_
    (lines hroot hs.names hs.values hs.nodup hnew (by simpa [Section.field] using hrest))
  have hheader := statement?_header hs.header (d := ⟨root, opened⟩) (openTable?_new hroot)
    (s.entries.flatMap (fun f => (line f.name f.text).toList) ++ rest)
  simpa using hheader

end Reads

/-- **Sections with blank lines between them.** -/
def document : List Section → String
  | [] => ""
  | [s] => s.text
  | s :: t :: sections => s.text ++ "\n" ++ document (t :: sections)

/-- The sections of a document are read one after the other, up to a text that adds nothing. -/
theorem reads_document {sections : List Section} (hsections : ∀ s ∈ sections, s.WellFormed)
    (hnodup : (sections.map Section.header).Nodup) {rest : List Char}
    (hrest : ∀ d, Reads d rest d) {root : Fields}
    (hroot : ∀ s ∈ sections, root.lookup s.header = none) (opened : List String) :
    ∃ last, Reads ⟨root, opened⟩ ((document sections).toList ++ rest)
      ⟨root ++ sections.map Section.field, last⟩ := by
  induction sections generalizing root opened with
  | nil => exact ⟨opened, by simpa [document] using hrest ⟨root, opened⟩⟩
  | cons s sections ih =>
    obtain ⟨hfresh, hnodup⟩ := List.nodup_cons.mp hnodup
    have hs := hsections s (List.mem_cons_self ..)
    have hnew := hroot s (List.mem_cons_self ..)
    match sections with
    | [] => exact ⟨[s.header], Reads.ofSection hs hnew (by simpa using hrest _) opened⟩
    | t :: sections =>
      have hothers : ∀ u ∈ t :: sections, (root ++ [s.field]).lookup u.header = none := by
        intro u hu
        have hne : u.header ≠ s.header := by
          intro heq
          exact hfresh (heq ▸ List.mem_map_of_mem hu)
        simp [List.lookup_append, hroot u (List.mem_cons_of_mem s hu), Section.field, hne]
      obtain ⟨last, hlast⟩ := ih (fun u hu => hsections u (List.mem_cons_of_mem s hu)) hnodup
        hothers [s.header]
      refine ⟨last, ?_⟩
      have hread := Reads.ofSection hs hnew (Reads.newline hlast) opened
      simpa [document] using hread

/-- A text that starts with no byte order mark is read from its start. -/
theorem parse?_of_reads {text : String} {d : Document}
    (hmark : ∀ c ∈ text.toList.head?, c.toNat ≠ 0xFEFF) (h : Reads ⟨[], []⟩ text.toList d) :
    parse? text = some d.root := by
  have hread := h _ (Nat.lt_succ_self _)
  rw [parse?]
  match htext : text.toList, hmark with
  | [], _ =>
    rw [htext] at hread
    exact congrArg _ hread
  | c :: cs, hmark =>
    rw [htext] at hread
    simp only [if_neg (hmark c rfl)]
    exact congrArg _ hread

/-- A document starts with a bracket, if with anything. -/
theorem head?_document (sections : List Section) :
    ∀ c ∈ (document sections).toList.head?, c = '[' := by
  match sections with
  | [] => simp [document]
  | [s] => simp [document, Section.text]
  | s :: t :: sections => simp [document, Section.text]

/-- **A document is read as the tables it was written for**, also with a line end behind it. -/
theorem parse?_document {sections : List Section} (hsections : ∀ s ∈ sections, s.WellFormed)
    (hnodup : (sections.map Section.header).Nodup) :
    parse? (document sections) = some (sections.map Section.field) ∧
      parse? (document sections ++ "\n") = some (sections.map Section.field) := by
  have hroot : ∀ s ∈ sections, ([] : Fields).lookup s.header = none := fun _ _ => rfl
  have hhead := head?_document sections
  constructor
  · obtain ⟨last, hread⟩ := reads_document hsections hnodup Reads.nil hroot []
    rw [List.append_nil] at hread
    refine parse?_of_reads ?_ hread
    intro c hc
    rw [hhead c hc]
    decide
  · obtain ⟨last, hread⟩ := reads_document hsections hnodup
      (fun d => Reads.newline (Reads.nil d)) hroot []
    rw [← String.toList_singleton, ← String.toList_append] at hread
    refine parse?_of_reads ?_ hread
    intro c hc
    rw [String.toList_append, List.head?_append, Option.mem_def, Option.or_eq_some_iff] at hc
    obtain h | ⟨-, h⟩ := hc
    · rw [hhead c h]
      decide
    · obtain rfl : '\n' = c := by simpa using h
      decide

end Toml

end TxDelivery
