import TxDelivery.CommandLine.Run
import TxDelivery.Proofs.Toml.Document

/-!
# Configurations read back

A configuration is written as a document of three sections (`TxDelivery.Config.sections`), and it is
written exactly if its numbers fit into sixty-four bits with a sign
(`TxDelivery.Config.toToml?_eq_some`): TOML has no others, while a setting may use all sixty-four
bits. **What is written denotes the configuration again, whatever its texts contain**
(`TxDelivery.Config.ofToml?_document`), so a configuration without offences is accepted from the
text that shows it (`TxDelivery.Config.parse_checkConfig`).

Between a configuration and its text there are three forms, and each step from one to the next has
its law:

* *settings as they are written*, a name with a text and the value the text stands for
  (`TxDelivery.ChainConfig.written` and its like). That a text stands for its value is the law of
  written values, and needs the bound on numbers (`TxDelivery.Config.wellFormed_sections`);
* *a document*, which is read as the tables of its sections, by the law of written documents;
* *tables*, off which the three sections are read by name, and in each of them the settings
  (`TxDelivery.Config.ofDatum?_sections`).

So nothing in this file looks at a character. What is particular to configurations is in the three
lists of settings, and a setting more is an entry more in one of them.

Whether a configuration is acceptable plays no part in reading it back; it only decides whether the
reader accepts what it has read (`TxDelivery.Config.parse_of_ofToml?`). Nor does the line end behind
a printed document: blank lines add nothing, and the printed and the written text are read as the
same.
-/

namespace TxDelivery

/-! ### Written settings -/

namespace Toml.Entry

/-- A number as it is written. -/
def ofWord (name : String) (n : UInt64) : Entry :=
  ⟨name, Numeral.decimal n.toNat, .integer n.toNat⟩

/-- A text as it is written. -/
def ofText (name s : String) : Entry := ⟨name, quote s, .string s⟩

/-- A list of texts as it is written. -/
def ofTexts (name : String) (items : List String) : Entry :=
  ⟨name, list (items.map quote), .array (items.map .string)⟩

/-- A truth value as it is written. -/
def ofFlag (name : String) (b : Bool) : Entry := ⟨name, flagText b, .boolean b⟩

end Toml.Entry

open Toml (Section Entry BareName)

/-- The chain section as it is written. -/
def ChainConfig.written (c : ChainConfig) : Section :=
  ⟨"chain", [.ofText "rpc_url" c.rpcUrl, .ofTexts "failover_urls" c.failoverUrls,
    .ofWord "chain_id" c.chainId, .ofWord "rpc_timeout_secs" c.rpcTimeoutSecs]⟩

/-- The delivery section as it is written. -/
def DeliveryConfig.written (c : DeliveryConfig) : Section :=
  ⟨"txmanager", [.ofWord "period_secs" c.periodSecs,
    .ofWord "change_interval_secs" c.changeIntervalSecs,
    .ofWord "listen_interval_secs" c.listenIntervalSecs,
    .ofWord "confirm_height" c.confirmHeight, .ofWord "price_bump_percent" c.priceBumpPercent]⟩

/-- The section for operators as it is written. -/
def ObservabilityConfig.written (c : ObservabilityConfig) : Section :=
  ⟨"observability", [.ofText "log_level" c.logLevel, .ofFlag "json_logs" c.jsonLogs,
    .ofFlag "metrics_enabled" c.metricsEnabled, .ofText "metrics_address" c.metricsAddress]⟩

namespace Config

/-- The sections of a configuration as they are written. -/
def sections (c : Config) : List Section :=
  [c.chain.written, c.delivery.written, c.observability.written]

/-- **All numbers of a configuration.** -/
def integers (c : Config) : List UInt64 :=
  [c.chain.chainId, c.chain.rpcTimeoutSecs, c.delivery.periodSecs, c.delivery.changeIntervalSecs,
    c.delivery.listenIntervalSecs, c.delivery.confirmHeight, c.delivery.priceBumpPercent]

/-- Whether all numbers of a configuration fit into sixty-four bits with a sign. -/
def Writable (c : Config) : Prop := ∀ n ∈ c.integers, n.toNat < 2 ^ 63

/-- A number is written if it fits. -/
theorem integerText?_eq_some {n : UInt64} {text : String} :
    Toml.integerText? n = some text ↔ n.toNat < 2 ^ 63 ∧ text = Numeral.decimal n.toNat := by
  rw [Toml.integerText?]
  by_cases h : n.toNat < Nat.pow 2 63
  · rw [if_pos h, Option.some.injEq, eq_comm]
    exact (and_iff_right h).symm
  · rw [if_neg h]
    exact iff_of_false (Option.some_ne_none text).symm fun hn => h hn.1

/-- What is written of the chain section. -/
theorem chainText?_eq_some {c : ChainConfig} {text : String} :
    chainText? c = some text ↔
      (c.chainId.toNat < 2 ^ 63 ∧ c.rpcTimeoutSecs.toNat < 2 ^ 63) ∧ text = c.written.text := by
  simp [chainText?, Option.bind_eq_some_iff, integerText?_eq_some, ChainConfig.written,
    Section.text, Entry.ofText, Entry.ofTexts, Entry.ofWord, String.join_cons,
    String.append_assoc, and_assoc, @eq_comm _ text]

/-- What is written of the delivery section. -/
theorem deliveryText?_eq_some {c : DeliveryConfig} {text : String} :
    deliveryText? c = some text ↔
      (c.periodSecs.toNat < 2 ^ 63 ∧ c.changeIntervalSecs.toNat < 2 ^ 63 ∧
        c.listenIntervalSecs.toNat < 2 ^ 63 ∧ c.confirmHeight.toNat < 2 ^ 63 ∧
        c.priceBumpPercent.toNat < 2 ^ 63) ∧ text = c.written.text := by
  simp [deliveryText?, Option.bind_eq_some_iff, integerText?_eq_some, DeliveryConfig.written,
    Section.text, Entry.ofWord, String.join_cons, String.append_assoc, and_assoc, @eq_comm _ text]

/-- What is written of the section for operators. -/
theorem observabilityText_eq (c : ObservabilityConfig) :
    observabilityText c = c.written.text := by
  unfold observabilityText
  simp [ObservabilityConfig.written, Section.text, Entry.ofText, Entry.ofFlag, String.join_cons,
    String.append_assoc]

/-- **What is written of a configuration**, and when anything is. -/
theorem toToml?_eq_some {c : Config} {text : String} :
    c.toToml? = some text ↔ c.Writable ∧ text = Toml.document c.sections := by
  simp [toToml?, Option.bind_eq_some_iff, chainText?_eq_some, deliveryText?_eq_some,
    observabilityText_eq, Toml.document, sections, Writable, integers, String.append_assoc,
    and_assoc, @eq_comm _ text]

/-! ### Reading it back -/

/-- **What is written can be read.** -/
theorem wellFormed_sections {c : Config} (h : c.Writable) : ∀ s ∈ c.sections, s.WellFormed := by
  have hword : ∀ n ∈ c.integers, Toml.Denotes (Numeral.decimal n.toNat).toList
      (.integer n.toNat) := fun n hn =>
    Toml.denotes_integerText? (integerText?_eq_some.mpr ⟨h n hn, rfl⟩)
  simp only [integers, List.forall_mem_cons] at hword
  obtain ⟨hchain, htimeout, hperiod, hchange, hlisten, hheight, hbump, -⟩ := hword
  have hnames : ∀ s ∈ c.sections, BareName s.header ∧ (∀ e ∈ s.entries, BareName e.name) ∧
      (s.entries.map Entry.name).Nodup := by
    simp only [sections, ChainConfig.written, DeliveryConfig.written, ObservabilityConfig.written,
      List.forall_mem_cons, Entry.ofText, Entry.ofTexts, Entry.ofWord, Entry.ofFlag, List.map_cons]
    decide +kernel
  have hvalues : ∀ s ∈ c.sections, ∀ e ∈ s.entries, Toml.Denotes e.text.toList e.value := by
    simp only [sections, ChainConfig.written, DeliveryConfig.written, ObservabilityConfig.written,
      List.forall_mem_cons, Entry.ofText, Entry.ofTexts, Entry.ofWord, Entry.ofFlag]
    simp [hchain, htimeout, hperiod, hchange, hlisten, hheight, hbump, Toml.denotes_quote,
      Toml.denotes_list, Toml.denotes_flagText]
  intro s hs
  obtain ⟨hheader, hentries, hnodup⟩ := hnames s hs
  exact ⟨hheader, hentries, hnodup, hvalues s hs⟩

/-- Sections have a header each. -/
theorem nodup_headers (c : Config) : (c.sections.map Section.header).Nodup := by
  simp [sections, ChainConfig.written, DeliveryConfig.written, ObservabilityConfig.written]

/-- A list of texts is read off its data. -/
theorem texts?_ofTomlItems (items : List String) :
    (Datum.list (Datum.ofTomlItems (items.map .string))).texts? = some items := by
  rw [Datum.texts?]
  induction items with
  | nil => rfl
  | cons s items ih => simp [Datum.ofTomlItems, Datum.ofToml, Datum.text?, ih]

/-- A number is read off its datum. -/
theorem word?_natural (n : UInt64) : (Datum.natural n.toNat).word? = some n := by
  simp [Datum.word?, UInt64.toNat_lt_size]

/-- The chain section is read off its table. -/
theorem chainOfDatum?_written (c : ChainConfig) :
    ChainConfig.ofDatum? true (.ofToml c.written.field.2) = some c := by
  simp [ChainConfig.ofDatum?, ChainConfig.written, Section.field, Entry.field, Entry.ofText,
    Entry.ofTexts, Entry.ofWord, Datum.ofToml, Datum.ofTomlFields, Datum.parts?, Datum.orDefault,
    List.lookup_cons, Datum.text?, texts?_ofTomlItems, word?_natural]

/-- The delivery section is read off its table. -/
theorem deliveryOfDatum?_written (c : DeliveryConfig) :
    DeliveryConfig.ofDatum? true (.ofToml c.written.field.2) = some c := by
  simp [DeliveryConfig.ofDatum?, DeliveryConfig.written, Section.field, Entry.field, Entry.ofWord,
    Datum.ofToml, Datum.ofTomlFields, Datum.parts?, Datum.orDefault, List.lookup_cons,
    word?_natural]

/-- The section for operators is read off its table. -/
theorem observabilityOfDatum?_written (c : ObservabilityConfig) :
    ObservabilityConfig.ofDatum? true (.ofToml c.written.field.2) = some c := by
  simp [ObservabilityConfig.ofDatum?, ObservabilityConfig.written, Section.field, Entry.field,
    Entry.ofText, Entry.ofFlag, Datum.ofToml, Datum.ofTomlFields, Datum.parts?, Datum.orDefault,
    List.lookup_cons, Datum.text?, Datum.flag?]

/-- **The tables of a configuration denote it.** -/
theorem ofDatum?_sections (c : Config) :
    ofDatum? true (.table (Datum.ofTomlFields (c.sections.map Section.field))) = some c := by
  have hchain := chainOfDatum?_written c.chain
  have hdelivery := deliveryOfDatum?_written c.delivery
  have hobservability := observabilityOfDatum?_written c.observability
  have htables : Datum.ofTomlFields (c.sections.map Section.field) =
      [("chain", .ofToml c.chain.written.field.2),
        ("txmanager", .ofToml c.delivery.written.field.2),
        ("observability", .ofToml c.observability.written.field.2)] := rfl
  simp [ofDatum?, htables, Datum.parts?, Datum.orDefault, List.lookup_cons, hchain, hdelivery,
    hobservability]

/-- **What is written of a configuration denotes it**, also with a line end behind it. -/
theorem ofToml?_document {c : Config} (h : c.Writable) :
    ofToml? (Toml.document c.sections) = some c ∧
      ofToml? (Toml.document c.sections ++ "\n") = some c := by
  obtain ⟨hplain, hline⟩ := Toml.parse?_document (wellFormed_sections h) (nodup_headers c)
  simp [ofToml?, hplain, hline, ofDatum?_sections]

/-- A configuration is accepted from any text that denotes it if there is nothing wrong with it. -/
theorem parse_of_ofToml? {c : Config} {text : String} (hvalid : c.validate = .ok c)
    (h : ofToml? text = some c) : parse text = .ok c := by
  simp [parse, h, hvalid]

/-- What is printed is what is written, and a line end. -/
theorem checkConfig_eq_ok {c : Config} {output : String} :
    Program.checkConfig c = .ok output ↔
      ∃ text, c.toToml? = some text ∧ output = text ++ "\n" := by
  rw [Program.checkConfig]
  cases c.toToml? with
  | none => simp [throw, throwThe, MonadExceptOf.throw]
  | some text => simp [pure, Except.pure, eq_comm]

/-- **A configuration that is accepted reads back as itself.** It is printed exactly if all its
numbers fit into sixty-four bits with a sign, and then both what is printed and what is written
without the last line end are accepted, as the very same configuration. -/
theorem parse_checkConfig (c : Config) (hvalid : c.validate = .ok c) :
    ((∃ output, Program.checkConfig c = .ok output) ↔ ∀ n ∈ c.integers, n.toNat ≤ 2 ^ 63 - 1) ∧
      (∀ output, Program.checkConfig c = .ok output → parse output = .ok c) ∧
      ∀ text, c.toToml? = some text → parse text = .ok c := by
  have hfits : (∀ n ∈ c.integers, n.toNat ≤ 2 ^ 63 - 1) ↔ c.Writable := by
    simp only [Writable, Nat.le_sub_one_iff_lt (Nat.two_pow_pos 63)]
  refine ⟨?_, fun output houtput => ?_, fun text htext => ?_⟩
  · rw [hfits]
    constructor
    · rintro ⟨output, houtput⟩
      obtain ⟨text, htext, -⟩ := checkConfig_eq_ok.mp houtput
      exact (toToml?_eq_some.mp htext).1
    · intro hwritable
      exact ⟨_, checkConfig_eq_ok.mpr ⟨_, toToml?_eq_some.mpr ⟨hwritable, rfl⟩, rfl⟩⟩
  · obtain ⟨text, htext, rfl⟩ := checkConfig_eq_ok.mp houtput
    obtain ⟨hwritable, rfl⟩ := toToml?_eq_some.mp htext
    exact parse_of_ofToml? hvalid (ofToml?_document hwritable).2
  · obtain ⟨hwritable, rfl⟩ := toToml?_eq_some.mp htext
    exact parse_of_ofToml? hvalid (ofToml?_document hwritable).1

/-- A configuration whose texts need every way of quoting: quotes of both kinds, three in a row,
backslashes, line ends and control characters. -/
def quotedConfig : Config where
  chain :=
    { rpcUrl := "a \"b\""
      failoverUrls :=
        ["it's \"\"\"", "'''\\\n\u0001", "\r\u007f\"\"\"\"", "", "two\nlines ''\\", "''\"\"\n\""] }
  observability := { logLevel := "C:\\", metricsAddress := "\"\"\"'''" }

/-- It is accepted, and reads back as itself. -/
theorem parse_checkConfig_quotedConfig :
    quotedConfig.validate = .ok quotedConfig ∧
      ∃ output, Program.checkConfig quotedConfig = .ok output ∧
        parse output = .ok quotedConfig := by
  have hvalid : quotedConfig.validate = .ok quotedConfig := by decide +kernel
  obtain ⟨hprinted, hread, -⟩ := parse_checkConfig quotedConfig hvalid
  obtain ⟨output, houtput⟩ := hprinted.mpr (by simp [integers, quotedConfig])
  exact ⟨hvalid, output, houtput, hread output houtput⟩

end Config

end TxDelivery
