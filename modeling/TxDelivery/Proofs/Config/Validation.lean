import Mathlib.Data.List.Basic
import TxDelivery.Config.Text
import TxDelivery.Rehearsal.Basic

/-!
# Validation is exact, and the engine agrees with it

A rule speaks about one setting, but it may look at another: an interval has to be shorter than the
period, and the rule that it is not zero goes first. So **each setting has at most one problem**
(`TxDelivery.Config.problem?`), and the offences of a configuration are the problems of the settings
taken one after the other (`TxDelivery.Config.offences_eq_filterMap`). From this form everything is
read off by the laws of `List.filterMap`: which offences are found, that a setting has only one,
their order, and that the delivery section, judged by itself, has the offences the whole
configuration has in that section (`TxDelivery.Config.delivery_offences_eq_filter`).

The check itself is not written so. It collects its complaints rule by rule, and appends those of
one section to those of another. That it comes to the same is a matter of each rule
(`TxDelivery.Config.offenceIf_eq_toList`, `TxDelivery.Config.intervalOffences_eq_toList`) and
involves no other, so that a rule more is a line more.

## What it is compared with

The rules are said twice more, without the code: as what an acceptable configuration is
(`TxDelivery.Config.Acceptable`) and as what counts as a violation (`TxDelivery.Config.Violates`).
The one is that there is none of the other (`TxDelivery.Config.acceptable_iff`).

`TxDelivery.Config.validation_exact` puts these against both checks, the one behind every way to
read a configuration (`TxDelivery.Config.Source`) and the one an engine makes of its section when it
starts. The two cannot disagree on that section, whatever else is wrong with a configuration: the
engine complains of what is reported of the section, in the same order, and of nothing else.
-/

namespace TxDelivery

/-! ### The rules -/

/-- **An acceptable configuration.** -/
structure Config.Acceptable (c : Config) : Prop where
  /-- The address of the first node has a visible character. -/
  rpcUrl : ∃ ch ∈ c.chain.rpcUrl.toList, isBlank ch = false
  /-- The chain has a number. -/
  chainId : c.chain.chainId ≠ 0
  /-- The nodes have time to answer. -/
  rpcTimeout : c.chain.rpcTimeoutSecs ≠ 0
  /-- A transaction has time. -/
  period : c.delivery.periodSecs ≠ 0
  /-- The price is looked at again, but not all the time. -/
  change_ne : c.delivery.changeIntervalSecs ≠ 0
  /-- The price is looked at again before time is up. -/
  change_lt : c.delivery.changeIntervalSecs < c.delivery.periodSecs
  /-- Receipts are looked for, but not all the time. -/
  listen_ne : c.delivery.listenIntervalSecs ≠ 0
  /-- Receipts are looked for before time is up. -/
  listen_lt : c.delivery.listenIntervalSecs < c.delivery.periodSecs
  /-- A replacement pays more. -/
  one_le_bump : 1 ≤ c.delivery.priceBumpPercent
  /-- A replacement pays at most double. -/
  bump_le : c.delivery.priceBumpPercent ≤ 100
  /-- Metrics that are served have a place. -/
  metrics : c.observability.metricsEnabled = true →
    ∃ a, SocketAddress.parse? c.observability.metricsAddress = some a

/-- **What a configuration does wrong**, and at which setting. -/
inductive Config.Violates (c : Config) : Setting → Problem → Prop where
  /-- There is nothing to see in the address of the first node. -/
  | rpcUrl (h : ∀ ch ∈ c.chain.rpcUrl.toList, isBlank ch = true) : Violates c .rpcUrl .empty
  /-- The chain has no number. -/
  | chainId (h : c.chain.chainId = 0) : Violates c .chainId .zeroId
  /-- The nodes have no time to answer. -/
  | rpcTimeout (h : c.chain.rpcTimeoutSecs = 0) : Violates c .rpcTimeout .notPositive
  /-- A transaction has no time. -/
  | period (h : c.delivery.periodSecs = 0) : Violates c .period .notPositive
  /-- The price would be looked at all the time. -/
  | changeZero (h : c.delivery.changeIntervalSecs = 0) : Violates c .changeInterval .notPositive
  /-- The price would be looked at too late, as any time is when there is none. -/
  | changeLong (h : c.delivery.changeIntervalSecs ≠ 0)
      (hlong : c.delivery.periodSecs ≤ c.delivery.changeIntervalSecs) :
      Violates c .changeInterval (.tooLong c.delivery.periodSecs)
  /-- Receipts would be looked for all the time. -/
  | listenZero (h : c.delivery.listenIntervalSecs = 0) : Violates c .listenInterval .notPositive
  /-- Receipts would be looked for too late. -/
  | listenLong (h : c.delivery.listenIntervalSecs ≠ 0)
      (hlong : c.delivery.periodSecs ≤ c.delivery.listenIntervalSecs) :
      Violates c .listenInterval (.tooLong c.delivery.periodSecs)
  /-- A replacement would pay the same, or more than double. -/
  | priceBump (h : c.delivery.priceBumpPercent = 0 ∨ 100 < c.delivery.priceBumpPercent) :
      Violates c .priceBump .percentage
  /-- Metrics would be served nowhere. -/
  | metrics (h : c.observability.metricsEnabled = true)
      (hnone : ∀ a, SocketAddress.parse? c.observability.metricsAddress ≠ some a) :
      Violates c .metricsAddress .noSocketAddress

/-! ### One problem for each setting -/

/-- A problem where `condition` holds. -/
def problemIf (condition : Bool) (p : Problem) : Option Problem :=
  if condition then some p else none

/-- The problem of an interval that has to be positive and shorter than the period. -/
def intervalProblem? (interval period : UInt64) : Option Problem :=
  if interval = 0 then some .notPositive else problemIf (period ≤ interval) (.tooLong period)

theorem problemIf_eq_some {condition : Bool} {p q : Problem} :
    problemIf condition p = some q ↔ condition = true ∧ q = p := by
  cases condition <;> simp [problemIf, eq_comm]

theorem intervalProblem?_eq_some {interval period : UInt64} {p : Problem} :
    intervalProblem? interval period = some p ↔
      interval = 0 ∧ p = .notPositive ∨
        interval ≠ 0 ∧ period ≤ interval ∧ p = .tooLong period := by
  rw [intervalProblem?]
  by_cases h : interval = 0
  · simp [h, eq_comm]
  · simp [h, problemIf_eq_some]

namespace Setting

/-- All settings that can be at fault, in the order in which they are declared. -/
def declared : List Setting :=
  [rpcUrl, chainId, rpcTimeout, period, changeInterval, listenInterval, priceBump, metricsAddress]

/-- Whether a setting is one of the delivery section, by its name. -/
def isDelivery (s : Setting) : Bool := "txmanager.".toList.isPrefixOf s.path.toList

theorem filter_declared_eq (s : Setting) : declared.filter (· = s) = [s] := by
  cases s <;> decide

theorem filter_declared_isDelivery :
    declared.filter isDelivery = [period, changeInterval, listenInterval, priceBump] := by
  decide

end Setting

/-- Whether an offence is one of the delivery section. -/
def Offence.isDelivery (o : Offence) : Bool := o.setting.isDelivery

namespace Config

variable {c : Config} {s : Setting} {p : Problem}

/-- **The problem of a setting**, of which it has at most one. -/
def problem? (c : Config) : Setting → Option Problem
  | .rpcUrl => problemIf (isBlankText c.chain.rpcUrl) .empty
  | .chainId => problemIf (c.chain.chainId = 0) .zeroId
  | .rpcTimeout => problemIf (c.chain.rpcTimeoutSecs = 0) .notPositive
  | .period => problemIf (c.delivery.periodSecs = 0) .notPositive
  | .changeInterval => intervalProblem? c.delivery.changeIntervalSecs c.delivery.periodSecs
  | .listenInterval => intervalProblem? c.delivery.listenIntervalSecs c.delivery.periodSecs
  | .priceBump =>
    problemIf (c.delivery.priceBumpPercent = 0 || 100 < c.delivery.priceBumpPercent) .percentage
  | .metricsAddress =>
    problemIf (c.observability.metricsEnabled &&
      (SocketAddress.parse? c.observability.metricsAddress).isNone) .noSocketAddress

/-- The offence at a setting. -/
def offence? (c : Config) (s : Setting) : Option Offence := (c.problem? s).map (⟨s, ·⟩)

theorem offence?_eq_some {o : Offence} :
    c.offence? s = some o ↔ o.setting = s ∧ c.problem? s = some o.problem := by
  obtain ⟨s', p⟩ := o
  cases h : c.problem? s <;> simp [offence?, h, eq_comm]

/-- A setting has a problem exactly if a rule is violated there. -/
theorem problem?_eq_some_iff : c.problem? s = some p ↔ c.Violates s p := by
  constructor
  · intro h
    cases s <;>
      simp only [problem?, problemIf_eq_some, intervalProblem?_eq_some, decide_eq_true_eq,
        Bool.or_eq_true, Bool.and_eq_true, isBlankText, List.all_eq_true,
        Option.isNone_iff_eq_none, Option.eq_none_iff_forall_ne_some] at h
    case changeInterval =>
      obtain ⟨hzero, rfl⟩ | ⟨hne, hlong, rfl⟩ := h
      · exact .changeZero hzero
      · exact .changeLong hne hlong
    case listenInterval =>
      obtain ⟨hzero, rfl⟩ | ⟨hne, hlong, rfl⟩ := h
      · exact .listenZero hzero
      · exact .listenLong hne hlong
    case rpcUrl => exact h.2 ▸ .rpcUrl h.1
    case chainId => exact h.2 ▸ .chainId h.1
    case rpcTimeout => exact h.2 ▸ .rpcTimeout h.1
    case period => exact h.2 ▸ .period h.1
    case priceBump => exact h.2 ▸ .priceBump h.1
    case metricsAddress => exact h.2 ▸ .metrics h.1.1 h.1.2
  · rintro (_ | _ | _ | _ | _ | _ | _ | _ | _ | _) <;>
      simp_all [problem?, problemIf_eq_some, intervalProblem?_eq_some, isBlankText,
        Option.eq_none_iff_forall_ne_some]

/-- An acceptable configuration is one that violates no rule. -/
theorem acceptable_iff : c.Acceptable ↔ ∀ s p, ¬ c.Violates s p := by
  constructor
  · rintro h s p (hall | hz | hz | hz | hz | ⟨-, hlong⟩ | hz | ⟨-, hlong⟩ | hbump | ⟨hon, hnone⟩)
    · obtain ⟨ch, hmem, hch⟩ := h.rpcUrl
      simp [hall ch hmem] at hch
    · exact h.chainId hz
    · exact h.rpcTimeout hz
    · exact h.period hz
    · exact h.change_ne hz
    · exact UInt64.not_le.mpr h.change_lt hlong
    · exact h.listen_ne hz
    · exact UInt64.not_le.mpr h.listen_lt hlong
    · obtain hzero | hbig := hbump
      · exact absurd h.one_le_bump (by simp [hzero])
      · exact UInt64.not_le.mpr hbig h.bump_le
    · obtain ⟨a, ha⟩ := h.metrics hon
      exact hnone a ha
  · intro h
    have hchange : c.delivery.changeIntervalSecs ≠ 0 := fun hz => h _ _ (.changeZero hz)
    have hlisten : c.delivery.listenIntervalSecs ≠ 0 := fun hz => h _ _ (.listenZero hz)
    constructor
    case rpcUrl =>
      by_contra hall
      exact h _ _ (.rpcUrl (by simpa using hall))
    case chainId => exact fun hz => h _ _ (.chainId hz)
    case rpcTimeout => exact fun hz => h _ _ (.rpcTimeout hz)
    case period => exact fun hz => h _ _ (.period hz)
    case change_ne => exact hchange
    case change_lt => exact UInt64.not_le.mp fun hlong => h _ _ (.changeLong hchange hlong)
    case listen_ne => exact hlisten
    case listen_lt => exact UInt64.not_le.mp fun hlong => h _ _ (.listenLong hlisten hlong)
    case one_le_bump =>
      have hne : c.delivery.priceBumpPercent ≠ 0 := fun hz => h _ _ (.priceBump (.inl hz))
      grind
    case bump_le => exact UInt64.not_lt.mp fun hbig => h _ _ (.priceBump (.inr hbig))
    case metrics =>
      intro hon
      by_contra hnone
      exact h _ _ (.metrics hon (not_exists.mp hnone))

/-! ### The offences, setting by setting -/

/-- The offence of a setting whose problem depends on one condition. -/
theorem offenceIf_eq_toList (condition : Bool) (s : Setting) (p : Problem) :
    offenceIf condition s p = ((problemIf condition p).map (Offence.mk s)).toList := by
  cases condition <;> rfl

theorem intervalOffences_eq_toList (s : Setting) (interval period : UInt64) :
    intervalOffences s interval period =
      ((intervalProblem? interval period).map (Offence.mk s)).toList := by
  rw [intervalOffences, intervalProblem?]
  split
  · rfl
  · exact offenceIf_eq_toList ..

/-- **The offences of a configuration are the problems of its settings**, in their order. -/
theorem offences_eq_filterMap (c : Config) :
    c.offences = Setting.declared.filterMap c.offence? := by
  simp only [offences, ChainConfig.offences, DeliveryConfig.offences, ObservabilityConfig.offences,
    offenceIf_eq_toList, intervalOffences_eq_toList, List.append_assoc,
    List.filterMap_eq_flatMap_toList, Setting.declared, List.flatMap_cons, List.flatMap_nil,
    List.append_nil, offence?, problem?]

/-- The offences at some of the settings are the problems of those. -/
theorem filter_offences (c : Config) (P : Setting → Bool) :
    c.offences.filter (fun o => P o.setting) =
      (Setting.declared.filter P).filterMap c.offence? := by
  rw [offences_eq_filterMap, List.filter_filterMap, List.filterMap_filter]
  refine List.filterMap_congr fun s _ => ?_
  cases h : c.problem? s <;> simp [offence?, h, Option.filter]

/-- The settings at fault. -/
theorem map_setting_offences (c : Config) :
    c.offences.map Offence.setting = Setting.declared.filter fun s => (c.problem? s).isSome := by
  rw [offences_eq_filterMap, List.map_filterMap, ← List.filterMap_eq_filter]
  refine List.filterMap_congr fun s _ => ?_
  cases h : c.problem? s <;> simp [offence?, h, Option.guard]

/-- **What is reported of a configuration**: one entry for each setting at fault, which says what is
wrong with it, none for another, and the entries in the order of the declarations. -/
structure Reports (c : Config) (all : List Offence) : Prop where
  /-- A violation is what is reported of its setting, and the only thing. -/
  one : ∀ s p, c.Violates s p → all.filter (fun o => o.setting = s) = [⟨s, p⟩]
  /-- What is reported is a violation. -/
  only : ∀ o ∈ all, c.Violates o.setting o.problem
  /-- The entries follow the declarations. -/
  ordered : (all.map Offence.setting).Sublist Setting.declared

theorem reports_offences (c : Config) : c.Reports c.offences where
  one s p h := by
    rw [c.filter_offences (· = s), Setting.filter_declared_eq]
    simp [offence?, problem?_eq_some_iff.mpr h]
  only o h := by
    rw [offences_eq_filterMap, List.mem_filterMap] at h
    obtain ⟨s, -, hs⟩ := h
    obtain ⟨rfl, hp⟩ := offence?_eq_some.mp hs
    exact problem?_eq_some_iff.mp hp
  ordered := by
    rw [map_setting_offences]
    exact List.filter_sublist

/-- Nothing is wrong with a configuration exactly if it is acceptable. -/
theorem offences_eq_nil_iff {c : Config} : c.offences = [] ↔ c.Acceptable := by
  rw [acceptable_iff]
  constructor
  · intro h s p hviolates
    simpa [h] using c.reports_offences.one s p hviolates
  · intro h
    refine List.eq_nil_iff_forall_not_mem.mpr fun o ho => ?_
    exact h _ _ (c.reports_offences.only o ho)

/-- **The delivery section has the same offences by itself.** -/
theorem delivery_offences_eq_filter (c : Config) :
    c.delivery.offences = c.offences.filter Offence.isDelivery := by
  have hfilter := c.filter_offences Setting.isDelivery
  rw [Setting.filter_declared_isDelivery] at hfilter
  refine Eq.trans ?_ hfilter.symm
  simp only [DeliveryConfig.offences, offenceIf_eq_toList, intervalOffences_eq_toList,
    List.append_assoc, List.filterMap_eq_flatMap_toList, List.flatMap_cons, List.flatMap_nil,
    List.append_nil, offence?, problem?]

end Config

/-! ### The two checks -/

/-- The offences a result complains about. -/
def ConfigError.reported {α : Type} : Except ConfigError α → List Offence
  | .error (.validation all) => all
  | _ => []

open ConfigError (reported)

theorem Config.validate_of_not_acceptable {c : Config} (h : ¬ c.Acceptable) :
    c.validate = .error (.validation c.offences) := by
  have hne : c.offences ≠ [] := mt Config.offences_eq_nil_iff.mp h
  simp [Config.validate, hne, throw, throwThe, MonadExceptOf.throw]

/-- What is accepted is the configuration itself, and it is acceptable. -/
theorem Config.validate_eq_ok_iff {c c' : Config} :
    c.validate = .ok c' ↔ c.Acceptable ∧ c = c' := by
  by_cases h : c.Acceptable
  · simp [Config.validate, Config.offences_eq_nil_iff.mpr h, pure, Except.pure, h]
  · simp [c.validate_of_not_acceptable h, h]

theorem Config.reported_validate (c : Config) : reported c.validate = c.offences := by
  by_cases h : c.Acceptable
  · rw [Config.validate_eq_ok_iff.mpr ⟨h, rfl⟩, Config.offences_eq_nil_iff.mpr h, reported]
    exact nofun
  · rw [c.validate_of_not_acceptable h, reported]

/-- A section is accepted as it is, or rejected for its offences. -/
theorem DeliveryConfig.validate_eq (d : DeliveryConfig) :
    d.validate = if d.offences = [] then .ok d else .error (.validation d.offences) := by
  simp only [DeliveryConfig.validate, List.isEmpty_iff]
  rfl

theorem DeliveryConfig.reported_validate (d : DeliveryConfig) :
    reported d.validate = d.offences := by
  rw [d.validate_eq]
  by_cases h : d.offences = []
  · rw [if_pos h, h, reported]
    exact nofun
  · rw [if_neg h, reported]

section Engine

variable {κ : Type} {d : DeliveryConfig} {keyOf : Transaction → κ} {signer : ScriptedSigner}
  {chain : ScriptedChain}

/-- An engine starts with the settings it is given if they pass the check of their section. -/
theorem Rehearsal.start_of_offences_eq_nil (h : d.offences = []) :
    ∃ r, Rehearsal.start d keyOf signer chain = .ok r ∧ r.setup.config = d := by
  rw [Rehearsal.start, d.validate_eq, if_pos h]
  exact ⟨_, rfl, rfl⟩

/-- An engine fails with what the check of its section says. -/
theorem Rehearsal.start_of_offences_ne_nil (h : d.offences ≠ []) :
    Rehearsal.start d keyOf signer chain = .error (.validation d.offences) := by
  rw [Rehearsal.start, d.validate_eq, if_neg h]
  rfl

theorem Rehearsal.start_eq_ok_iff :
    (∃ r, Rehearsal.start d keyOf signer chain = .ok r ∧ r.setup.config = d) ↔
      d.offences = [] := by
  refine ⟨?_, start_of_offences_eq_nil⟩
  rintro ⟨r, hr, -⟩
  by_contra h
  simp [start_of_offences_ne_nil h] at hr

theorem Rehearsal.start_eq_error_iff {all : List Offence} :
    Rehearsal.start d keyOf signer chain = .error (.validation all) ↔
      all ≠ [] ∧ d.offences = all := by
  by_cases h : d.offences = []
  · obtain ⟨r, hr, -⟩ : ∃ r, start d keyOf signer chain = .ok r ∧ _ := start_of_offences_eq_nil h
    rw [hr, h]
    exact ⟨nofun, fun ⟨hne, heq⟩ => absurd heq.symm hne⟩
  · rw [start_of_offences_ne_nil h]
    constructor
    · rintro ⟨⟩
      exact ⟨h, rfl⟩
    · rintro ⟨-, rfl⟩
      rfl

end Engine

namespace Config

/-- **Where a configuration is read from.** -/
inductive Source where
  /-- A text. -/
  | text (content : String)
  /-- The bytes of a file, or that there is none. -/
  | file (content : Option Bytes)

namespace Source

/-- Reading a configuration, which is accepted only without offences. -/
def read : Source → Except ConfigError Config
  | text content => parse content
  | file content => load content

/-- The text of a source. -/
def text? : Source → Option String
  | text content => some content
  | file content => content.bind fun bytes => String.fromUTF8? ⟨bytes.toArray⟩

/-- The configuration a source denotes, acceptable or not. -/
def denoted? (src : Source) : Option Config := src.text?.bind ofToml?

theorem read_eq_parse {src : Source} {content : String} (h : src.text? = some content) :
    src.read = parse content := by
  obtain content' | (_ | bytes) := src
  · rw [read, Option.some.inj h]
  · simp [text?] at h
  · simp only [text?, Option.bind_some] at h
    simp only [read, load, h]

/-- What a source denotes is what is judged. -/
theorem read_eq_validate {src : Source} {c : Config} (h : src.denoted? = some c) :
    src.read = c.validate := by
  obtain ⟨content, hcontent, hc⟩ := Option.bind_eq_some_iff.mp h
  simp only [read_eq_parse hcontent, parse, hc]

/-- Reading accepts what is denoted, if it is acceptable. -/
theorem read_eq_ok_iff {src : Source} {c : Config} :
    src.read = .ok c ↔ src.denoted? = some c ∧ c.Acceptable := by
  cases hdenoted : src.denoted? with
  | some c' =>
    rw [read_eq_validate hdenoted, validate_eq_ok_iff, Option.some.injEq]
    constructor
    · rintro ⟨hacceptable, rfl⟩
      exact ⟨rfl, hacceptable⟩
    · rintro ⟨rfl, hacceptable⟩
      exact ⟨hacceptable, rfl⟩
  | none =>
    suffices h : ∀ c, src.read ≠ .ok c by simp [h c]
    cases htext : src.text? with
    | some content =>
      have hc : ofToml? content = none := by simpa [denoted?, htext] using hdenoted
      simp [read_eq_parse htext, parse, hc, throw, throwThe, MonadExceptOf.throw]
    | none =>
      obtain content | (_ | bytes) := src
      · simp [text?] at htext
      · simp [read, load, throw, throwThe, MonadExceptOf.throw]
      · simp only [text?, Option.bind_some] at htext
        simp [read, load, htext, throw, throwThe, MonadExceptOf.throw]

end Source

/-- **Validation is exact, and the engine agrees with it.** A configuration is accepted exactly if
it is acceptable, and is otherwise rejected with the report of what is wrong with it. Judged by
itself, its delivery section is reported for what the whole configuration is reported for in that
section. So of whatever a text or a file denotes, an engine starts with the delivery section if
reading accepts the configuration, and also if it complains of other sections only; it fails with
the same complaints about the section in the same order if reading has any. -/
theorem validation_exact {κ : Type} (keyOf : Transaction → κ)
    (signer : ScriptedSigner) (chain : ScriptedChain) :
    (∀ c : Config,
      (c.validate = .ok c ↔ c.Acceptable) ∧
      (¬ c.Acceptable → ∃ all, c.validate = .error (.validation all) ∧ c.Reports all) ∧
      reported c.delivery.validate = (reported c.validate).filter Offence.isDelivery) ∧
    ∀ (src : Source) (c : Config),
      (src.read = .ok c → src.denoted? = some c ∧
        ∃ r, Rehearsal.start c.delivery keyOf signer chain = .ok r ∧
          r.setup.config = c.delivery) ∧
      (src.denoted? = some c →
        ((∃ r, Rehearsal.start c.delivery keyOf signer chain = .ok r ∧
            r.setup.config = c.delivery) ↔
          (reported src.read).filter Offence.isDelivery = []) ∧
        ∀ all, Rehearsal.start c.delivery keyOf signer chain = .error (.validation all) ↔
          all ≠ [] ∧ (reported src.read).filter Offence.isDelivery = all) := by
  refine ⟨fun c => ⟨?_, fun hbad => ?_, ?_⟩, fun src c => ⟨fun hok => ?_, fun hc => ⟨?_, ?_⟩⟩⟩
  · simp [validate_eq_ok_iff]
  · exact ⟨_, c.validate_of_not_acceptable hbad, c.reports_offences⟩
  · rw [c.delivery.reported_validate, c.reported_validate, c.delivery_offences_eq_filter]
  · obtain ⟨hc, hacceptable⟩ := Source.read_eq_ok_iff.mp hok
    refine ⟨hc, Rehearsal.start_eq_ok_iff.mpr ?_⟩
    rw [c.delivery_offences_eq_filter, offences_eq_nil_iff.mpr hacceptable, List.filter_nil]
  · rw [Rehearsal.start_eq_ok_iff, Source.read_eq_validate hc, c.reported_validate,
      c.delivery_offences_eq_filter]
  · intro all
    rw [Rehearsal.start_eq_error_iff, Source.read_eq_validate hc, c.reported_validate,
      c.delivery_offences_eq_filter]

/-- A configuration with nothing to see in the address of its node, and a period of zero, which
leaves no room for the one interval; the other is zero itself. -/
def blankConfig : Config where
  chain := { rpcUrl := " " }
  delivery := { periodSecs := 0, listenIntervalSecs := 0 }

/-- Four settings are reported of it, and an engine complains about the last three. An empty file is
accepted, and an engine starts with what it denotes. -/
theorem validation_exact_blankConfig :
    (∃ all, blankConfig.validate = .error (.validation all) ∧
      all.filter (fun o => o.setting = .changeInterval) = [⟨.changeInterval, .tooLong 0⟩]) ∧
    Rehearsal.start blankConfig.delivery (fun _ => ()) .numbering {} =
      .error (.validation [⟨.period, .notPositive⟩, ⟨.changeInterval, .tooLong 0⟩,
        ⟨.listenInterval, .notPositive⟩]) ∧
    ∃ r, Rehearsal.start {} (fun _ => ()) .numbering {} = .ok r := by
  obtain ⟨hexact, hagree⟩ := validation_exact (fun _ => ()) .numbering {}
  have hperiod : blankConfig.Violates .period .notPositive := .period rfl
  have hchange : blankConfig.Violates .changeInterval (.tooLong 0) :=
    .changeLong (by decide) (by decide)
  have hdenoted : Source.denoted? (.text
      "[chain]\nrpc_url = ' '\n[txmanager]\nperiod_secs = 0\nlisten_interval_secs = 0") =
      some blankConfig := by decide +kernel
  refine ⟨?_, ?_, ?_⟩
  · obtain ⟨all, hall, hreports⟩ :=
      (hexact blankConfig).2.1 fun h => acceptable_iff.mp h _ _ hperiod
    exact ⟨all, hall, hreports.one _ _ hchange⟩
  · refine (((hagree _ blankConfig).2 hdenoted).2 _).mpr ⟨by simp, ?_⟩
    rw [Source.read_eq_validate hdenoted]
    decide +kernel
  · obtain ⟨-, r, hr, -⟩ := (hagree (.file (some [])) {}).1 (by decide +kernel)
    exact ⟨r, hr⟩

end Config

end TxDelivery
