import Mathlib.Data.List.Induction
import TxDelivery.Service.Step

/-!
# Histories

A history is a run of a service with the states it went through
(`TxDelivery.Service.History`): one `TxDelivery.Service.Transition` for every step, with the state
before and the state after it. Histories and runs are the same thing
(`TxDelivery.Service.run?_eq_some_iff`); what a history adds is that a statement about “the moment
at which” something happens can name the state of that moment.

**Histories grow at their end**, so that a fact about all of them is proved by looking at the last
step (`TxDelivery.Service.History.invariant`). Facts about what has happened so far are functions of
the list of transitions (folds, filters, counts), and these have a law for one more element at the
end. A definition that consumed a run from its front, as the one of runs does, would have the state
in the way of every such induction.

They can be cut anywhere (`TxDelivery.Service.History.split`), and around one of their steps
(`TxDelivery.Service.History.around`). “Whenever a confirmation is published, the receipt was found
before” is so a statement about a history `pre ++ e :: post`, in which `e` publishes and `pre` is
what it rests on.

For a concrete run there is a function that computes its history
(`TxDelivery.Service.trace?`). What is read off its result holds of a history
(`TxDelivery.Service.exists_history`), and the reading is by evaluation, so that an existence
statement about runs comes down to a list of actions. The small service at the end of this file is
the one that such runs are about.
-/

namespace TxDelivery

namespace Service

variable {κ : Type}

/-- One step of a run with the states around it. -/
structure Transition (κ : Type) where
  /-- The service before the step. -/
  before : Service κ
  /-- What was done. -/
  action : Action κ
  /-- What was seen. -/
  seen : List Observation
  /-- The service after the step. -/
  after : Service κ

/-- A transition as part of a run. -/
def Transition.moment (e : Transition κ) : Moment κ := ⟨e.before.now, e.action, e.seen⟩

variable [DecidableEq κ]

/-- **A history**: the transitions of a run from one state to another, in order. -/
inductive History (setup : Setup κ) (s : Service κ) : List (Transition κ) → Service κ → Prop where
  /-- Nothing happened yet. -/
  | nil : History setup s [] s
  /-- One more step was taken. -/
  | snoc {tr : List (Transition κ)} {t u : Service κ} {a : Action κ} {seen : List Observation}
      (h : History setup s tr t) (hstep : t.step? setup a = some (u, seen)) :
      History setup s (tr ++ [⟨t, a, seen, u⟩]) u

variable {setup : Setup κ} {s t u : Service κ} {tr tr' : List (Transition κ)}

namespace History

/-- A single step. -/
theorem single {a : Action κ} {seen : List Observation} (h : s.step? setup a = some (t, seen)) :
    History setup s [⟨s, a, seen, t⟩] t :=
  History.nil.snoc h

/-- **Histories compose.** -/
theorem append (h : History setup s tr t) (h' : History setup t tr' u) :
    History setup s (tr ++ tr') u := by
  induction h' with
  | nil => simpa using h
  | snoc _ hstep ih =>
    rw [← List.append_assoc]
    exact ih.snoc hstep

/-- The empty history goes nowhere. -/
theorem eq_of_nil (h : History setup s [] t) : t = s := by
  generalize htr : ([] : List (Transition κ)) = tr at h
  cases h with
  | nil => rfl
  | snoc => simp at htr

/-- The last step of a history. -/
theorem of_snoc {e : Transition κ} (h : History setup s (tr ++ [e]) t) :
    History setup s tr e.before ∧ e.before.step? setup e.action = some (e.after, e.seen) ∧
      t = e.after := by
  generalize htr : tr ++ [e] = full at h
  cases h with
  | nil => simp at htr
  | snoc h hstep =>
    obtain ⟨rfl, hlast⟩ := List.append_inj' htr rfl
    obtain rfl : e = _ := List.singleton_inj.mp hlast
    exact ⟨h, hstep, rfl⟩

/-- **A history can be cut anywhere.** -/
theorem split (h : History setup s (tr ++ tr') u) :
    ∃ t, History setup s tr t ∧ History setup t tr' u := by
  induction tr' using List.reverseRecOn generalizing u with
  | nil => exact ⟨u, by simpa using h, .nil⟩
  | append_singleton tr' e ih =>
    rw [← List.append_assoc] at h
    obtain ⟨hpre, hstep, rfl⟩ := h.of_snoc
    obtain ⟨t, h₁, h₂⟩ := ih hpre
    exact ⟨t, h₁, h₂.snoc hstep⟩

/-- The first step of a history. -/
theorem of_cons {e : Transition κ} (h : History setup s (e :: tr) u) :
    e.before = s ∧ s.step? setup e.action = some (e.after, e.seen) ∧
      History setup e.after tr u := by
  have h' : History setup s ([e] ++ tr) u := h
  obtain ⟨t, h₁, h₂⟩ := h'.split
  have h₀ : History setup s ([] ++ [e]) t := h₁
  obtain ⟨hnil, hstep, rfl⟩ := h₀.of_snoc
  have hs := hnil.eq_of_nil
  exact ⟨hs, hs ▸ hstep, h₂⟩

/-- **Where a history leads is written in it.** -/
theorem end_unique (h : History setup s tr t) (h' : History setup s tr u) : t = u := by
  cases h with
  | nil => exact h'.eq_of_nil.symm
  | snoc => exact h'.of_snoc.2.2.symm

/-- **A history around one of its steps.** -/
theorem around {e : Transition κ} (h : History setup s (tr ++ e :: tr') u) :
    History setup s tr e.before ∧ e.before.step? setup e.action = some (e.after, e.seen) ∧
      History setup e.after tr' u := by
  obtain ⟨t, h₁, h₂⟩ := h.split
  obtain ⟨rfl, hstep, h₃⟩ := h₂.of_cons
  exact ⟨h₁, hstep, h₃⟩

/-- **What holds at first and is kept by every step of a history holds at its end.** A step may be
assumed to be one of the history. -/
theorem invariant {P : Service κ → Prop} (h : History setup s tr t) (hs : P s)
    (hkeep : ∀ e ∈ tr, e.before.step? setup e.action = some (e.after, e.seen) →
      P e.before → P e.after) : P t := by
  induction h with
  | nil => exact hs
  | @snoc tr t u a seen _ hstep ih =>
    have hlast : (⟨t, a, seen, u⟩ : Transition κ) ∈ tr ++ [⟨t, a, seen, u⟩] := by simp
    exact hkeep _ hlast hstep (ih fun e he => hkeep e (List.mem_append_left _ he))

end History

/-! ### Histories and runs -/

/-- **Runs are histories without their states.** -/
theorem run?_eq_some_iff {as : List (Action κ)} {moments : List (Moment κ)} :
    s.run? setup as = some (t, moments) ↔
      ∃ tr, History setup s tr t ∧ tr.map (·.action) = as ∧ tr.map Transition.moment = moments := by
  induction as generalizing s moments with
  | nil =>
    constructor
    · intro h
      obtain ⟨rfl, rfl⟩ : s = t ∧ [] = moments := by simpa [run?] using h
      exact ⟨[], .nil, rfl, rfl⟩
    · rintro ⟨tr, h, htr, rfl⟩
      obtain rfl := List.map_eq_nil_iff.mp htr
      obtain rfl := h.eq_of_nil
      rfl
  | cons a as ih =>
    constructor
    · intro h
      obtain ⟨⟨u, seen⟩, hstep, h⟩ := Option.bind_eq_some_iff.mp h
      obtain ⟨⟨v, ms⟩, hrun, h⟩ := Option.bind_eq_some_iff.mp h
      obtain ⟨rfl, rfl⟩ : v = t ∧ _ = moments := by simpa using h
      obtain ⟨tr, htr, rfl, rfl⟩ := ih.mp hrun
      exact ⟨⟨s, a, seen, u⟩ :: tr, (History.single hstep).append htr, rfl, rfl⟩
    · rintro ⟨tr, h, htr, rfl⟩
      obtain ⟨e, tr, rfl, rfl, rfl⟩ := List.map_eq_cons_iff.mp htr
      obtain ⟨rfl, hstep, h⟩ := h.of_cons
      have hrun := ih.mpr ⟨tr, h, rfl, rfl⟩
      simp only [run?, hstep, hrun, Option.bind_eq_bind, Option.bind_some]
      rfl

/-- A run with the states it goes through, if all of its steps are possible. -/
def trace? (setup : Setup κ) (s : Service κ) :
    List (Action κ) → Option (List (Transition κ) × Service κ)
  | [] => some ([], s)
  | a :: as => do
    let (t, seen) ← s.step? setup a
    let (tr, u) ← trace? setup t as
    some (⟨s, a, seen, t⟩ :: tr, u)

/-- The states a run goes through make a history. -/
theorem history_of_trace? {as : List (Action κ)} (h : s.trace? setup as = some (tr, t)) :
    History setup s tr t ∧ tr.map (·.action) = as := by
  induction as generalizing s tr with
  | nil =>
    obtain ⟨rfl, rfl⟩ : [] = tr ∧ s = t := by simpa [trace?] using h
    exact ⟨.nil, rfl⟩
  | cons a as ih =>
    obtain ⟨⟨u, seen⟩, hstep, h⟩ := Option.bind_eq_some_iff.mp h
    obtain ⟨⟨tr', v⟩, htrace, h⟩ := Option.bind_eq_some_iff.mp h
    obtain ⟨rfl, rfl⟩ : _ = tr ∧ v = t := by simpa using h
    obtain ⟨htr, rfl⟩ := ih htrace
    exact ⟨(History.single hstep).append htr, rfl⟩

/-- What is read off a run holds of a history. -/
theorem exists_history {β : Type} {f : List (Transition κ) × Service κ → β} {b : β}
    {as : List (Action κ)} (h : (s.trace? setup as).map f = some b) :
    ∃ tr t, History setup s tr t ∧ tr.map (·.action) = as ∧ f (tr, t) = b := by
  obtain ⟨⟨tr, t⟩, htrace, hb⟩ := Option.map_eq_some_iff.mp h
  obtain ⟨htr, has⟩ := history_of_trace? htrace
  exact ⟨tr, t, htr, has, hb⟩

/-- What is read off a step of a run, and off its end, holds of a history around this step. -/
theorem exists_history_at {β : Type} {f : List (Transition κ) × Service κ → Transition κ → β}
    {b : β} {n : Nat} {as : List (Action κ)}
    (h : (s.trace? setup as).bind (fun r => r.1[n]?.map (f r)) = some b) :
    ∃ pre e post t, History setup s (pre ++ e :: post) t ∧
      (pre ++ e :: post).map (·.action) = as ∧ f (pre ++ e :: post, t) e = b := by
  obtain ⟨⟨tr, t⟩, htrace, h⟩ := Option.bind_eq_some_iff.mp h
  obtain ⟨e, he, hb⟩ := Option.map_eq_some_iff.mp h
  obtain ⟨pre, post, rfl⟩ := List.append_of_mem (List.mem_of_getElem? he)
  obtain ⟨htr, has⟩ := history_of_trace? htrace
  exact ⟨pre, e, post, t, htr, has, hb⟩

/-! ### A small service -/

/-- A service with the settings it has unless told otherwise, for the signer with address 7. -/
def sampleSetup : Setup Unit := ⟨{}, 7, fun _ => ()⟩

/-- A transaction whose price and gas are settled. -/
def sampleTx : Transaction := { gasPrice := 5, gasLimit := 21000 }

/-- The transaction signed with a nonce. -/
def sampleSigned (nonce : Nonce) : SignedTx :=
  ⟨{ sampleTx with sender := 7, nonce := nonce }, nonce.toNat, [nonce.toUInt8]⟩

/-- A transaction that transfers an amount. -/
def transfer (v : Amount) : Transaction := { sampleTx with value := v }

/-- The transaction signed with a nonce. -/
def signedTransfer (v : Amount) (n : Nonce) : SignedTx :=
  ⟨{ transfer v with sender := 7, nonce := n }, v, [n.toUInt8]⟩

end Service

end TxDelivery
