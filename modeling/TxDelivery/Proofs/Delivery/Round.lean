import TxDelivery.Proofs.Delivery.Variants
import TxDelivery.Proofs.Delivery.Dialogue

/-!
# From tick to tick

A supervisor and a listener ask nothing before a tick of theirs, and after each only so much. An
attempt to replace a variant asks for the price, the gas, a signature and a broadcast, in this order
(`TxDelivery.Escalation.course`); a look at the variants asks for the receipts of two of them, and
for the height of the chain (`TxDelivery.Listener.look`). What is asked in a run is cut up by the
ticks in it (`TxDelivery.Service.asked`), so that **what is asked once between two ticks is asked no
more often than there are ticks** (`TxDelivery.Service.countP_callsOf_le`).

This file has what a delivery's pace is made of, for one party at a time and with no service around
it. It is in three layers.

* *Timers.* A tick that is served late pushes all later ones back: the `k`-th tick of a timer is
  never served before `k` whole intervals have passed (`TxDelivery.Ticker.Paced`). Serving a tick
  keeps this, however late (`TxDelivery.Ticker.Paced.serve`), because the next one is counted from
  the moment at which it was served, or from when it was due if it was hardly late.
* *Attempts and looks.* How far an attempt has come determines what it has asked for, so that what
  was asked is a beginning of its course at any moment
  (`TxDelivery.Escalation.isAttempt_asked`). A look may leave out heights, and what was asked is a
  part of what a whole look would ask for. It is counted together with the variants still to come,
  which makes the bound of two an invariant (`TxDelivery.Listener.Looks`).
* *Runs.* What a party asks, when it serves its ticks, and what it asked since the last of them, are
  three functions on a run, with a law each for one more step.

The count at the end is an induction that looks at every beginning of the run: what was asked in it
since its last tick is counted once, and the tick that follows starts a new count.
-/

namespace TxDelivery

/-! ### Timers -/

namespace Ticker

/-- **What a timer started at `start` has been through**: no tick was served before its time, and
the next is not due before its own. -/
structure Paced (start period : Nat) (served : List Nat) (t : Ticker) : Prop where
  /-- The interval never changes. -/
  period_eq : t.period = period
  /-- Every tick was served after as many intervals. -/
  le_served : ∀ k time, served[k]? = some time → start + (k + 1) * period ≤ time
  /-- The next tick is due after one interval more. -/
  le_due : start + (served.length + 1) * period ≤ t.due

variable {start period now : Nat} {served : List Nat} {t : Ticker}

theorem paced_start (start period : Nat) : Paced start period [] (.start start period) :=
  ⟨rfl, by simp, by simp [Ticker.start]⟩

/-- **Serving a tick keeps the pace**, however late. -/
theorem Paced.serve (h : Paced start period served t) (hdue : t.due ≤ now) :
    Paced start period (served ++ [now]) (t.serve now) := by
  have hnext := h.le_due
  refine ⟨h.period_eq, fun k time htime => ?_, ?_⟩
  · rw [getElem?_append_singleton] at htime
    split at htime
    case isTrue hk =>
      obtain rfl := Option.some.inj htime
      rw [hk]
      exact Nat.le_trans hnext hdue
    case isFalse => exact h.le_served k time htime
  · -- A late tick is followed from now on, any other from when it was due, which is not later.
    have hdue' : t.due + period ≤ (t.serve now).due := by
      rw [Ticker.serve, h.period_eq]
      refine Nat.add_le_add_right ?_ period
      split <;> omega
    rw [List.length_append, List.length_singleton, Nat.add_mul, Nat.one_mul]
    omega

end Ticker

/-! ### Attempts and looks -/

/-- **What an attempt asks for from beginning to end**: the price, the gas if the caller wants it
estimated anew, the signature and the broadcast. -/
def Escalation.course (recalcGas : Bool) (estimated signed : Transaction) (replacement : SignedTx) :
    List Call :=
  .gasPrice :: ((if recalcGas then [.estimateGas estimated] else []) ++
    [.sign signed, .broadcast replacement])

/-- Calls of an attempt that may have ended early. -/
def Escalation.IsAttempt (recalcGas : Bool) (calls : List Call) : Prop :=
  ∃ estimated signed replacement, calls <+: course recalcGas estimated signed replacement

/-- **What a look at the variants asks for at most**: for every variant the receipt, and the height
of the chain. -/
def Listener.look (hashes : List Hash) : List Call :=
  hashes.flatMap fun hash => [.receipt hash, .head]

namespace Escalation

variable {e e' : Escalation} {percent : UInt64} {reply : Reply} {replacement : SignedTx}

/-- What an attempt has asked for so far. -/
def asked (e : Escalation) : List Call :=
  match e.stage with
  | .pricing => [.gasPrice]
  | .estimating _ => [.gasPrice, .estimateGas e.base.tx]
  | .signing tx =>
    .gasPrice :: ((if e.options.recalcGas then [.estimateGas e.base.tx] else []) ++ [.sign tx])

/-- Gas is estimated only for those who want it. -/
def Thrifty (e : Escalation) : Prop :=
  ∀ price, e.stage = .estimating price → e.options.recalcGas = true

theorem thrifty_start {base : SignedTx} {options : DeliveryOptions} :
    (start base options).Thrifty := by
  simp [Thrifty, start]

/-- **An attempt asks for one thing after another.** -/
theorem asked_of_asking (he : e.Thrifty) (h : e.advance? percent reply = some (.asking e')) :
    e'.Thrifty ∧ e'.options = e.options ∧ e'.asked = e.asked ++ [e'.call] := by
  unfold advance? at h
  split at h
  case h_1 market hs =>
    split at h
    case h_3 price hprice =>
      obtain rfl : e.priced price = e' := by simpa using h
      cases hgas : e.options.recalcGas <;> simp [priced, hgas, Thrifty, asked, call, hs]
    all_goals simp at h
  case h_3 price gas hs =>
    obtain rfl : _ = e' := by simpa using h
    simp [Thrifty, asked, call, hs, he price hs]
  all_goals simp at h

/-- What an attempt has asked for is the beginning of its course. -/
theorem isAttempt_asked (he : e.Thrifty) : IsAttempt e.options.recalcGas e.asked := by
  refine ⟨e.base.tx, (match e.stage with | .signing tx => tx | _ => default), default, ?_⟩
  cases hs : e.stage with
  | pricing => simp [asked, course, hs]
  | estimating price => simp [asked, course, hs, he price hs]
  | signing tx =>
    simp only [asked, course, hs]
    refine ⟨[.broadcast default], ?_⟩
    simp

/-- **With the broadcast an attempt has run its course.** -/
theorem asked_concat_broadcast
    (h : e.advance? percent reply = some (.ended (.ok (some replacement)))) :
    ∃ tx, e.asked ++ [.broadcast replacement] =
      course e.options.recalcGas e.base.tx tx replacement := by
  obtain ⟨tx, hs, -⟩ := signing_of_ended h
  exact ⟨tx, by simp [asked, course, hs]⟩

end Escalation

/-- Whether a call is a broadcast. -/
def Call.isBroadcast : Call → Bool
  | .broadcast _ => true
  | _ => false

/-- An attempt broadcasts once at most. -/
theorem Escalation.IsAttempt.countP_isBroadcast_le {recalcGas : Bool} {calls : List Call}
    (h : IsAttempt recalcGas calls) : calls.countP Call.isBroadcast ≤ 1 := by
  obtain ⟨estimated, signed, replacement, hprefix⟩ := h
  refine Nat.le_trans hprefix.sublist.countP_le ?_
  cases recalcGas <;> simp [course, Call.isBroadcast]

theorem RecentTxs.length_toList_le (r : RecentTxs) : r.toList.length ≤ 2 := by
  have hone (tx : Option SignedTx) : tx.toList.length ≤ 1 := by cases tx <;> simp
  have heven := hone r.even
  have hodd := hone r.odd
  rw [toList, List.length_append]
  omega

namespace Listener

variable {l l' : Listener} {now : Nat} {depth : UInt64} {reply : Reply} {log : List LogEvent}
  {hashes : List Hash} {calls : List Call} {rest : List SignedTx} {hash : Hash}

/-- **What a listener's stage rests on**: what it asked since its last tick, for two variants at
most, those still to come included. -/
inductive Looks : List Call → Stage → Prop where
  /-- It asks for a receipt. -/
  | querying {hashes : List Hash} {calls : List Call} {tx : SignedTx} {rest : List SignedTx}
      (hcalls : calls.Sublist (look hashes)) (hlen : hashes.length + (rest.length + 1) ≤ 2) :
      Looks (calls ++ [.receipt tx.hash]) (.querying tx rest)
  /-- It asks for the height. -/
  | weighing {hashes : List Hash} {calls : List Call} {tx : SignedTx} {receipt : Receipt}
      {rest : List SignedTx} (hcalls : calls.Sublist (look hashes))
      (hlen : hashes.length + rest.length ≤ 2) : Looks calls (.weighing tx receipt rest)
  /-- It waits. -/
  | waiting {hashes : List Hash} {calls : List Call} (hcalls : calls.Sublist (look hashes))
      (hlen : hashes.length ≤ 2) : Looks calls .waiting
  /-- It returned. -/
  | returned {hashes : List Hash} {calls : List Call} {mined : Option SignedTx}
      (hcalls : calls.Sublist (look hashes)) (hlen : hashes.length ≤ 2) :
      Looks calls (.returned mined)
  /-- It was stopped, or broke down. -/
  | stopped {hashes : List Hash} {calls : List Call} (hcalls : calls.Sublist (look hashes))
      (hlen : hashes.length ≤ 2) : Looks calls .stopped

/-- One variant more. -/
theorem look_concat (hashes : List Hash) (hash : Hash) :
    look (hashes ++ [hash]) = look hashes ++ [Call.receipt hash, Call.head] := by
  rw [look, List.flatMap_append]
  rfl

/-- A receipt is asked for. -/
theorem sublist_concat_receipt (h : calls.Sublist (look hashes)) :
    (calls ++ [Call.receipt hash]).Sublist (look (hashes ++ [hash])) := by
  rw [look_concat]
  exact h.append (List.sublist_append_left [Call.receipt hash] [Call.head])

/-- **Whatever a listener does, it looks at two variants at most.** -/
theorem Looks.exists_look {stage : Stage} (h : Looks calls stage) :
    ∃ hashes : List Hash, hashes.length ≤ 2 ∧ calls.Sublist (look hashes) := by
  cases h with
  | @querying hashes calls tx rest hcalls hlen =>
    refine ⟨hashes ++ [tx.hash], ?_, sublist_concat_receipt hcalls⟩
    rw [List.length_append, List.length_singleton]
    omega
  | weighing hcalls hlen => exact ⟨_, by omega, hcalls⟩
  | waiting hcalls hlen | returned hcalls hlen | stopped hcalls hlen => exact ⟨_, hlen, hcalls⟩

/-- A watch that is stopped has looked at no more than before. -/
theorem Looks.stop (h : Looks calls l.stage) : Looks calls l.stop.stage := by
  obtain ⟨hashes, hlen, hcalls⟩ := h.exists_look
  cases hs : l.stage with
  | returned mined =>
    simp only [Listener.stop, hs]
    exact .returned hcalls hlen
  | _ =>
    simp only [Listener.stop, hs]
    exact .stopped hcalls hlen

/-- **The listener goes on to the next variant**, if there is one. -/
theorem looks_examine (hcalls : calls.Sublist (look hashes))
    (hlen : hashes.length + rest.length ≤ 2) (hs : l.stage = examine rest) :
    Looks (calls ++ l.call?.toList) l.stage := by
  cases rest with
  | nil =>
    have hnone : l.call? = none := by simp [call?, hs, examine]
    rw [hs, hnone, Option.toList_none, List.append_nil]
    exact .waiting hcalls hlen
  | cons tx rest =>
    have hcall : l.call? = some (.receipt tx.hash) := by simp [call?, hs, examine]
    rw [hs, hcall]
    exact .querying hcalls hlen

/-- **A look goes on.** -/
theorem Looks.advance (h : Looks calls l.stage) (hl : l.advance? depth reply = some (l', log)) :
    Looks (calls ++ l'.call?.toList) l'.stage := by
  generalize hs : l.stage = stage at h
  cases h with
  | @querying hashes calls tx rest hcalls hlen =>
    have hreceipt : (calls ++ [Call.receipt tx.hash]).Sublist (look (hashes ++ [tx.hash])) :=
      sublist_concat_receipt hcalls
    have hlen' : (hashes ++ [tx.hash]).length + rest.length ≤ 2 := by
      rw [List.length_append, List.length_singleton]
      omega
    unfold advance? at hl
    rw [hs] at hl
    split at hl
    case h_1 tx' rest' receipt hstage =>
      -- It is mined: the height is asked for next.
      obtain ⟨rfl, rfl⟩ := Stage.querying.inj hstage
      obtain ⟨rfl, -⟩ := Prod.mk.inj (Option.some.inj hl)
      refine .weighing ?_ hlen'
      rw [look_concat, List.append_assoc]
      exact hcalls.append (.refl _)
    case h_2 tx' rest' hstage | h_3 tx' rest' err hstage =>
      -- It is not, as far as is known: the next variant has its turn.
      obtain ⟨rfl, rfl⟩ := Stage.querying.inj hstage
      obtain ⟨rfl, -⟩ := Prod.mk.inj (Option.some.inj hl)
      exact looks_examine hreceipt hlen' rfl
    all_goals contradiction
  | @weighing hashes calls tx receipt rest hcalls hlen =>
    unfold advance? at hl
    rw [hs] at hl
    split at hl
    case h_4 tx' receipt' rest' height hstage =>
      obtain ⟨rfl, rfl, rfl⟩ := Stage.weighing.inj hstage
      split at hl
      · obtain ⟨rfl, -⟩ := Prod.mk.inj (Option.some.inj hl)
        exact looks_examine hcalls hlen rfl
      · split at hl
        · obtain ⟨rfl, -⟩ := Prod.mk.inj (Option.some.inj hl)
          simp only [call?, Option.toList_none, List.append_nil]
          exact .returned hcalls (by omega)
        · obtain ⟨rfl, -⟩ := Prod.mk.inj (Option.some.inj hl)
          exact looks_examine hcalls hlen rfl
    case h_5 tx' receipt' rest' err hstage =>
      obtain ⟨rfl, rfl, rfl⟩ := Stage.weighing.inj hstage
      obtain ⟨rfl, -⟩ := Prod.mk.inj (Option.some.inj hl)
      exact looks_examine hcalls hlen rfl
    all_goals contradiction
  | waiting | returned | stopped => simp [advance?, hs] at hl

/-- A look leaves the timer alone, and goes on only if something was asked. -/
theorem of_advance? (h : l.advance? depth reply = some (l', log)) :
    l'.ticker = l.ticker ∧ l.call? ≠ none := by
  cases hs : l.stage with
  | querying | weighing =>
    refine ⟨?_, by simp [call?, hs]⟩
    unfold advance? at h
    split at h
    case h_4 =>
      split at h
      · simp only [Option.some.injEq, Prod.mk.injEq] at h
        rw [← h.1]
      · split at h <;> (simp only [Option.some.injEq, Prod.mk.injEq] at h; rw [← h.1])
    case h_6 => contradiction
    all_goals
      simp only [Option.some.injEq, Prod.mk.injEq] at h
      rw [← h.1]
  | waiting | returned | stopped => simp [advance?, hs] at h

theorem ticker_stop (l : Listener) : l.stop.ticker = l.ticker := by
  unfold stop
  split <;> rfl

/-- A tick begins a look at the variants watched. -/
theorem looks_of_poll? (h : l.poll? now = some l') :
    l'.ticker = l.ticker.serve now ∧ l.ticker.due ≤ now ∧ Looks l'.call?.toList l'.stage := by
  simp only [poll?, Option.ite_none_right_eq_some, Bool.and_eq_true, Ticker.isDue,
    decide_eq_true_eq, Option.some.injEq] at h
  obtain ⟨⟨-, hdue⟩, rfl⟩ := h
  have hlen := l.recent.length_toList_le
  have hnothing : ([] : List Call).Sublist (look []) := .refl _
  exact ⟨rfl, hdue, looks_examine hnothing (by simpa using hlen) rfl⟩

end Listener

/-- **What a supervisor's stage rests on**: what it asked since its last tick. -/
inductive Supervisor.Attempts (options : DeliveryOptions) :
    Option (List Call) → Supervisor.Stage → Prop where
  /-- A replacement is made. -/
  | replacing {e : Escalation} (he : e.Thrifty) (hoptions : e.options = options) :
      Attempts options (some e.asked) (.replacing e)
  /-- The replacement is broadcast. -/
  | rebroadcasting {estimated signed : Transaction} {replacement : SignedTx} :
      Attempts options (some (Escalation.course options.recalcGas estimated signed replacement))
        (.rebroadcasting replacement)
  /-- There is no replacement. -/
  | idle {asked : Option (List Call)} {stage : Supervisor.Stage}
      (hcalls : ∀ calls, asked = some calls → Escalation.IsAttempt options.recalcGas calls)
      (hstage : stage.transactions = []) : Attempts options asked stage

/-- **Whatever a supervisor does, it makes one attempt.** -/
theorem Supervisor.Attempts.isAttempt {options : DeliveryOptions} {asked : Option (List Call)}
    {stage : Supervisor.Stage} (h : Supervisor.Attempts options asked stage) {calls : List Call}
    (hcalls : asked = some calls) : Escalation.IsAttempt options.recalcGas calls := by
  cases h with
  | replacing he hoptions =>
    obtain rfl := Option.some.inj hcalls
    exact hoptions ▸ Escalation.isAttempt_asked he
  | rebroadcasting =>
    obtain rfl := Option.some.inj hcalls
    exact ⟨_, _, _, List.prefix_rfl⟩
  | idle h => exact h _ hcalls

/-! ### Ticks and calls of a run -/

variable {κ : Type} {setup : Setup κ}

/-- What a party asks in an observation. -/
def Observation.call? (who : Party) : Observation → Option Call
  | .called who' call => if who' = who then some call else none
  | .published _ _ | .logged _ => none

namespace Service

/-- What a party asks in a step. -/
def Transition.calls (who : Party) (e : Transition κ) : List Call :=
  e.seen.filterMap (Observation.call? who)

/-- **What a party asks in a run**, in order. -/
def callsOf (who : Party) (tr : List (Transition κ)) : List Call := tr.flatMap (·.calls who)

/-- **When a party serves its ticks.** -/
def tickTimes (who : Party) (tr : List (Transition κ)) : List Nat :=
  tr.filterMap fun e => if e.action.ticks? = some who then some e.before.now else none

/-- **What a party asked since its last tick**; there is nothing before the first. -/
def asked (who : Party) (tr : List (Transition κ)) : Option (List Call) :=
  tr.foldl (fun calls e =>
    if e.action.ticks? = some who then some (e.calls who) else calls.map (· ++ e.calls who)) none

variable {s t : Service κ} {tr mid : List (Transition κ)} {e : Transition κ} {who : Party}
  {calls : List Call} {d : DeliveryId} {start : Nat}

theorem callsOf_append (who : Party) (tr tr' : List (Transition κ)) :
    callsOf who (tr ++ tr') = callsOf who tr ++ callsOf who tr' := List.flatMap_append

theorem callsOf_concat : callsOf who (tr ++ [e]) = callsOf who tr ++ e.calls who := by
  rw [callsOf_append]
  simp [callsOf]

theorem tickTimes_append (who : Party) (tr tr' : List (Transition κ)) :
    tickTimes who (tr ++ tr') = tickTimes who tr ++ tickTimes who tr' := List.filterMap_append

theorem tickTimes_concat_of_ticks (h : e.action.ticks? = some who) :
    tickTimes who (tr ++ [e]) = tickTimes who tr ++ [e.before.now] := by
  rw [tickTimes_append]
  simp [tickTimes, h]

theorem tickTimes_concat_of_not_ticks (h : e.action.ticks? ≠ some who) :
    tickTimes who (tr ++ [e]) = tickTimes who tr := by
  rw [tickTimes_append]
  simp [tickTimes, h]

theorem asked_concat : asked who (tr ++ [e]) =
    if e.action.ticks? = some who then some (e.calls who)
    else (asked who tr).map (· ++ e.calls who) := by
  rw [asked, List.foldl_append]
  rfl

theorem asked_concat_of_ticks (h : e.action.ticks? = some who) :
    asked who (tr ++ [e]) = some (e.calls who) := by
  rw [asked_concat, if_pos h]

theorem asked_concat_of_not_ticks (h : e.action.ticks? ≠ some who) :
    asked who (tr ++ [e]) = (asked who tr).map (· ++ e.calls who) := by
  rw [asked_concat, if_neg h]

/-- A step in which a party asks nothing. -/
theorem asked_concat_of_quiet (h : e.action.ticks? ≠ some who) (hcalls : e.calls who = []) :
    asked who (tr ++ [e]) = asked who tr := by
  rw [asked_concat_of_not_ticks h, hcalls]
  simp

/-- **What is asked between two ticks.** -/
theorem asked_of_ticks (h : e.action.ticks? = some who)
    (hmid : ∀ e' ∈ mid, e'.action.ticks? ≠ some who) :
    asked who (tr ++ e :: mid) = some (callsOf who (e :: mid)) := by
  induction mid using List.reverseRecOn with
  | nil =>
    rw [asked_concat_of_ticks h]
    simp [callsOf]
  | append_singleton mid e' ih =>
    have hlast := hmid e' (by simp)
    rw [← List.cons_append, ← List.append_assoc, asked_concat_of_not_ticks hlast, callsOf_concat,
      ih fun e'' he'' => hmid e'' (List.mem_append_left _ he'')]
    rfl

/-- Who has not served a tick has asked nothing since. -/
theorem asked_eq_none_iff : asked who tr = none ↔ tickTimes who tr = [] := by
  induction tr using List.reverseRecOn with
  | nil => simp [asked, tickTimes]
  | append_singleton tr e ih =>
    by_cases h : e.action.ticks? = some who
    · simp [asked_concat_of_ticks h, tickTimes_concat_of_ticks h]
    · simp [asked_concat_of_not_ticks h, tickTimes_concat_of_not_ticks h, ih]

/-- **What is asked once between two ticks at most** is asked as often as there are ticks at most,
if nothing is asked before the first. -/
theorem countP_callsOf_le (p : Call → Bool)
    (hsilent : ∀ pre, pre <+: tr → asked who pre = none → callsOf who pre = [])
    (honce : ∀ pre calls, pre <+: tr → asked who pre = some calls → calls.countP p ≤ 1) :
    (callsOf who tr).countP p ≤ (tickTimes who tr).length := by
  -- All but what was asked since the last tick is paid for by the ticks before it.
  have hpaid : ∀ pre calls, pre <+: tr → asked who pre = some calls →
      (callsOf who pre).countP p + 1 ≤ (tickTimes who pre).length + calls.countP p := by
    intro pre
    induction pre using List.reverseRecOn with
    | nil => simp [asked]
    | append_singleton pre e ih =>
      intro calls hpre hcalls
      have hbefore : pre <+: tr := (List.prefix_append pre [e]).trans hpre
      rw [callsOf_concat, List.countP_append]
      by_cases h : e.action.ticks? = some who
      · rw [asked_concat_of_ticks h] at hcalls
        obtain rfl := Option.some.inj hcalls
        rw [tickTimes_concat_of_ticks h, List.length_append, List.length_singleton]
        cases hasked : asked who pre with
        | none =>
          rw [hsilent pre hbefore hasked, List.countP_nil]
          omega
        | some calls =>
          have hpaid := ih calls hbefore hasked
          have hone := honce pre calls hbefore hasked
          omega
      · rw [asked_concat_of_not_ticks h] at hcalls
        obtain ⟨calls', hasked, rfl⟩ := Option.map_eq_some_iff.mp hcalls
        have hpaid := ih calls' hbefore hasked
        rw [tickTimes_concat_of_not_ticks h, List.countP_append]
        omega
  cases hasked : asked who tr with
  | none =>
    rw [hsilent tr List.prefix_rfl hasked, List.countP_nil]
    exact Nat.zero_le _
  | some calls =>
    have hpaid := hpaid tr calls List.prefix_rfl hasked
    have hone := honce tr calls List.prefix_rfl hasked
    omega

end Service

end TxDelivery
