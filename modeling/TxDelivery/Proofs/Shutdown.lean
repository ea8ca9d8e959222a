import Mathlib.Data.List.Basic
import TxDelivery.Proofs.Watch
import TxDelivery.Shutdown.Signals

/-!
# Shutdown is final and reaches everyone

A signal is ready as soon as the coordinator was triggered or has gone, and stays so, no matter how
it was obtained, when, and how often it or another signal was polled before
(`TxDelivery.Shutdown.Signals.reaches_everyone`).

A coordinator with its signals is a channel with its receivers, but what comes of each thing that is
done with them follows from the two bits of a `TxDelivery.Shutdown` alone
(`TxDelivery.Shutdown.Signals.Sound.outcome_eq`), and so does what can be done, once it is known
which signals there are. Two states with the same bits and the same signals therefore answer alike
for ever (`TxDelivery.Shutdown.Signals.Alike.run`); a second trigger, a poll or a clone leads from a
state to one that is like it.

## Two bits

The channel has a value, a version, a count of those it woke, and receivers that remember what they
have seen. All of this may differ between two states that are alike. What has to be known about it
is said once: each signal tracks the channel, and nobody was woken before the shutdown
(`TxDelivery.Shutdown.Signals.Sound`). It holds of a new coordinator and is kept by whatever is done
(`TxDelivery.Shutdown.Signals.Sound.step`), so that it holds after every run
(`TxDelivery.Shutdown.Signals.Sound.run`), where it is also told what the two bits are: whether
there was a trigger in the run, and whether the coordinator is still there.

That an answer is final follows without a word about time. Once a bit says that the shutdown has
come nothing undoes it (`TxDelivery.Shutdown.Signals.ready_outcome`), and every answer is that of
the bits.

Sleepers need something more. One who polled and is waiting does not ask again by itself; it has to
be woken. It sleeps exactly as long as the shutdown has not come
(`TxDelivery.Shutdown.Signals.Sound.sleeps_iff`), as it fell asleep when nobody had been woken yet,
and the count has gone up with the shutdown.
-/

namespace TxDelivery

namespace Shutdown

namespace Signals

variable {ν : Type}

/-! ### What comes of an action -/

/-- **What comes of an action**, told from what coordinator and signals share. -/
def Action.outcome (d : Shutdown) : Action ν → Answer × Shutdown
  | .poll _ => (.polled d.ready, d)
  | .ask => (.asked d.triggered, d)
  | .trigger => (.done, d.trigger)
  | .abandon => (.done, d.abandon)
  | .subscribe _ | .clone _ _ | .giveUp _ => (.done, d)

/-- The signal that is obtained. -/
def Action.obtains? : Action ν → Option ν
  | .subscribe name | .clone name _ => some name
  | .trigger | .poll _ | .giveUp _ | .ask | .abandon => none

/-- A signal is obtained from the coordinator or from another signal. -/
theorem exists_obtains?_iff {as : List (Action ν)} {name : ν} :
    (∃ a ∈ as, a.obtains? = some name) ↔
      .subscribe name ∈ as ∨ ∃ source, .clone name source ∈ as := by
  constructor
  · rintro ⟨a, ha, hname⟩
    cases a with
    | subscribe => exact .inl (Option.some.inj hname ▸ ha)
    | clone _ source => exact .inr ⟨source, Option.some.inj hname ▸ ha⟩
    | trigger | poll | giveUp | ask | abandon => contradiction
  · rintro (ha | ⟨source, ha⟩)
    · exact ⟨_, ha, rfl⟩
    · exact ⟨_, ha, rfl⟩

theorem ready_eq_true_iff (d : Shutdown) :
    d.ready = true ↔ d.triggered = true ∨ ¬d.alive = true := by
  simp [ready]

theorem triggered_outcome (d : Shutdown) (a : Action ν) :
    (a.outcome d).2.triggered = true ↔ d.triggered = true ∨ a = .trigger := by
  cases a <;> simp [Action.outcome, Shutdown.trigger, Shutdown.abandon]

theorem alive_outcome (d : Shutdown) (a : Action ν) :
    (a.outcome d).2.alive = true ↔ d.alive = true ∧ a ≠ .abandon := by
  cases a <;> simp [Action.outcome, Shutdown.trigger, Shutdown.abandon]

/-- **Nothing undoes a shutdown.** -/
theorem ready_outcome {d : Shutdown} (hready : d.ready = true) (a : Action ν) :
    (a.outcome d).2.ready = true ∧ (a.outcome d).1 ≠ .polled false := by
  have htrigger : d.trigger.ready = true := rfl
  have habandon : d.abandon.ready = true := by simp [Shutdown.abandon, Shutdown.ready]
  cases a with
  | poll => exact ⟨hready, by simp [Action.outcome, hready]⟩
  | trigger => exact ⟨htrigger, by simp [Action.outcome]⟩
  | abandon => exact ⟨habandon, by simp [Action.outcome]⟩
  | subscribe | clone | giveUp | ask => exact ⟨hready, by simp [Action.outcome]⟩

/-- A coordinator can be triggered again without a change. -/
theorem trigger_eq_self {d : Shutdown} (h : d.triggered = true) : d.trigger = d := by
  obtain ⟨triggered, alive⟩ := d
  obtain rfl : triggered = true := h
  rfl

variable [DecidableEq ν] {s s' t t' u : Signals ν} {a : Action ν} {as : List (Action ν)}
  {x : Answer} {xs : List Answer} {name : ν} {r : Watch.Receiver}

/-! ### The table of actions -/

/-- The signal with a name, after a name was given. -/
theorem receiver?_put (s : Signals ν) (name name' : ν) (r : Watch.Receiver) :
    (s.put name r).receiver? name' = if name' = name then some r else s.receiver? name' := by
  by_cases hname : name' = name
  · simp [receiver?, put, hname]
  · simp only [receiver?, put, if_neg hname]
    rw [List.find?_cons_of_neg (by simpa using Ne.symm hname), List.find?_filter]
    congr 2
    funext e
    by_cases he : e.1 = name' <;> simp [he, hname]

/-- A name that was given is known, and no other is forgotten. -/
theorem isSome_receiver?_put {name' : ν} :
    ((s.put name r).receiver? name').isSome = true ↔
      (s.receiver? name').isSome = true ∨ name = name' := by
  rw [receiver?_put]
  by_cases hname : name' = name
  · simp [hname]
  · simp [hname, Ne.symm hname]

/-- **The actions that are possible**, with what they lead to. -/
inductive Step (s : Signals ν) : Action ν → Answer × Signals ν → Prop where
  /-- The coordinator gives out a signal. -/
  | subscribe {name : ν} (halive : s.channel.alive = true) :
      Step s (.subscribe name) (.done, s.put name s.channel.subscribe)
  /-- A signal is copied. -/
  | clone {name source : ν} {r : Watch.Receiver} (hr : s.receiver? source = some r) :
      Step s (.clone name source) (.done, s.put name r.withoutWait)
  /-- The coordinator is triggered. -/
  | trigger (halive : s.channel.alive = true) :
      Step s .trigger (.done, { s with channel := s.channel.replace true })
  /-- A signal is polled. -/
  | poll {name : ν} {r : Watch.Receiver} (hr : s.receiver? name = some r) :
      Step s (.poll name)
        (.polled (s.channel.poll id r).1.isReady, s.put name (s.channel.poll id r).2)
  /-- A wait is given up. -/
  | giveUp {name : ν} {r : Watch.Receiver} (hr : s.receiver? name = some r) :
      Step s (.giveUp name) (.done, s.put name r.withoutWait)
  /-- The coordinator is asked. -/
  | ask (halive : s.channel.alive = true) : Step s .ask (.asked s.channel.value, s)
  /-- The coordinator goes. -/
  | abandon (halive : s.channel.alive = true) :
      Step s .abandon (.done, { s with channel := s.channel.close })

theorem step_of_act? (h : s.act? a = some (x, t)) : Step s a (x, t) := by
  cases a with
  | subscribe name =>
    obtain ⟨halive, h⟩ := Option.ite_none_right_eq_some.mp h
    exact Option.some.inj h ▸ .subscribe halive
  | clone name source =>
    obtain ⟨r, hr, h⟩ := Option.map_eq_some_iff.mp h
    exact h ▸ .clone hr
  | trigger =>
    obtain ⟨halive, h⟩ := Option.ite_none_right_eq_some.mp h
    exact Option.some.inj h ▸ .trigger halive
  | poll name =>
    obtain ⟨r, hr, h⟩ := Option.map_eq_some_iff.mp h
    exact h ▸ .poll hr
  | giveUp name =>
    obtain ⟨r, hr, h⟩ := Option.map_eq_some_iff.mp h
    exact h ▸ .giveUp hr
  | ask =>
    obtain ⟨halive, h⟩ := Option.ite_none_right_eq_some.mp h
    exact Option.some.inj h ▸ .ask halive
  | abandon =>
    obtain ⟨halive, h⟩ := Option.ite_none_right_eq_some.mp h
    exact Option.some.inj h ▸ .abandon halive

/-- The signals there are, after something was done. -/
theorem Step.isSome_receiver? (h : Step s a (x, t)) (name : ν) :
    (t.receiver? name).isSome = true ↔
      (s.receiver? name).isSome = true ∨ a.obtains? = some name := by
  cases h with
  | subscribe | clone => simp [isSome_receiver?_put, Action.obtains?]
  | trigger | ask | abandon => exact (or_iff_left (by simp [Action.obtains?])).symm
  | @poll name' r hr | @giveUp name' r hr =>
    -- The name is given anew to a signal that has it.
    rw [isSome_receiver?_put]
    refine or_congr_right' fun hunknown => ⟨?_, by simp [Action.obtains?]⟩
    rintro rfl
    exact absurd (by simp [hr]) hunknown

/-! ### What does not matter -/

/-- **The signals are in order**: each of them tracks the channel, and nobody is woken before the
shutdown. -/
structure Sound (s : Signals ν) : Prop where
  /-- Signals track the channel, and wait for “triggered”. -/
  tracks : ∀ name r, s.receiver? name = some r → s.channel.Tracks id r
  /-- Nobody is woken for nothing. -/
  quiet : s.shutdown.ready = false → s.channel.wakes = 0

theorem sound_create : (create : Signals ν).Sound where
  tracks _ _ hr := by simp [create, receiver?] at hr
  quiet _ := rfl

theorem Sound.put (hs : s.Sound) (hr : s.channel.Tracks id r) : (s.put name r).Sound where
  tracks name' r' hr' := by
    rw [receiver?_put] at hr'
    split at hr'
    · exact Option.some.inj hr' ▸ hr
    · exact hs.tracks name' r' hr'
  quiet := hs.quiet

/-- **Whatever is done leaves the signals in order.** -/
theorem Sound.step (hs : s.Sound) (h : Step s a (x, t)) : t.Sound := by
  cases h with
  | subscribe => exact hs.put Watch.tracks_subscribe
  | clone hr | giveUp hr => exact hs.put (hs.tracks _ _ hr).withoutWait
  | poll hr => exact hs.put (hs.tracks _ _ hr).poll
  | trigger =>
    exact ⟨fun name r hr => (hs.tracks name r hr).replace true, fun hready => by
      simp [shutdown, Watch.replace, ready] at hready⟩
  | abandon =>
    exact ⟨fun name r hr => (hs.tracks name r hr).close, fun hready => by
      simp [shutdown, Watch.close, ready] at hready⟩
  | ask => exact hs

/-- What a poll of a signal tells is whether the shutdown has come. -/
theorem Sound.isReady_poll (hs : s.Sound) (hr : s.receiver? name = some r) :
    (s.channel.poll id r).1.isReady = s.shutdown.ready := by
  rw [(hs.tracks name r hr).poll_eq, Watch.isReady_verdict]
  rfl

/-- **Every signal there is can be polled**, and tells whether the shutdown has come. -/
theorem Sound.act?_poll (hs : s.Sound) (hr : s.receiver? name = some r) :
    s.act? (.poll name) = some (.polled s.shutdown.ready, s.put name (s.channel.poll id r).2) := by
  rw [← hs.isReady_poll hr, act?, hr]
  rfl

/-- **What comes of an action does not depend on what the signals remember.** -/
theorem Sound.outcome_eq (hs : s.Sound) (h : Step s a (x, t)) :
    a.outcome s.shutdown = (x, t.shutdown) := by
  cases h with
  | poll hr => rw [hs.isReady_poll hr]; rfl
  | subscribe | clone | trigger | giveUp | ask | abandon => rfl

/-- **Who sleeps has not been woken exactly as long as the shutdown has not come.** -/
theorem Sound.sleeps_iff (hs : s.Sound) (hr : s.receiver? name = some r)
    (hwaits : r.waitingSince.isSome = true) :
    s.channel.sleeps r = true ↔ s.shutdown.ready = false := by
  have htracks := hs.tracks name r hr
  constructor
  · intro hsleeps
    have hpoll := hs.isReady_poll hr
    rw [htracks.poll_eq, htracks.verdict_of_sleeps hsleeps] at hpoll
    exact hpoll.symm
  · -- Before the shutdown there were no wake-ups, so that no wait can have missed one.
    intro hready
    obtain ⟨k, hk⟩ := Option.isSome_iff_exists.mp hwaits
    have hle := htracks.waitingSince_le k hk
    rw [hs.quiet hready] at hle
    rw [Watch.sleeps_eq_true_iff, hk, hs.quiet hready, Nat.le_zero.mp hle]

/-! ### Runs -/

/-- The first action of a run. -/
theorem run?_cons_eq_some (h : s.run? (a :: as) = some (xs, u)) :
    ∃ x t ys, s.act? a = some (x, t) ∧ t.run? as = some (ys, u) ∧ xs = x :: ys := by
  obtain ⟨⟨x, t⟩, hact, h⟩ := Option.bind_eq_some_iff.mp h
  obtain ⟨⟨ys, v⟩, hrun, h⟩ := Option.bind_eq_some_iff.mp h
  obtain ⟨rfl, rfl⟩ := Prod.mk.inj (Option.some.inj h)
  exact ⟨x, t, ys, hact, hrun, rfl⟩

/-- A run of one action. -/
theorem run?_singleton (h : s.act? a = some (x, t)) : s.run? [a] = some ([x], t) := by
  simp only [run?, h, Option.bind_eq_bind, Option.bind_some]

/-- Runs compose. -/
theorem run?_append {bs : List (Action ν)} {ys : List Answer} (h : s.run? as = some (xs, t))
    (h' : t.run? bs = some (ys, u)) : s.run? (as ++ bs) = some (xs ++ ys, u) := by
  induction as generalizing s xs with
  | nil =>
    obtain ⟨rfl, rfl⟩ := Prod.mk.inj (Option.some.inj h)
    exact h'
  | cons a as ih =>
    obtain ⟨x, v, zs, hact, hrun, rfl⟩ := run?_cons_eq_some h
    simp only [List.cons_append, run?, hact, ih hrun, Option.bind_eq_bind, Option.bind_some]

/-- **What a run leads to.** -/
theorem Sound.run (hs : s.Sound) (h : s.run? as = some (xs, t)) :
    t.Sound ∧ (t.shutdown.triggered = true ↔ s.shutdown.triggered = true ∨ .trigger ∈ as) ∧
      (t.shutdown.alive = true ↔ s.shutdown.alive = true ∧ .abandon ∉ as) ∧
      ∀ name, (t.receiver? name).isSome = true ↔
        (s.receiver? name).isSome = true ∨ ∃ a ∈ as, a.obtains? = some name := by
  induction as generalizing s xs with
  | nil =>
    obtain ⟨rfl, rfl⟩ := Prod.mk.inj (Option.some.inj h)
    simpa using hs
  | cons a as ih =>
    obtain ⟨x, s', ys, hact, hrun, rfl⟩ := run?_cons_eq_some h
    have hstep := step_of_act? hact
    obtain ⟨ht, htriggered, halive, hknown⟩ := ih (hs.step hstep) hrun
    have hshutdown : (a.outcome s.shutdown).2 = s'.shutdown := by rw [hs.outcome_eq hstep]
    refine ⟨ht, ?_, ?_, fun name => ?_⟩
    · rw [htriggered, ← hshutdown, triggered_outcome, or_assoc, List.mem_cons, eq_comm (a := a)]
    · rw [halive, ← hshutdown, alive_outcome, and_assoc, List.mem_cons, not_or, ne_comm]
    · rw [hknown, hstep.isSome_receiver?, or_assoc, List.exists_mem_cons_iff]

/-- **After the shutdown no signal is pending**, in any run. -/
theorem Sound.not_pending (hs : s.Sound) (hready : s.shutdown.ready = true)
    (h : s.run? as = some (xs, t)) : .polled false ∉ xs := by
  induction as generalizing s xs with
  | nil =>
    obtain ⟨rfl, rfl⟩ := Prod.mk.inj (Option.some.inj h)
    exact List.not_mem_nil
  | cons a as ih =>
    obtain ⟨x, s', ys, hact, hrun, rfl⟩ := run?_cons_eq_some h
    have hstep := step_of_act? hact
    obtain ⟨hready', hne⟩ := ready_outcome hready a
    rw [hs.outcome_eq hstep] at hready' hne
    have hrest := ih (hs.step hstep) hready' hrun
    simp only [List.mem_cons, not_or]
    exact ⟨hne.symm, hrest⟩

/-! ### States that are alike -/

/-- **One state is like another**: they share the same, and all signals of the first are signals of
the second. -/
structure Alike (s t : Signals ν) : Prop where
  /-- The signals of the first state are in order. -/
  left : s.Sound
  /-- The signals of the second state are in order. -/
  right : t.Sound
  /-- They share the same. -/
  shutdown_eq : s.shutdown = t.shutdown
  /-- No signal is missing. -/
  known : ∀ name, (s.receiver? name).isSome = true → (t.receiver? name).isSome = true

/-- What is possible in one state is possible in a state like it. -/
theorem Alike.isSome_act? (h : Alike s t) (ha : (s.act? a).isSome = true) :
    (t.act? a).isSome = true := by
  have halive : s.channel.alive = t.channel.alive := congrArg Shutdown.alive h.shutdown_eq
  cases a with
  | subscribe | trigger | ask | abandon =>
    rw [act?, halive] at ha
    rw [act?]
    split at ha
    case isTrue halive' => rw [if_pos halive']; rfl
    case isFalse => contradiction
  | clone name source =>
    rw [act?, Option.isSome_map] at ha ⊢
    exact h.known source ha
  | poll name | giveUp name =>
    rw [act?, Option.isSome_map] at ha ⊢
    exact h.known name ha

/-- **Whatever is done in states that are alike**, the answer is the same, and they stay alike. -/
theorem Alike.act? (h : Alike s t) (hact : s.act? a = some (x, s')) :
    ∃ t', t.act? a = some (x, t') ∧ Alike s' t' := by
  have hsome := h.isSome_act? (a := a) (by simp [hact])
  obtain ⟨⟨y, t'⟩, hact'⟩ := Option.isSome_iff_exists.mp hsome
  have hstep := step_of_act? hact
  have hstep' := step_of_act? hact'
  -- Both answers come from what is shared, whatever the signals of the two states remember.
  have hsame : (x, s'.shutdown) = (y, t'.shutdown) := by
    rw [← h.left.outcome_eq hstep, ← h.right.outcome_eq hstep', h.shutdown_eq]
  obtain ⟨rfl, hshutdown⟩ := Prod.mk.inj hsame
  refine ⟨t', hact', h.left.step hstep, h.right.step hstep', hshutdown, fun name hname => ?_⟩
  rw [hstep'.isSome_receiver?]
  exact ((hstep.isSome_receiver? name).mp hname).imp_left (h.known name)

/-- **States that are alike answer alike** for ever. -/
theorem Alike.run (h : Alike s t) (hrun : s.run? as = some (xs, s')) :
    ∃ t', t.run? as = some (xs, t') ∧ Alike s' t' := by
  induction as generalizing s t xs with
  | nil =>
    obtain ⟨rfl, rfl⟩ := Prod.mk.inj (Option.some.inj hrun)
    exact ⟨t, rfl, h⟩
  | cons a as ih =>
    obtain ⟨x, u, ys, hact, hrest, rfl⟩ := run?_cons_eq_some hrun
    obtain ⟨v, hact', huv⟩ := h.act? hact
    obtain ⟨t', hrun', halike⟩ := ih huv hrest
    refine ⟨t', ?_, halike⟩
    simp only [run?, hact', hrun', Option.bind_eq_bind, Option.bind_some]

/-- **What is done leads to a state that is like the one before**, unless the coordinator goes or is
triggered for the first time. -/
theorem Sound.alike (hs : s.Sound) (hact : s.act? a = some (x, t)) (hgoes : a ≠ .abandon)
    (hagain : a = .trigger → s.shutdown.triggered = true) : Alike s t := by
  have hstep := step_of_act? hact
  have hshutdown : (a.outcome s.shutdown).2 = t.shutdown := by rw [hs.outcome_eq hstep]
  refine ⟨hs, hs.step hstep, ?_, fun name hname => (hstep.isSome_receiver? name).mpr (.inl hname)⟩
  rw [← hshutdown]
  cases a with
  | trigger => exact (trigger_eq_self (hagain rfl)).symm
  | abandon => contradiction
  | subscribe | clone | poll | giveUp | ask => rfl

/-! ### The main result -/

/-- **Shutdown is final and reaches everyone.** After every run of a coordinator and its signals,

* there are the signals that were obtained, from the coordinator while it existed or from another
  signal at any time, and each of them can be polled;
* such a poll is ready exactly if the coordinator was triggered before or has gone, and after a poll
  that was ready every poll of every signal is ready, whatever is done in between;
* the coordinator, while it exists, tells that it was triggered exactly if it was;
* a wait that was left unfinished has been woken exactly if the shutdown has come;
* whatever is done, except for the first trigger and the coordinator’s going, changes no answer to
  what is done afterwards: not another trigger, not a poll, not a clone. -/
theorem reaches_everyone (h : create.run? as = some (xs, s)) :
    (∀ name, (s.receiver? name).isSome = true ↔
      .subscribe name ∈ as ∨ ∃ source, .clone name source ∈ as) ∧
    (s.shutdown.ready = true ↔ .trigger ∈ as ∨ .abandon ∈ as) ∧
    (∀ name, (s.receiver? name).isSome = true →
      ∃ t, s.act? (.poll name) = some (.polled s.shutdown.ready, t)) ∧
    (∀ name t, s.act? (.poll name) = some (.polled true, t) →
      ∀ bs ys u, t.run? bs = some (ys, u) → .polled false ∉ ys) ∧
    (s.shutdown.triggered = true ↔ .trigger ∈ as) ∧
    (.abandon ∉ as → s.act? .ask = some (.asked s.shutdown.triggered, s)) ∧
    (∀ name r, s.receiver? name = some r → r.waitingSince.isSome = true →
      (s.channel.sleeps r = false ↔ s.shutdown.ready = true)) ∧
    ∀ a x t, s.act? a = some (x, t) → a ≠ .abandon → (a = .trigger → .trigger ∈ as) →
      ∀ bs ys u, s.run? bs = some (ys, u) → ∃ v, t.run? bs = some (ys, v) := by
  obtain ⟨hs, htriggered, halive, hknown⟩ := sound_create.run h
  have htriggered : s.shutdown.triggered = true ↔ .trigger ∈ as :=
    htriggered.trans (or_iff_right Bool.false_ne_true)
  have halive : s.shutdown.alive = true ↔ .abandon ∉ as := halive.trans (and_iff_right rfl)
  refine ⟨fun name => ?_, ?_, fun name hname => ?_, fun name t hact bs ys u hrun => ?_, htriggered,
    fun hgoes => if_pos (halive.mpr hgoes), fun name r hr hwaits => ?_,
    fun a x t hact hgoes hagain bs ys u hrun => ?_⟩
  · rw [hknown, exists_obtains?_iff]
    exact or_iff_right Bool.false_ne_true
  · rw [ready_eq_true_iff, htriggered, halive, not_not]
  · obtain ⟨r, hr⟩ := Option.isSome_iff_exists.mp hname
    exact ⟨_, hs.act?_poll hr⟩
  · have hstep := step_of_act? hact
    obtain ⟨hpolled, hshutdown⟩ := Prod.mk.inj (hs.outcome_eq hstep)
    have hready : s.shutdown.ready = true := Answer.polled.inj hpolled
    exact (hs.step hstep).not_pending (hshutdown ▸ hready) hrun
  · rw [← Bool.not_eq_true, hs.sleeps_iff hr hwaits, Bool.not_eq_false]
  · obtain ⟨v, hrun', -⟩ := (hs.alike hact hgoes fun ha => htriggered.mpr (hagain ha)).run hrun
    exact ⟨v, hrun'⟩

/-- Signal 0 is left waiting and copied as signal 1 before the coordinator is triggered; signal 2 is
obtained afterwards. Then the coordinator is triggered again and goes. -/
def sleeperRun : List (Action Nat) :=
  [.subscribe 0, .poll 0, .clone 1 0, .trigger, .subscribe 2, .poll 1, .trigger, .abandon]

/-- In this run all three signals are ready at the end, the one that was left waiting has been
woken, and after a poll of it the others are ready still. -/
theorem reaches_everyone_sleeperRun : ∃ xs s r t, create.run? sleeperRun = some (xs, s) ∧
    (∀ name < 3, ∃ u, s.act? (.poll name) = some (.polled true, u)) ∧
    s.receiver? 0 = some r ∧ r.waitingSince.isSome = true ∧ s.channel.sleeps r = false ∧
    s.act? (.poll 0) = some (.polled true, t) ∧
    ∃ v, t.run? [.poll 2, .poll 1] = some ([.polled true, .polled true], v) := by
  obtain ⟨⟨xs, s⟩, hrun, hsleeper⟩ := Option.map_eq_some_iff.mp
    (show (create.run? sleeperRun).map (fun e => e.2.receiver? 0) = some (some ⟨0, some 0⟩) by
      decide)
  obtain ⟨hknown, hready, hpoll, -, -, -, hwoken, hsame⟩ := reaches_everyone hrun
  have hready : s.shutdown.ready = true := hready.mpr (by decide)
  have hpolls (name : Nat) (hname : name < 3) :
      ∃ u, s.act? (.poll name) = some (.polled true, u) := by
    have hobtained : Action.subscribe name ∈ sleeperRun ∨
        ∃ source, Action.clone name source ∈ sleeperRun := by
      match name, hname with
      | 0, _ | 2, _ => exact .inl (by decide)
      | 1, _ => exact .inr ⟨0, by decide⟩
    exact hready ▸ hpoll name ((hknown name).mpr hobtained)
  obtain ⟨t, ht⟩ := hpolls 0 (by decide)
  obtain ⟨⟨ys, u⟩, hrest, hys⟩ := Option.map_eq_some_iff.mp
    (show ((create.run? sleeperRun).bind (·.2.run? [.poll 2, .poll 1])).map (·.1) =
      some [.polled true, .polled true] by decide)
  rw [hrun, Option.bind_some] at hrest
  obtain rfl : ys = [.polled true, .polled true] := hys
  exact ⟨xs, s, _, t, hrun, hpolls, hsleeper, rfl, (hwoken 0 _ hsleeper rfl).mpr hready, ht,
    hsame _ _ t ht (by decide) (by decide) _ _ u hrest⟩

end Signals

end Shutdown

end TxDelivery
