import TxDelivery.Proofs.Queue.Account
import TxDelivery.Proofs.Shutdown

/-!
# Closing the queue

A service keeps of the coordinator of its queue only what all signals share, and a bookkeeper that
is idle may stop if this tells it to: exactly from the moment the queue was closed
(`TxDelivery.Service.History.isSome_stop?_iff`).

Each bookkeeper has in fact a signal of its own, which it obtains when it is started and polls when
it looks for something to do. **Nothing is lost by leaving the signals out**: every history is
matched by a run of a coordinator with the signals of all its bookkeepers
(`TxDelivery.Service.History.exists_signals`). They share what the service keeps, so that each of
them tells what the service tells, whenever it is polled
(`TxDelivery.Shutdown.Signals.Sound.act?_poll`).

The run is built along the history. What a step does with coordinator and signals is read off its
action (`TxDelivery.Service.Transition.signalAction?`), which is nothing for most of them, and a
state of the service is matched by a state of the signals (`TxDelivery.Service.MatchedBy`) if they
share the same, the coordinator is there, and the signals are those of the bookkeepers. One step
leads from matching states to matching states (`TxDelivery.Service.MatchedBy.step`).

The signals that are polled are ready every time, for a bookkeeper polls its signal in earnest only
when it stops. When it finds something to do instead the poll may be thought of as not made: a poll
leads to a state in which all signals answer as before.
-/

namespace TxDelivery

namespace Service

open Shutdown (Signals)

variable {κ : Type} [DecidableEq κ] {setup : Setup κ} {s t : Service κ} {a : Action κ}
  {seen : List Observation} {tr : List (Transition κ)} {b : BookkeeperId}

/-- Closing the queue triggers its coordinator, and nothing else does anything to it. -/
theorem shutdown_of_step? (h : s.step? setup a = some (t, seen)) :
    t.shutdown = if a = .close then s.shutdown.trigger else s.shutdown := by
  cases step_of_step? h with
  | operation h =>
    have hshutdown : t.shutdown = s.shutdown := by cases h <;> rfl
    rw [hshutdown, if_neg]
    rintro rfl
    cases h <;> rename_i href <;> cases href
  | delivery h =>
    have hshutdown : t.shutdown = s.shutdown := by cases h <;> rfl
    rw [hshutdown, if_neg]
    rintro rfl
    cases h <;> rename_i hends <;> cases hends
  | bookkeeper h => cases h <;> rfl
  | outside h => cases h <;> rfl

/-- **A bookkeeper is told to stop exactly if the queue was closed.** -/
theorem History.ready_iff (h : History setup .start tr s) :
    s.shutdown.ready = true ↔ ∃ e ∈ tr, e.action = .close := by
  have hshutdown : s.shutdown.alive = true ∧
      (s.shutdown.triggered = true ↔ ∃ e ∈ tr, e.action = .close) := by
    induction h with
    | nil => simp [start, Shutdown.create]
    | @snoc tr t u a seen _ hstep ih =>
      rw [shutdown_of_step? hstep]
      by_cases ha : a = .close
      · exact ⟨by simpa [ha, Shutdown.trigger] using ih.1, by simp [ha, Shutdown.trigger]⟩
      · simpa [ha] using ih
  rw [Shutdown.ready, hshutdown.1, Bool.not_true, Bool.or_false, hshutdown.2]

/-- **An idle bookkeeper may stop from the moment the queue was closed**, and not before. -/
theorem History.isSome_stop?_iff (h : History setup .start tr s) {k : Bookkeeper κ}
    (hk : s.bookkeepers[b]? = some k) (hidle : k.stage = .idle) :
    (s.stop? b).isSome = true ↔ ∃ e ∈ tr, e.action = .close := by
  rw [← h.ready_iff]
  cases hready : s.shutdown.ready <;> simp [stop?, hk, hidle, hready]

/-! ### The signals of the bookkeepers -/

/-- **What a step does with the coordinator and the signals**: a bookkeeper that starts obtains one,
under its own number, and polls it when it stops; closing the queue triggers the coordinator. -/
def Transition.signalAction? (e : Transition κ) : Option (Signals.Action BookkeeperId) :=
  match e.action with
  | .startBookkeeper => some (.subscribe e.before.bookkeepers.length)
  | .close => some .trigger
  | .stop b => some (.poll b)
  | _ => none

/-- **Signals match a service**: they share what the service keeps, and there is one for each
bookkeeper. -/
structure MatchedBy (s : Service κ) (c : Signals BookkeeperId) : Prop where
  /-- The signals are in order. -/
  sound : c.Sound
  /-- The coordinator exists. -/
  alive : c.shutdown.alive = true
  /-- They share what the service keeps. -/
  shutdown_eq : c.shutdown = s.shutdown
  /-- Each bookkeeper has its signal. -/
  known : ∀ b, (c.receiver? b).isSome = true ↔ b < s.bookkeepers.length

omit [DecidableEq κ] in
theorem matchedBy_create : (start : Service κ).MatchedBy .create where
  sound := Signals.sound_create
  alive := rfl
  shutdown_eq := rfl
  known b := by simp [Signals.create, Signals.receiver?, start]

/-- A step of a service that is nothing to its signals. -/
theorem MatchedBy.still {c : Signals BookkeeperId} (h : s.MatchedBy c)
    (hstep : s.step? setup a = some (t, seen)) (hclose : a ≠ .close)
    (hstart : a ≠ .startBookkeeper) : t.MatchedBy c where
  sound := h.sound
  alive := h.alive
  shutdown_eq := by rw [h.shutdown_eq, shutdown_of_step? hstep, if_neg hclose]
  known b := by rw [h.known, length_bookkeepers_of_step? hstep, if_neg hstart, Nat.add_zero]

/-- A bookkeeper obtains its signal as it starts. -/
theorem MatchedBy.started {c : Signals BookkeeperId} (h : s.MatchedBy c)
    (hstep : s.step? setup .startBookkeeper = some (t, seen)) :
    ∃ c', c.act? (.subscribe s.bookkeepers.length) = some (.done, c') ∧ t.MatchedBy c' := by
  have hact : c.act? (.subscribe s.bookkeepers.length) =
      some (.done, c.put s.bookkeepers.length c.channel.subscribe) := if_pos h.alive
  refine ⟨_, hact, h.sound.step (Signals.step_of_act? hact), h.alive, ?_, fun b => ?_⟩
  · rw [shutdown_of_step? hstep]
    exact h.shutdown_eq
  · rw [Signals.isSome_receiver?_put, h.known, length_bookkeepers_of_step? hstep, if_pos rfl,
      eq_comm (b := b)]
    exact Nat.lt_succ_iff_lt_or_eq.symm

/-- The coordinator is triggered as the queue is closed. -/
theorem MatchedBy.closed {c : Signals BookkeeperId} (h : s.MatchedBy c)
    (hstep : s.step? setup .close = some (t, seen)) :
    ∃ c', c.act? .trigger = some (.done, c') ∧ t.MatchedBy c' := by
  have hact : c.act? .trigger = some (.done, { c with channel := c.channel.replace true }) :=
    if_pos h.alive
  refine ⟨_, hact, h.sound.step (Signals.step_of_act? hact), h.alive, ?_, fun b => ?_⟩
  · rw [shutdown_of_step? hstep, if_pos rfl, ← h.shutdown_eq]
    rfl
  · rw [length_bookkeepers_of_step? hstep, if_neg (by simp), Nat.add_zero]
    exact h.known b

/-- The signal of a bookkeeper that stops is ready. -/
theorem MatchedBy.stopped {c : Signals BookkeeperId} (h : s.MatchedBy c)
    (hstep : s.step? setup (.stop b) = some (t, seen)) :
    ∃ c', c.act? (.poll b) = some (.polled true, c') ∧ t.MatchedBy c' := by
  obtain ⟨k, hk, hready⟩ : ∃ k, s.bookkeepers[b]? = some k ∧ s.shutdown.ready = true := by
    have hstop : BookkeeperStep setup s (.stop b) (t, seen) := bookkeeperStep_of_stop? hstep
    cases hstop with
    | stop hk _ hready => exact ⟨_, hk, hready⟩
  have hb : b < s.bookkeepers.length := (List.getElem?_eq_some_iff.mp hk).1
  obtain ⟨r, hr⟩ := Option.isSome_iff_exists.mp ((h.known b).mpr hb)
  have hact := h.sound.act?_poll hr
  rw [h.shutdown_eq, hready] at hact
  refine ⟨_, hact, h.sound.step (Signals.step_of_act? hact), h.alive, ?_, fun b' => ?_⟩
  · rw [shutdown_of_step? hstep, if_neg (by simp)]
    exact h.shutdown_eq
  · rw [Signals.isSome_receiver?_put, h.known, length_bookkeepers_of_step? hstep, if_neg (by simp),
      Nat.add_zero]
    exact or_iff_left_of_imp fun hb' => hb' ▸ hb

/-- **A step of a service is matched** by nothing, or by one thing that is done with its signals. -/
theorem MatchedBy.step {c : Signals BookkeeperId} (h : s.MatchedBy c)
    (hstep : s.step? setup a = some (t, seen)) :
    ∃ xs c', c.run? (Transition.signalAction? ⟨s, a, seen, t⟩).toList = some (xs, c') ∧
      t.MatchedBy c' ∧ .polled false ∉ xs := by
  cases a with
  | startBookkeeper =>
    obtain ⟨c', hact, hc'⟩ := h.started hstep
    exact ⟨_, c', Signals.run?_singleton hact, hc', by simp⟩
  | close =>
    obtain ⟨c', hact, hc'⟩ := h.closed hstep
    exact ⟨_, c', Signals.run?_singleton hact, hc', by simp⟩
  | stop b =>
    obtain ⟨c', hact, hc'⟩ := h.stopped hstep
    exact ⟨_, c', Signals.run?_singleton hact, hc', by simp⟩
  | _ => exact ⟨[], c, rfl, h.still hstep nofun nofun, List.not_mem_nil⟩

/-- **Every history is matched by a run of the signals of its bookkeepers**: they share what the
service keeps, and a bookkeeper stops only when its signal is ready. -/
theorem History.exists_signals (h : History setup .start tr s) :
    ∃ xs c, Signals.create.run? (tr.filterMap Transition.signalAction?) = some (xs, c) ∧
      s.MatchedBy c ∧ .polled false ∉ xs := by
  induction h with
  | nil => exact ⟨[], .create, rfl, matchedBy_create, List.not_mem_nil⟩
  | snoc _ hstep ih =>
    obtain ⟨xs, c, hrun, hc, hxs⟩ := ih
    obtain ⟨ys, c', hrun', hc', hys⟩ := hc.step hstep
    refine ⟨xs ++ ys, c', ?_, hc', by simp [hxs, hys]⟩
    rw [List.filterMap_append, List.filterMap_eq_flatMap_toList _ [_], List.flatMap_singleton]
    exact Signals.run?_append hrun hrun'

end Service

end TxDelivery
