import TxDelivery.Proofs.Step.Stage

/-!
# What deliveries can do

The steps of a delivery, that is, of its supervisor and its listener. A delivery either ends, in one
of three ways (`TxDelivery.Delivery.Ends`), or it proceeds (`TxDelivery.Delivery.Proceeds`), and
only its end concerns anything besides the delivery itself and the metrics. Both tables speak of the
delivery alone; `TxDelivery.Service.DeliveryStep` says what a service makes of them.

So most of what is proved of deliveries can be proved without services. An invariant of deliveries
is one of the two small tables, for one delivery in a config and at a time; the service around it
has the other deliveries, which stay as they are, and it is enough to see that once. Metrics are in
the table of proceeding since replacements are counted as they are accepted; the counts for an
outcome come with the end.

## How a delivery ends

The deadline passes while the supervisor waits, the listener has found a variant that is confirmed,
or an attempt at a replacement finds the price over the limit. Nothing else ends a delivery. That an
attempt fails for another reason, that the node refuses a replacement and that the listener breaks
down are ways to proceed.

Whatever the way, what follows is the same: the outcome is counted, published on its feed and handed
to the operation that waits, if there is one (`TxDelivery.Service.conclude_eq`). To whom is not the
delivery's business; it knows the operation by its number, and the table writes down that the
operation is put into its last stage (`TxDelivery.Service.handOver`). That this operation really
waits for this delivery is an invariant and not in the table.
-/

namespace TxDelivery

variable {κ : Type}

namespace Delivery

/-- **How a delivery ends**, and in which step. -/
inductive Ends (setup : Setup κ) (now : Nat) (d : DeliveryId) (x : Delivery) :
    Action κ → Outcome → Prop where
  /-- The deadline passed. -/
  | expire (hs : x.stage = .waiting) (hdue : x.deadline ≤ now) :
      Ends setup now d x (.expire d) (.failed ⟨x.current, .timeout setup.config.period⟩)
  /-- The listener found a final variant. -/
  | join {mined : SignedTx} (hs : x.stage = .waiting) (hjoined : x.joined = false)
      (hl : x.listener.stage = .returned (some mined)) :
      Ends setup now d x (.join d) (.confirmed ⟨mined, x.options.info⟩)
  /-- An escalation failed with an error that is not tried again. -/
  | giveUp {e : Escalation} {reply : Reply} {err : DeliveryError} (hs : x.stage = .replacing e)
      (hp : e.advance? setup.config.priceBumpPercent reply = some (.ended (.error err)))
      (herr : err.isTerminal = true) :
      Ends setup now d x (.reply (.supervisor d) reply) (.failed ⟨x.current, err⟩)

/-- **How a delivery proceeds**: the step, the delivery and the metrics afterwards, and what is
seen. -/
inductive Proceeds (setup : Setup κ) (now : Nat) (d : DeliveryId) (x : Delivery) (m : Metrics) :
    Action κ → Delivery → Metrics → List Observation → Prop where
  /-- The supervisor serves a tick. -/
  | tick (hs : x.stage = .waiting) (hdue : x.ticker.due ≤ now) :
      Proceeds setup now d x m (.tick d)
        { x with
          ticker := x.ticker.serve now
          stage := .replacing (.start x.current x.options) } m
        [.called (.supervisor d) .gasPrice]
  /-- The supervisor learns that the listener gave up. -/
  | note (hs : x.stage = .waiting) (hjoined : x.joined = false)
      (hl : x.listener.stage = .returned none) :
      Proceeds setup now d x m (.join d) { x with joined := true } m []
  /-- The supervisor learns that the listener stopped. -/
  | noteStopped (hs : x.stage = .waiting) (hjoined : x.joined = false)
      (hl : x.listener.stage = .stopped) :
      Proceeds setup now d x m (.join d) { x with joined := true } m [.logged .watchStopped]
  /-- An escalation asks for something else. -/
  | ask {e e' : Escalation} {reply : Reply} (hs : x.stage = .replacing e)
      (hp : e.advance? setup.config.priceBumpPercent reply = some (.asking e')) :
      Proceeds setup now d x m (.reply (.supervisor d) reply) { x with stage := .replacing e' } m
        [.called (.supervisor d) e'.call]
  /-- An escalation found no need of a replacement. -/
  | keep {e : Escalation} {reply : Reply} (hs : x.stage = .replacing e)
      (hp : e.advance? setup.config.priceBumpPercent reply = some (.ended (.ok none))) :
      Proceeds setup now d x m (.reply (.supervisor d) reply) { x with stage := .waiting } m
        [.logged .priceCompetitive]
  /-- An escalation made a replacement, which is broadcast. -/
  | broadcast {e : Escalation} {reply : Reply} {replacement : SignedTx}
      (hs : x.stage = .replacing e)
      (hp : e.advance? setup.config.priceBumpPercent reply =
        some (.ended (.ok (some replacement)))) :
      Proceeds setup now d x m (.reply (.supervisor d) reply)
        { x with stage := .rebroadcasting replacement } m
        [.called (.supervisor d) (.broadcast replacement)]
  /-- An escalation failed and is tried again at the next tick. -/
  | retry {e : Escalation} {reply : Reply} {err : DeliveryError} (hs : x.stage = .replacing e)
      (hp : e.advance? setup.config.priceBumpPercent reply = some (.ended (.error err)))
      (herr : err.isTerminal = false) :
      Proceeds setup now d x m (.reply (.supervisor d) reply) { x with stage := .waiting } m
        [.logged .replacementFailed]
  /-- The node accepted a replacement. -/
  | adopt {replacement : SignedTx} {hash : Hash} (hs : x.stage = .rebroadcasting replacement) :
      Proceeds setup now d x m (.reply (.supervisor d) (.accepted hash)) (x.adopt replacement)
        ((m.increment (.rebroadcast true)).recordPrice replacement.tx.gasPrice)
        [.logged .rebroadcast]
  /-- The node refused a replacement. -/
  | reject {replacement : SignedTx} {e : ChainError} (hs : x.stage = .rebroadcasting replacement) :
      Proceeds setup now d x m (.reply (.supervisor d) (.failed e)) { x with stage := .waiting }
        (m.increment (.rebroadcast false)) [.logged .rebroadcastRejected]
  /-- The listener receives a variant. -/
  | receive {l : Listener} (hl : x.listener.receive? = some l) :
      Proceeds setup now d x m (.receive d) { x with listener := l } m
        (l.call?.toList.map (.called (.listener d)))
  /-- The listener serves a tick. -/
  | poll {l : Listener} (hl : x.listener.poll? now = some l) :
      Proceeds setup now d x m (.poll d) { x with listener := l } m
        (l.call?.toList.map (.called (.listener d)))
  /-- The listener gives up at the deadline. -/
  | lapse {l : Listener} (hl : x.listener.lapse? now x.deadline = some l) :
      Proceeds setup now d x m (.lapse d) { x with listener := l } m
        (.logged .watchLapsed :: l.call?.toList.map (.called (.listener d)))
  /-- The listener breaks down. -/
  | crash (hl : x.listener.isOver = false) :
      Proceeds setup now d x m (.crash d) { x with listener := x.listener.stop } m []
  /-- The listener goes on with a reply. -/
  | answer {l : Listener} {log : List LogEvent} {reply : Reply}
      (hl : x.listener.advance? setup.config.confirmHeight reply = some (l, log)) :
      Proceeds setup now d x m (.reply (.listener d) reply) { x with listener := l } m
        (log.map .logged ++ l.call?.toList.map (.called (.listener d)))

end Delivery

namespace Listener

variable {l : Listener}

theorem result?_eq_ok_iff {mined : Option SignedTx} :
    l.result? = some (.ok mined) ↔ l.stage = .returned mined := by
  cases hl : l.stage <;> simp [result?, hl]

theorem result?_eq_error_iff : l.result? = some (.error ()) ↔ l.stage = .stopped := by
  cases hl : l.stage <;> simp [result?, hl]

theorem isOver_stop (l : Listener) : l.stop.isOver = true := by
  cases hl : l.stage <;> simp [stop, isOver, hl]

/-- A watch that is over asks nothing. -/
theorem call?_of_isOver (h : l.isOver = true) : l.call? = none := by
  cases hl : l.stage <;> simp [isOver, call?, hl] at h ⊢

theorem call?_stop (l : Listener) : l.stop.call? = none := call?_of_isOver l.isOver_stop

end Listener

theorem Delivery.isWaiting_iff {x : Delivery} : x.isWaiting = true ↔ x.stage = .waiting := by
  simp [isWaiting]

namespace Service

open Operation Delivery

/-- The operations once a delivery has ended: who waits for the outcome gets it. -/
def handOver (ops : List (Operation κ)) (owner : Option OperationId) (outcome : Outcome) :
    List (Operation κ) :=
  match owner with
  | none => ops
  | some i => put ops i (.ended (.delivered outcome))

/-- **The steps of deliveries.** -/
inductive DeliveryStep (setup : Setup κ) (s : Service κ) : Action κ → Move κ → Prop where
  /-- A delivery ends: the outcome is counted, published and handed over. -/
  | conclude {d : DeliveryId} {x : Delivery} {a : Action κ} {outcome : Outcome}
      (hx : s.deliveries[d]? = some x) (hends : x.Ends setup s.now d a outcome) :
      DeliveryStep setup s a
        ({ s with
            operations := handOver s.operations x.owner outcome
            confirms := (s.publish outcome).confirms
            errors := (s.publish outcome).errors
            deliveries := s.deliveries.set d
              { x with stage := .ended outcome, listener := x.listener.stop }
            metrics := s.metrics.increment (.outcome outcome.kind) },
         [.logged (outcomeLog outcome), .published d outcome])
  /-- A delivery proceeds. -/
  | proceed {d : DeliveryId} {x x' : Delivery} {a : Action κ} {m : Metrics}
      {seen : List Observation} (hx : s.deliveries[d]? = some x)
      (hproceeds : x.Proceeds setup s.now d s.metrics a x' m seen) :
      DeliveryStep setup s a
        ({ s with deliveries := s.deliveries.set d x', metrics := m }, seen)

/-! ### Every step of a delivery is in the table -/

variable {setup : Setup κ} {s : Service κ} {m : Move κ} {d : DeliveryId} {x : Delivery}

/-- **The end of a delivery written out.** -/
theorem conclude_eq (outcome : Outcome) :
    s.conclude d x outcome =
      ({ s with
          operations := handOver s.operations x.owner outcome
          confirms := (s.publish outcome).confirms
          errors := (s.publish outcome).errors
          deliveries := s.deliveries.set d
            { x with stage := .ended outcome, listener := x.listener.stop }
          metrics := s.metrics.increment (.outcome outcome.kind) },
       [.logged (outcomeLog outcome), .published d outcome]) := by
  cases outcome <;> cases howner : x.owner <;>
    simp only [conclude, publish, deliverTo, finish, setOperation, setDelivery, Service.count,
      handOver, howner, put]

/-- A delivery that ends in one of the three ways. -/
theorem deliveryStep_conclude {a : Action κ} {outcome : Outcome}
    (hx : s.deliveries[d]? = some x) (hends : x.Ends setup s.now d a outcome) :
    DeliveryStep setup s a (s.conclude d x outcome) := by
  rw [conclude_eq]
  exact .conclude hx hends

theorem deliveryStep_of_tick? (h : s.tick? d = some m) : DeliveryStep setup s (.tick d) m := by
  obtain ⟨x, hx, hm⟩ := Option.bind_eq_some_iff.mp h
  simp only [Option.ite_none_right_eq_some, Bool.and_eq_true, Ticker.isDue, decide_eq_true_eq,
    isWaiting_iff] at hm
  obtain ⟨⟨hs, hdue⟩, hm⟩ := hm
  exact Option.some.inj hm ▸ .proceed hx (.tick hs hdue)

theorem deliveryStep_of_expire? (h : s.expire? setup d = some m) :
    DeliveryStep setup s (.expire d) m := by
  obtain ⟨x, hx, hm⟩ := Option.bind_eq_some_iff.mp h
  simp only [Option.ite_none_right_eq_some, Bool.and_eq_true, decide_eq_true_eq,
    isWaiting_iff] at hm
  obtain ⟨⟨hs, hdue⟩, hm⟩ := hm
  exact Option.some.inj hm ▸ deliveryStep_conclude hx (.expire hs hdue)

theorem deliveryStep_of_join? (h : s.join? d = some m) : DeliveryStep setup s (.join d) m := by
  obtain ⟨x, hx, hm⟩ := Option.bind_eq_some_iff.mp h
  simp only [Option.ite_none_right_eq_some, Bool.and_eq_true, Bool.not_eq_true',
    isWaiting_iff] at hm
  obtain ⟨⟨hs, hjoined⟩, hm⟩ := hm
  obtain ⟨result, hresult, hm⟩ := Option.bind_eq_some_iff.mp hm
  rcases result with ⟨⟩ | _ | mined
  · have hl := Listener.result?_eq_error_iff.mp hresult
    exact Option.some.inj hm ▸ .proceed hx (.noteStopped hs hjoined hl)
  · have hl := Listener.result?_eq_ok_iff.mp hresult
    exact Option.some.inj hm ▸ .proceed hx (.note hs hjoined hl)
  · have hl := Listener.result?_eq_ok_iff.mp hresult
    exact Option.some.inj hm ▸ deliveryStep_conclude hx (.join hs hjoined hl)

/-- **What a reply makes of an escalation** of a supervised delivery. -/
theorem deliveryStep_of_escalate {e : Escalation} {reply : Reply} {progress : Escalation.Progress}
    (hx : s.deliveries[d]? = some x) (hs : x.stage = .replacing e)
    (hp : e.advance? setup.config.priceBumpPercent reply = some progress) :
    DeliveryStep setup s (.reply (.supervisor d) reply) (s.escalate d x progress) := by
  cases progress with
  | asking e' => exact .proceed hx (.ask hs hp)
  | ended result =>
    rcases result with err | _ | replacement
    · cases herr : err.isTerminal with
      | true =>
        simp only [escalate, herr, if_true]
        exact deliveryStep_conclude hx (.giveUp hs hp herr)
      | false =>
        simp only [escalate, herr, Bool.false_eq_true, if_false]
        exact .proceed hx (.retry hs hp herr)
    · exact .proceed hx (.keep hs hp)
    · exact .proceed hx (.broadcast hs hp)

theorem deliveryStep_of_replySupervisor? {reply : Reply}
    (h : s.replySupervisor? setup d reply = some m) :
    DeliveryStep setup s (.reply (.supervisor d) reply) m := by
  obtain ⟨x, hx, hm⟩ := Option.bind_eq_some_iff.mp h
  split at hm
  case h_1 e hs =>
    obtain ⟨progress, hp, hm⟩ := Option.bind_eq_some_iff.mp hm
    exact Option.some.inj hm ▸ deliveryStep_of_escalate hx hs hp
  case h_2 replacement hash hs => exact Option.some.inj hm ▸ .proceed hx (.adopt hs)
  case h_3 replacement e hs => exact Option.some.inj hm ▸ .proceed hx (.reject hs)
  case h_4 => contradiction

theorem deliveryStep_of_receive? (h : s.receive? d = some m) :
    DeliveryStep setup s (.receive d) m := by
  obtain ⟨x, hx, hm⟩ := Option.bind_eq_some_iff.mp h
  obtain ⟨l, hl, hm⟩ := Option.bind_eq_some_iff.mp hm
  exact Option.some.inj hm ▸ .proceed hx (.receive hl)

theorem deliveryStep_of_poll? (h : s.poll? d = some m) : DeliveryStep setup s (.poll d) m := by
  obtain ⟨x, hx, hm⟩ := Option.bind_eq_some_iff.mp h
  obtain ⟨l, hl, hm⟩ := Option.bind_eq_some_iff.mp hm
  exact Option.some.inj hm ▸ .proceed hx (.poll hl)

theorem deliveryStep_of_lapse? (h : s.lapse? d = some m) : DeliveryStep setup s (.lapse d) m := by
  obtain ⟨x, hx, hm⟩ := Option.bind_eq_some_iff.mp h
  obtain ⟨l, hl, hm⟩ := Option.bind_eq_some_iff.mp hm
  exact Option.some.inj hm ▸ .proceed hx (.lapse hl)

theorem deliveryStep_of_crash? (h : s.crash? d = some m) : DeliveryStep setup s (.crash d) m := by
  obtain ⟨x, hx, hm⟩ := Option.bind_eq_some_iff.mp h
  obtain ⟨l, hl, hm⟩ := Option.bind_eq_some_iff.mp hm
  rw [Listener.crash?, Option.ite_none_left_eq_some, Bool.not_eq_true] at hl
  obtain ⟨hover, hl⟩ := hl
  obtain rfl := Option.some.inj hl
  rw [setListener, Listener.call?_stop] at hm
  exact Option.some.inj hm ▸ .proceed hx (.crash hover)

theorem deliveryStep_of_replyListener? {reply : Reply}
    (h : s.replyListener? setup d reply = some m) :
    DeliveryStep setup s (.reply (.listener d) reply) m := by
  obtain ⟨x, hx, hm⟩ := Option.bind_eq_some_iff.mp h
  obtain ⟨⟨l, log⟩, hl, hm⟩ := Option.bind_eq_some_iff.mp hm
  exact Option.some.inj hm ▸ .proceed hx (.answer hl)

end Service

end TxDelivery
