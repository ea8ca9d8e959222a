import TxDelivery.Proofs.Delivery.Confirmed
import TxDelivery.Proofs.Delivery.Dialogue
import TxDelivery.Proofs.Delivery.Variants

/-!
# What a confirmation rests on

Between the chain's word that a variant is final and the event that says so lie the rest of the
listener's look, the moment its supervisor learns of it, and whatever else happens in between, with
new variants accepted all the while. **The event names the variant the chain spoke of nevertheless**
(`TxDelivery.Service.History.confirmation_sound`): from the first answer on, the listener's stage
holds the variant it is about, and the dialogue of the look says what the chain answered.

## The invariant

`TxDelivery.Listener.Backed` pairs the stage of a listener with its dialogue since the last poll. A
stage at which a head is asked for has a receipt of its variant as the last answer, a stage at which
something has been found has the receipt and the head as the last two; a listener that looks at
nothing claims nothing. Every reply is what the next stage rests on
(`TxDelivery.Listener.Backed.answer`), and that is the only step in which the dialogue grows, for
nobody else's replies are in it.

That the variant is one of the two in the ring is an invariant of its own
(`TxDelivery.Delivery.looked_invariant`). A look begins with the ring, and the listener receives
only between its looks; so the ring does not turn under a look, however many variants are accepted
and put into the channel meanwhile. What the event names is therefore among the last two received,
and by the agreement of listener and supervisor among those accepted.

The depth is compared as the program does it, with a sum that stops at the largest height
(`TxDelivery.Receipt.isConfirmed_iff`).
-/

namespace TxDelivery

variable {κ : Type}

/-- When a receipt is final. -/
theorem Receipt.isConfirmed_iff {receipt : Receipt} {depth head : UInt64} :
    receipt.isConfirmed depth head = true ↔ receipt.succeeded = true ∧
      min (receipt.block.toNat + depth.toNat) (UInt64.size - 1) ≤ head.toNat := by
  rw [isConfirmed, Bool.and_eq_true, decide_eq_true_eq]

namespace Listener

/-- **What a listener's stage rests on**: the dialogue since its last tick says what the chain
answered about the variant it is at. -/
inductive Backed (depth : UInt64) : Option (List (Call × Reply)) → Stage → Prop where
  /-- The listener looks at nothing. -/
  | idle {dialogue : Option (List (Call × Reply))} {stage : Stage} (h : stage.variants = []) :
      Backed depth dialogue stage
  /-- A receipt is asked for. -/
  | querying {told : List (Call × Reply)} {tx : SignedTx} {rest : List SignedTx} :
      Backed depth (some told) (.querying tx rest)
  /-- There was a receipt. -/
  | weighing {told : List (Call × Reply)} {tx : SignedTx} {receipt : Receipt}
      {rest : List SignedTx} :
      Backed depth (some (told ++ [(.receipt tx.hash, .receipt (some receipt))]))
        (.weighing tx receipt rest)
  /-- There was a receipt, and then a height at which it was final. -/
  | returned {told : List (Call × Reply)} {tx : SignedTx} {receipt : Receipt} {head : UInt64}
      (h : receipt.isConfirmed depth head = true) :
      Backed depth
        (some (told ++ [(.receipt tx.hash, .receipt (some receipt)), (.head, .head head)]))
        (.returned (some tx))

namespace Backed

variable {depth : UInt64} {told : List (Call × Reply)} {dialogue : Option (List (Call × Reply))}
  {l l' : Listener}

/-- A listener that looks at something has begun a dialogue. -/
theorem exists_told {stage : Stage} (h : Backed depth dialogue stage) (hne : stage.variants ≠ []) :
    ∃ told, dialogue = some told := by
  cases h with
  | idle h => exact absurd h hne
  | _ => exact ⟨_, rfl⟩

/-- A look that begins or goes on to the next variant. -/
theorem examine (txs : List SignedTx) : Backed depth (some told) (Listener.examine txs) := by
  cases txs with
  | nil => exact .idle rfl
  | cons tx rest => exact .querying

/-- A listener that is stopped has what it had, or nothing. -/
theorem stop (h : Backed depth dialogue l.stage) : Backed depth dialogue l.stop.stage := by
  unfold Listener.stop
  split
  · exact h
  · exact .idle rfl

/-- **A reply is what the next stage rests on.** -/
theorem answer {call : Call} {reply : Reply} {log : List LogEvent}
    (h : Backed depth (some told) l.stage) (hcall : l.call? = some call)
    (hl : l.advance? depth reply = some (l', log)) :
    Backed depth (some (told ++ [(call, reply)])) l'.stage := by
  unfold Listener.advance? at hl
  split at hl
  case h_1 tx rest receipt hs =>
    obtain rfl : .receipt tx.hash = call := by simpa [Listener.call?, hs] using hcall
    rw [← (Prod.mk.inj (Option.some.inj hl)).1]
    exact .weighing
  case h_4 tx receipt rest head hs =>
    obtain rfl : .head = call := by simpa [Listener.call?, hs] using hcall
    rw [hs] at h
    split at hl
    · rw [← (Prod.mk.inj (Option.some.inj hl)).1]
      exact examine rest
    · split at hl
      case isTrue hconfirmed =>
        rw [← (Prod.mk.inj (Option.some.inj hl)).1]
        generalize hd : some told = dialogue at h
        cases h with
        | idle h => exact absurd h (by simp [Stage.variants])
        | weighing =>
          obtain rfl := Option.some.inj hd
          rw [List.append_assoc]
          exact .returned hconfirmed
      case isFalse =>
        rw [← (Prod.mk.inj (Option.some.inj hl)).1]
        exact examine rest
  case h_6 => contradiction
  all_goals
    rw [← (Prod.mk.inj (Option.some.inj hl)).1]
    exact examine _

end Backed

/-- A listener that asks something looks at something. -/
theorem variants_ne_nil_of_call? {l : Listener} {call : Call} (h : l.call? = some call) :
    l.stage.variants ≠ [] := by
  cases hs : l.stage <;> simp [call?, hs, Stage.variants] at h ⊢

/-- A listener that goes on with a reply was asking something. -/
theorem exists_call?_of_advance? {l l' : Listener} {depth : UInt64} {reply : Reply}
    {log : List LogEvent} (h : l.advance? depth reply = some (l', log)) :
    ∃ call, l.call? = some call := by
  cases hs : l.stage with
  | querying tx rest => exact ⟨.receipt tx.hash, by simp only [call?, hs]⟩
  | weighing tx receipt rest => exact ⟨.head, by simp only [call?, hs]⟩
  | _ => simp [advance?, hs] at h

end Listener

namespace Delivery

/-- **A listener looks at variants it has at hand.** -/
theorem looked_invariant {setup : Setup κ} :
    Invariant setup fun x => ∀ tx ∈ x.listener.stage.variants, tx ∈ x.listener.recent.toList where
  start _ _ _ _ _ tx htx := absurd htx List.not_mem_nil
  ends {_ _ x _ _} _ ih tx htx := by
    rw [close, Listener.kept_stop.1.2]
    exact ih tx (Listener.kept_stop.2 tx htx)
  proceeds {_ _ x _ _ _ _ _} h ih tx htx := by
    cases h with
    | tick | note | noteStopped | ask | keep | broadcast | retry | adopt | reject => exact ih tx htx
    | receive hl =>
      obtain ⟨-, -, -, -, hwaiting⟩ := Listener.of_receive? hl
      simp [hwaiting, Listener.Stage.variants] at htx
    | poll hl =>
      obtain ⟨hkept, hstage⟩ := Listener.kept_of_poll? hl
      exact hkept.2 ▸ hstage ▸ htx
    | lapse hl =>
      obtain ⟨-, hstage⟩ := Listener.kept_of_lapse? hl
      exact absurd (hstage ▸ htx) List.not_mem_nil
    | crash =>
      obtain ⟨hkept, hstage⟩ := x.listener.kept_stop
      exact hkept.2 ▸ ih tx (hstage tx htx)
    | answer hl =>
      obtain ⟨hkept, hstage⟩ := Listener.kept_of_advance? hl
      exact hkept.2 ▸ ih tx (hstage tx htx)
  abandon {x} ih tx htx := by
    rw [abandon, Listener.kept_stop.1.2]
    exact ih tx (Listener.kept_stop.2 tx htx)

end Delivery

namespace Service

variable [DecidableEq κ] {setup : Setup κ} {s t : Service κ} {tr pre post : List (Transition κ)}
  {d : DeliveryId} {x x' : Delivery} {a : Action κ} {seen : List Observation}
  {e : Transition κ} {event : ConfirmEvent}

open Listener

omit [DecidableEq κ] in
/-- **A delivery that proceeds keeps what its listener's stage rests on.** -/
theorem backed_of_proceeds {m' : Metrics}
    (hx : s.deliveries[d]? = some x)
    (h : x.Proceeds setup s.now d s.metrics a x' m' seen)
    (hbacked : Backed setup.config.confirmHeight (dialogue setup (.listener d) tr)
      x.listener.stage) :
    Backed setup.config.confirmHeight
      (dialogue setup (.listener d) (tr ++ [⟨s, a, seen, t⟩])) x'.listener.stage := by
  -- Unless the listener serves a tick or gets a reply its dialogue stays as it is.
  have hother (hticks : a.ticks? ≠ some (.listener d)) (hreply : ∀ r, a ≠ .reply (.listener d) r)
      (hstage : x'.listener.stage = x.listener.stage) :
      Backed setup.config.confirmHeight
        (dialogue setup (.listener d) (tr ++ [⟨s, a, seen, t⟩])) x'.listener.stage := by
    rw [dialogue_of_other hticks hreply, hstage]
    exact hbacked
  cases h with
  | tick | note | noteStopped | ask | keep | broadcast | retry | adopt | reject =>
    exact hother (by simp [Action.ticks?]) (by simp) rfl
  | receive hl =>
    obtain ⟨-, -, -, -, hwaiting⟩ := Listener.of_receive? hl
    exact .idle (by rw [hwaiting]; rfl)
  | poll hl =>
    obtain ⟨-, hl⟩ := Option.ite_none_right_eq_some.mp hl
    rw [dialogue_of_ticks rfl, ← Option.some.inj hl]
    exact .examine _
  | lapse hl => exact .idle (Listener.kept_of_lapse? hl).2
  | crash =>
    rw [dialogue_of_other (by simp [Action.ticks?]) (by simp)]
    exact hbacked.stop
  | @answer l log reply hl =>
    obtain ⟨call, hcall⟩ := Listener.exists_call?_of_advance? hl
    have hpending : s.pending? setup (.listener d) = some call := by
      simp only [pending?, hx, Option.bind_eq_bind, Option.bind_some, hcall]
    obtain ⟨told, htold⟩ := hbacked.exists_told (Listener.variants_ne_nil_of_call? hcall)
    rw [dialogue_of_reply rfl hpending htold]
    exact (htold ▸ hbacked).answer hcall hl

/-- **At every moment the chain has answered what a listener's stage says.** -/
theorem History.backed (h : History setup .start tr s) (hx : s.deliveries[d]? = some x) :
    Backed setup.config.confirmHeight (dialogue setup (.listener d) tr) x.listener.stage := by
  induction h generalizing x with
  | nil => simp [Service.start] at hx
  | @snoc tr t u a seen h hstep ih =>
    have hsame {y : Delivery} (hy : u.deliveries[d]? = some y) : y = x :=
      Option.some.inj (hy.symm.trans hx)
    cases deliveryTurn_of_step? hstep d with
    | other ha ht =>
      rw [(dialogue_of_delivery?_ne ha).2]
      exact ih (ht ▸ hx)
    | launched ha _ _ _ ht =>
      obtain rfl := hsame ht
      exact .idle rfl
    | abandoned ha hy ht =>
      obtain rfl := hsame ht
      rw [(dialogue_of_delivery?_ne ha).2]
      exact (ih hy).stop
    | proceeded hy hproceeds ht =>
      obtain rfl := hsame ht
      exact backed_of_proceeds hy hproceeds (ih hy)
    | ended hy hends ht =>
      obtain rfl := hsame ht
      have hother : dialogue setup (.listener d) (tr ++ [⟨t, a, seen, u⟩]) =
          dialogue setup (.listener d) tr := by
        cases hends <;> exact dialogue_of_other (by simp [Action.ticks?]) (by simp)
      rw [hother]
      exact (ih hy).stop

/-- **Confirmations are sound.** Whenever a transaction is published as confirmed for a delivery,

* it is one of the signed variants the node accepted for this delivery, and one of the last two that
  the delivery's listener has received;
* the last two answers that the listener got in its last look are a receipt for the hash of this
  variant, of an execution that succeeded, and a height at which the receipt's block is deep enough;
* the label is the one the caller passed who asked for the delivery. -/
theorem History.confirmation_sound (h : History setup .start (pre ++ e :: post) s)
    (hpublished : .published d (.confirmed event) ∈ e.seen) :
    event.tx ∈ variants setup d pre ∧ event.tx ∈ (received d pre).reverse.take 2 ∧
    (∃ told receipt head, dialogue setup (.listener d) pre = some (told ++
        [(.receipt event.tx.hash, .receipt (some receipt)), (.head, .head head)]) ∧
      receipt.succeeded = true ∧
      min (receipt.block.toNat + setup.config.confirmHeight.toNat) (UInt64.size - 1) ≤
        head.toNat) ∧
    ∃ i options, (∃ e' ∈ pre, e'.Launches i d) ∧
      (e.before.request? i).bind Request.options? = some options ∧ event.info = options.info := by
  obtain ⟨hpre, hstep, -⟩ := h.around
  obtain ⟨⟨x, hx, hends⟩, -⟩ := ends_of_published hstep hpublished
  obtain ⟨hl, hinfo⟩ := hends.confirmed
  have hwatch := (hpre.watched d).since x hx
  have hrecent : event.tx ∈ (received d pre).reverse.take 2 := by
    refine hwatch.mem_recent.mp (hpre.delivery Delivery.looked_invariant hx _ ?_)
    rw [hl]
    exact Option.mem_toList.mpr rfl
  obtain ⟨i, hlaunch, hoptions⟩ := hpre.exists_launches_options hx
  refine ⟨hwatch.mem_variants ?_, hrecent, ?_, i, x.options, hlaunch, hoptions, hinfo⟩
  · exact List.mem_reverse.mp (List.mem_of_mem_take hrecent)
  · have hbacked := hpre.backed hx
    rw [hl] at hbacked
    generalize hd : dialogue setup (.listener d) pre = dialogue at hbacked
    cases hbacked with
    | idle h => exact absurd h (by simp [Stage.variants])
    | returned hconfirmed =>
      obtain ⟨hsucceeded, hdeep⟩ := Receipt.isConfirmed_iff.mp hconfirmed
      exact ⟨_, _, _, rfl, hsucceeded, hdeep⟩

/-- A run in which the replacement of a transaction is confirmed, its first variant being too
shallow. -/
def replacementConfirmedRun : List (Action Unit) :=
  replacedRun ++ [.wait 5000, .poll 0, .reply (.listener 0) (.receipt (some ⟨4, 10, true⟩)),
    .reply (.listener 0) (.head 9), .reply (.listener 0) (.receipt (some ⟨20, 10, true⟩)),
    .reply (.listener 0) (.head 13), .join 0]

/-- What is confirmed in this run is the replacement. -/
theorem confirmation_sound_replacementConfirmedRun :
    ∃ (pre : List (Transition Unit)) (e : Transition Unit) (s : Service Unit),
      History sampleSetup .start (pre ++ [e]) s ∧
      (pre ++ [e]).map (·.action) = replacementConfirmedRun ∧
      .published 0 (.confirmed ⟨sampleReplacement, ""⟩) ∈ e.seen ∧
      sampleReplacement ∈ variants sampleSetup 0 pre ∧
      sampleReplacement ∈ (received 0 pre).reverse.take 2 ∧
      ∃ told receipt head, dialogue sampleSetup (.listener 0) pre = some (told ++
          [(.receipt 20, .receipt (some receipt)), (.head, .head head)]) ∧
        receipt.succeeded = true ∧
        min (receipt.block.toNat + 3) (UInt64.size - 1) ≤ head.toNat := by
  have hrun : (start.trace? sampleSetup replacementConfirmedRun).map
      (fun r => r.1.getLast?.map (·.seen)) =
      some (some [.logged .confirmed, .published 0 (.confirmed ⟨sampleReplacement, ""⟩)]) := by
    decide
  obtain ⟨tr, s, h, has, hlast⟩ := exists_history hrun
  obtain ⟨e, he, hseen⟩ := Option.map_eq_some_iff.mp hlast
  obtain ⟨pre, rfl⟩ : ∃ pre, tr = pre ++ [e] := ⟨_, (List.dropLast_append_getLast? e he).symm⟩
  have hpublished : .published 0 (.confirmed ⟨sampleReplacement, ""⟩) ∈ e.seen := by
    rw [hseen]
    exact List.mem_cons_of_mem _ (List.mem_singleton_self _)
  obtain ⟨hvariant, hrecent, hevidence, -⟩ := h.confirmation_sound hpublished
  exact ⟨pre, e, s, h, has, hpublished, hvariant, hrecent, hevidence⟩

end Service

end TxDelivery
