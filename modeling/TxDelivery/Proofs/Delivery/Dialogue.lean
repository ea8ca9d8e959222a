import TxDelivery.Proofs.Delivery.Life

/-!
# What a delivery is told

The supervisor and the listener of a delivery work from tick to tick: each tick opens a dialogue
with the chain and the signer, in which one question follows the other
(`TxDelivery.Service.dialogue`). **The dialogue is read off the steps of a run alone**, so that it
can stand as evidence for what the two made of it.

State would not do as evidence. A supervisor that is about to broadcast knows the replacement, but
not what the market price was from which it was computed, and a listener that returned a variant has
forgotten the receipt. A statement such as “the price was at least the market's” therefore speaks of
the dialogue, and what relates the two are invariants that pair a stage with a dialogue, one for the
supervisor and one for the listener.

For such an invariant to be an induction on the run, it has to be said what one more step does to a
dialogue. There are three cases:

* a tick opens a new one (`TxDelivery.Service.dialogue_of_ticks`);
* a reply adds to it what was asked and what was told (`TxDelivery.Service.dialogue_of_reply`);
* everything else leaves it (`TxDelivery.Service.dialogue_of_other`), and the steps of another
  delivery are among that (`TxDelivery.Service.dialogue_of_delivery?_ne`).

A step that belongs to a delivery (`TxDelivery.Action.delivery?`) ends it or lets it proceed; all
other steps leave it where it is, with its dialogues, but for its start and for a caller who drops
it (`TxDelivery.Service.DeliveryTurn`). This is the case distinction of those inductions. It refines
the one on what happens to a delivery by whose step it was, and it is what tells that a party that
was not addressed has heard nothing.
-/

namespace TxDelivery

variable {κ : Type}

/-- The delivery whose supervisor or listener takes a step. -/
def Action.delivery? : Action κ → Option DeliveryId
  | .tick d | .expire d | .join d | .receive d | .poll d | .lapse d | .crash d
  | .reply (.supervisor d) _ | .reply (.listener d) _ => some d
  | _ => none

/-- The party that serves a tick. -/
def Action.ticks? : Action κ → Option Party
  | .tick d => some (.supervisor d)
  | .poll d => some (.listener d)
  | _ => none

namespace Delivery

variable {setup : Setup κ} {now : Nat} {d : DeliveryId} {x x' : Delivery} {m m' : Metrics}
  {a : Action κ} {seen : List Observation} {outcome : Outcome}

/-- A delivery ends by a step of its own. -/
theorem Ends.delivery?_action (h : x.Ends setup now d a outcome) : a.delivery? = some d := by
  cases h <;> rfl

/-- A delivery proceeds by a step of its own. -/
theorem Proceeds.delivery?_action (h : x.Proceeds setup now d m a x' m' seen) :
    a.delivery? = some d := by
  cases h <;> rfl

end Delivery

namespace Service

/-! ### Dialogues -/

/-- What a party asked and is told in a step. -/
def Transition.exchange? (setup : Setup κ) (who : Party) (e : Transition κ) :
    Option (Call × Reply) :=
  match e.action with
  | .reply who' reply =>
    if who' = who then (e.before.pending? setup who).map (·, reply) else none
  | _ => none

/-- **The dialogue of a party since its last tick**: what it asked and was told, in order. There is
none before the first tick. -/
def dialogue (setup : Setup κ) (who : Party) (tr : List (Transition κ)) :
    Option (List (Call × Reply)) :=
  tr.foldl (fun told e =>
    if e.action.ticks? = some who then some []
    else told.map (· ++ (e.exchange? setup who).toList)) none

variable {setup : Setup κ} {s t : Service κ} {tr : List (Transition κ)} {d : DeliveryId}
  {x : Delivery} {a : Action κ} {seen : List Observation} {e : Transition κ} {who : Party}
  {told : List (Call × Reply)}

theorem dialogue_concat : dialogue setup who (tr ++ [e]) =
    if e.action.ticks? = some who then some []
    else (dialogue setup who tr).map (· ++ (e.exchange? setup who).toList) := by
  rw [dialogue, List.foldl_append]
  rfl

/-- A tick opens a dialogue. -/
theorem dialogue_of_ticks (h : e.action.ticks? = some who) :
    dialogue setup who (tr ++ [e]) = some [] := by
  rw [dialogue_concat, if_pos h]

/-- A reply continues the dialogue. -/
theorem dialogue_of_reply {reply : Reply} {call : Call} (h : e.action = .reply who reply)
    (hcall : e.before.pending? setup who = some call) (htold : dialogue setup who tr = some told) :
    dialogue setup who (tr ++ [e]) = some (told ++ [(call, reply)]) := by
  have hticks : e.action.ticks? ≠ some who := by rw [h]; simp [Action.ticks?]
  have hexchange : e.exchange? setup who = some (call, reply) := by
    simp only [Transition.exchange?, h, if_true, hcall, Option.map_some]
  rw [dialogue_concat, if_neg hticks, hexchange, htold]
  rfl

/-- A step that is neither a tick of a party nor a reply to it leaves the dialogue where it is. -/
theorem dialogue_of_other (hticks : e.action.ticks? ≠ some who)
    (hreply : ∀ reply, e.action ≠ .reply who reply) :
    dialogue setup who (tr ++ [e]) = dialogue setup who tr := by
  have hexchange : e.exchange? setup who = none := by
    unfold Transition.exchange?
    split
    case h_1 who' reply ha =>
      refine if_neg ?_
      rintro rfl
      exact hreply reply ha
    case h_2 => rfl
  rw [dialogue_concat, if_neg hticks, hexchange]
  simp

/-- **The steps of others leave the dialogues of a delivery where they are.** -/
theorem dialogue_of_delivery?_ne (h : e.action.delivery? ≠ some d) :
    dialogue setup (.supervisor d) (tr ++ [e]) = dialogue setup (.supervisor d) tr ∧
      dialogue setup (.listener d) (tr ++ [e]) = dialogue setup (.listener d) tr := by
  have hticks : ∀ who, e.action.ticks? = some who → who = .supervisor d ∨ who = .listener d →
      e.action.delivery? = some d := by
    intro who hwho hd
    cases ha : e.action with
    | tick d' | poll d' =>
      rw [ha] at hwho
      rcases hd with rfl | rfl <;> cases hwho
      rfl
    | _ => simp [ha, Action.ticks?] at hwho
  refine ⟨dialogue_of_other ?_ ?_, dialogue_of_other ?_ ?_⟩
  · exact fun hwho => h (hticks _ hwho (.inl rfl))
  · exact fun reply ha => h (by rw [ha]; rfl)
  · exact fun hwho => h (hticks _ hwho (.inr rfl))
  · exact fun reply ha => h (by rw [ha]; rfl)

/-! ### Whose step it is -/

variable [DecidableEq κ]

/-- **A step seen from one delivery**, by whose step it is. -/
inductive DeliveryTurn (setup : Setup κ) (s : Service κ) (d : DeliveryId) (a : Action κ)
    (t : Service κ) (seen : List Observation) : Prop where
  /-- The step is of somebody else. -/
  | other (ha : a.delivery? ≠ some d) (ht : t.deliveries[d]? = s.deliveries[d]?)
  /-- The delivery starts. -/
  | launched {i : OperationId} {sub : Submission κ} {signed : SignedTx} {deadline : Nat}
      (ha : a.delivery? ≠ some d) (hd : d = s.deliveries.length)
      (hst : s.stage? i = some (.submitting sub)) (hs : sub.stage = .broadcasting signed deadline)
      (ht : t.deliveries[d]? =
        some (.start setup.config s.now (ownerOf i sub) sub.options deadline signed))
  /-- The delivery ends. -/
  | ended {x : Delivery} {outcome : Outcome} (hx : s.deliveries[d]? = some x)
      (hends : x.Ends setup s.now d a outcome) (ht : t.deliveries[d]? = some (x.close outcome))
  /-- The delivery proceeds. -/
  | proceeded {x x' : Delivery} {m' : Metrics} (hx : s.deliveries[d]? = some x)
      (hproceeds : x.Proceeds setup s.now d s.metrics a x' m' seen)
      (ht : t.deliveries[d]? = some x')
  /-- The caller who waits for the delivery drops it. -/
  | abandoned {x : Delivery} (ha : a.delivery? ≠ some d) (hx : s.deliveries[d]? = some x)
      (ht : t.deliveries[d]? = some x.abandon)

/-- A step of a delivery ends it or lets it proceed. -/
theorem deliveryTurn_of_delivery? (h : s.step? setup a = some (t, seen))
    (ha : a.delivery? = some d) : DeliveryTurn setup s d a t seen := by
  have hset {d' : DeliveryId} {x x' : Delivery} (hx : s.deliveries[d']? = some x) :
      (s.deliveries.set d' x')[d']? = some x' :=
    List.getElem?_set_self (List.getElem?_eq_some_iff.mp hx).1
  cases step_of_step? h with
  | operation h =>
    cases h with
    | refuse _ _ href | refuseQueued _ _ href => cases href <;> simp [Action.delivery?] at ha
    | _ => simp [Action.delivery?] at ha
  | delivery h =>
    cases h with
    | conclude hx hends =>
      obtain rfl := Option.some.inj (hends.delivery?_action.symm.trans ha)
      exact .ended hx hends (hset hx)
    | proceed hx hproceeds =>
      obtain rfl := Option.some.inj (hproceeds.delivery?_action.symm.trans ha)
      exact .proceeded hx hproceeds (hset hx)
  | bookkeeper h => cases h <;> simp [Action.delivery?] at ha
  | outside h => cases h <;> simp [Action.delivery?] at ha

/-- **Every step, seen from one delivery.** -/
theorem deliveryTurn_of_step? (h : s.step? setup a = some (t, seen)) (d : DeliveryId) :
    DeliveryTurn setup s d a t seen := by
  by_cases ha : a.delivery? = some d
  · exact deliveryTurn_of_delivery? h ha
  · cases deliveryMove_of_step? h (d := d) with
    | still ht => exact .other ha ht
    | launched hd _ hst hs ht => exact .launched ha hd hst hs ht
    | concluded hx hends ht => exact .ended hx hends ht
    | proceeded hx hproceeds ht => exact .proceeded hx hproceeds ht
    | abandoned hx _ _ ht => exact .abandoned ha hx ht

/-- **Who waits for a delivery, what was asked for and until when is settled at its start.** -/
theorem History.fixed (h : History setup s tr t) (hx : s.deliveries[d]? = some x) :
    ∃ y, t.deliveries[d]? = some y ∧ y.owner = x.owner ∧ y.options = x.options ∧
      y.deadline = x.deadline := by
  induction h with
  | nil => exact ⟨x, hx, rfl, rfl, rfl⟩
  | snoc _ hstep ih =>
    obtain ⟨y, hy, howner, hoptions, hdeadline⟩ := ih
    have hsame {y' : Delivery} (hy' : _ = some y') : y' = y := Option.some.inj (hy'.symm.trans hy)
    cases deliveryTurn_of_step? hstep d with
    | other _ ht => exact ⟨y, ht.trans hy, howner, hoptions, hdeadline⟩
    | launched _ hd =>
      rw [hd] at hy
      simp at hy
    | ended hy' _ ht =>
      obtain rfl := hsame hy'
      exact ⟨_, ht, howner, hoptions, hdeadline⟩
    | proceeded hy' hproceeds ht =>
      obtain rfl := hsame hy'
      obtain ⟨howner', hoptions', hdeadline'⟩ := hproceeds.fixed
      exact ⟨_, ht, howner'.trans howner, hoptions'.trans hoptions, hdeadline'.trans hdeadline⟩
    | abandoned _ hy' ht =>
      obtain rfl := hsame hy'
      exact ⟨_, ht, howner, hoptions, hdeadline⟩

end Service

end TxDelivery
