import TxDelivery.Proofs.Delivery.OneOutcome
import TxDelivery.Proofs.Operation.Submission
import TxDelivery.Proofs.Queue.Payload

/-!
# The variants of a delivery

Over a run the node accepts one variant of a delivery after another
(`TxDelivery.Service.variants`): the first from the operation that asked for the delivery, the
others from its supervisor. Its listener receives them one by one, in the same order
(`TxDelivery.Service.received`).

The two lists are read off the steps of a run and owe nothing to the state of the delivery. That
they agree with it is `TxDelivery.Service.History.watched`: **the current variant is the last one
accepted, what was accepted has been received or waits in the channel, and the listener looks at the
last two it has received**.

## The induction

A step seen from the variants of a delivery is one of four kinds
(`TxDelivery.Service.VariantMove`): nothing is accepted or received, the delivery starts with its
first variant, a replacement is accepted, or the listener receives one. The first kind covers nearly
all steps, and in particular those that end the delivery, after which the lists stay as they are
together with the channel.

The invariant begins before the delivery does (`TxDelivery.Service.Watched`). A delivery is named by
a number, and the lists of a number that is not taken yet are empty; if they were not, the start of
the delivery would not make its first variant the first of them. So what is carried through the run
has two halves, one for the time before the start and one (`TxDelivery.Service.Watch`) for the time
since, and the step that starts the delivery leads from the one to the other.

What a caller wanted of a delivery is found in the request of the operation that started it
(`TxDelivery.Service.History.exists_launches_options`). It is an induction of the same shape, with
options in place of variants.
-/

namespace TxDelivery

/-! ### The last two variants -/

namespace RecentTxs

/-- The two places after some variants were pushed, the last one first. -/
theorem foldl_push (txs : List SignedTx) :
    txs.foldl push empty =
      if txs.length % 2 = 0 then ⟨txs.reverse[1]?, txs.reverse[0]?, txs.length⟩
      else ⟨txs.reverse[0]?, txs.reverse[1]?, txs.length⟩ := by
  induction txs using List.reverseRecOn with
  | nil => rfl
  | append_singleton txs tx ih =>
    rw [List.foldl_append, ih]
    rcases Nat.mod_two_eq_zero_or_one txs.length with h | h
    · have hnext : (txs.length + 1) % 2 ≠ 0 := by omega
      simp [push, h, hnext]
    · have hnext : (txs.length + 1) % 2 = 0 := by omega
      simp [push, h, hnext]

/-- **The variants watched are the last two pushed.** -/
theorem mem_toList_foldl_push {txs : List SignedTx} {tx : SignedTx} :
    tx ∈ (txs.foldl push empty).toList ↔ tx ∈ txs.reverse.take 2 := by
  have htake : ∀ l : List SignedTx, tx ∈ l.take 2 ↔ l[0]? = some tx ∨ l[1]? = some tx := by
    rintro (_ | ⟨a, _ | ⟨b, l⟩⟩) <;> simp [eq_comm]
  rw [htake, foldl_push]
  split
  · simp only [toList, List.mem_append, Option.mem_toList]
    exact or_comm
  · simp only [toList, List.mem_append, Option.mem_toList]

end RecentTxs

variable {κ : Type}

/-- A listener that receives takes the first variant of its channel. -/
theorem Listener.of_receive? {l l' : Listener} (h : l.receive? = some l') :
    ∃ tx, l.channel = tx :: l'.channel ∧ l'.recent = l.recent.push tx ∧ l.stage = .waiting ∧
      l'.stage = .waiting := by
  unfold receive? at h
  split at h
  case h_1 tx rest hs hchannel =>
    obtain rfl := Option.some.inj h
    exact ⟨tx, hchannel, rfl, hs, hs⟩
  case h_2 => contradiction

/-- **What a delivery that proceeds does with its variants**: it leaves them alone, or a replacement
is accepted, or the listener receives one. -/
theorem Delivery.Proceeds.variants {setup : Setup κ} {now : Nat} {d : DeliveryId}
    {x x' : Delivery} {m m' : Metrics} {a : Action κ} {seen : List Observation}
    (h : x.Proceeds setup now d m a x' m' seen) :
    (x'.current = x.current ∧ x.listener.Kept x'.listener) ∨
    (∃ replacement hash, a = .reply (.supervisor d) (.accepted hash) ∧
      x.stage = .rebroadcasting replacement) ∨
    (a = .receive d ∧ ∃ tx, x.listener.channel.head? = some tx) := by
  cases h with
  | tick | note | noteStopped | ask | keep | broadcast | retry | reject =>
    exact .inl ⟨rfl, rfl, rfl⟩
  | adopt hs => exact .inr (.inl ⟨_, _, rfl, hs⟩)
  | receive hl =>
    obtain ⟨tx, hchannel, -⟩ := Listener.of_receive? hl
    exact .inr (.inr ⟨rfl, tx, by rw [hchannel]; rfl⟩)
  | poll hl => exact .inl ⟨rfl, (Listener.kept_of_poll? hl).1⟩
  | lapse hl => exact .inl ⟨rfl, (Listener.kept_of_lapse? hl).1⟩
  | crash => exact .inl ⟨rfl, x.listener.kept_stop.1⟩
  | answer hl => exact .inl ⟨rfl, (Listener.kept_of_advance? hl).1⟩

namespace Service

/-- The transaction a party is broadcasting. -/
def broadcasting? (s : Service κ) (setup : Setup κ) (who : Party) : Option SignedTx :=
  match s.pending? setup who with
  | some (.broadcast tx) => some tx
  | _ => none

/-- The variant of a delivery that the node accepts in a step. The first variant comes from the
operation with which the delivery starts, the others from the supervisor. -/
def Transition.accepted? (setup : Setup κ) (d : DeliveryId) (e : Transition κ) :
    Option SignedTx :=
  match e.action with
  | .reply (.operation i) (.accepted _) =>
    if e.before.deliveries.length = d then e.before.broadcasting? setup (.operation i) else none
  | .reply (.supervisor d') (.accepted _) =>
    if d' = d then e.before.broadcasting? setup (.supervisor d) else none
  | _ => none

/-- The variant that the listener of a delivery receives in a step. -/
def Transition.received? (d : DeliveryId) (e : Transition κ) : Option SignedTx :=
  match e.action with
  | .receive d' =>
    if d' = d then e.before.deliveries[d]?.bind fun x => x.listener.channel.head? else none
  | _ => none

/-- **The variants of a delivery**: what the node accepted for it, in order. -/
def variants (setup : Setup κ) (d : DeliveryId) (tr : List (Transition κ)) : List SignedTx :=
  tr.filterMap (Transition.accepted? setup d)

/-- The variants the listener of a delivery received, in order. -/
def received (d : DeliveryId) (tr : List (Transition κ)) : List SignedTx :=
  tr.filterMap (Transition.received? d)

variable {setup : Setup κ} {s t u : Service κ} {tr tr' : List (Transition κ)} {d : DeliveryId}
  {x : Delivery} {a : Action κ} {seen : List Observation} {i : OperationId} {e : Transition κ}

theorem variants_concat :
    variants setup d (tr ++ [e]) = variants setup d tr ++ (e.accepted? setup d).toList := by
  cases h : e.accepted? setup d <;> simp [variants, h]

theorem received_concat :
    received d (tr ++ [e]) = received d tr ++ (e.received? d).toList := by
  cases h : e.received? d <;> simp [received, h]

/-! ### One step -/

/-- **A submission broadcasts** what was signed for it, once it is. -/
theorem broadcasting?_operation_eq_some_iff {tx : SignedTx} :
    s.broadcasting? setup (.operation i) = some tx ↔ ∃ sub deadline,
      s.stage? i = some (.submitting sub) ∧ sub.stage = .broadcasting tx deadline := by
  constructor
  · intro h
    cases ho : s.operations[i]? with
    | none => simp [broadcasting?, pending?, ho] at h
    | some o =>
      have hst : s.stage? i = some o.stage := by simp [stage?, ho]
      cases hos : o.stage with
      | submitting sub =>
        cases hs : sub.stage with
        | broadcasting signed deadline =>
          obtain rfl : signed = tx := by simpa [broadcasting?, pending?, ho, hos, hs] using h
          exact ⟨sub, deadline, hos ▸ hst, hs⟩
        | _ => simp [broadcasting?, pending?, ho, hos, hs] at h
      | estimating => cases hr : o.request <;> simp [broadcasting?, pending?, ho, hos, hr] at h
      | replacing esc =>
        cases hc : esc.stage <;>
          simp [broadcasting?, pending?, ho, hos, Escalation.call, hc] at h
      | _ => simp [broadcasting?, pending?, ho, hos] at h
  · rintro ⟨sub, deadline, hst, hs⟩
    obtain ⟨o, ho, hos⟩ := Option.map_eq_some_iff.mp hst
    simp [broadcasting?, pending?, ho, hos, hs]

/-- **A supervisor broadcasts** replacements, one after another. -/
theorem broadcasting?_supervisor_eq_some_iff {tx : SignedTx} :
    s.broadcasting? setup (.supervisor d) = some tx ↔
      ∃ x, s.deliveries[d]? = some x ∧ x.stage = .rebroadcasting tx := by
  constructor
  · intro h
    cases hx : s.deliveries[d]? with
    | none => simp [broadcasting?, pending?, hx] at h
    | some x =>
      cases hs : x.stage with
      | rebroadcasting replacement =>
        obtain rfl : replacement = tx := by
          simpa [broadcasting?, pending?, hx, Delivery.call?, hs] using h
        exact ⟨x, rfl, hs⟩
      | replacing esc =>
        cases hc : esc.stage <;>
          simp [broadcasting?, pending?, hx, Delivery.call?, hs, Escalation.call, hc] at h
      | _ => simp [broadcasting?, pending?, hx, Delivery.call?, hs] at h
  · rintro ⟨x, hx, hs⟩
    simp [broadcasting?, pending?, hx, Delivery.call?, hs]

/-- Who gets a variant of a delivery accepted. -/
theorem accepted?_eq_some_iff {tx : SignedTx} : e.accepted? setup d = some tx ↔
    (∃ i hash, e.action = .reply (.operation i) (.accepted hash) ∧
      e.before.deliveries.length = d ∧ e.before.broadcasting? setup (.operation i) = some tx) ∨
    ∃ hash, e.action = .reply (.supervisor d) (.accepted hash) ∧
      e.before.broadcasting? setup (.supervisor d) = some tx := by
  constructor
  · intro h
    unfold Transition.accepted? at h
    split at h
    case h_1 i hash ha =>
      obtain ⟨hd, h⟩ := Option.ite_none_right_eq_some.mp h
      exact .inl ⟨i, hash, ha, hd, h⟩
    case h_2 d' hash ha =>
      obtain ⟨rfl, h⟩ := Option.ite_none_right_eq_some.mp h
      exact .inr ⟨hash, ha, h⟩
    case h_3 => contradiction
  · rintro (⟨i, hash, ha, hd, h⟩ | ⟨hash, ha, h⟩)
    · simp only [Transition.accepted?, ha, hd, if_true, h]
    · simp only [Transition.accepted?, ha, if_true, h]

/-- What a listener receives is the first in its channel. -/
theorem received?_eq_some_iff {tx : SignedTx} : e.received? d = some tx ↔
    e.action = .receive d ∧
      ∃ x, e.before.deliveries[d]? = some x ∧ x.listener.channel.head? = some tx := by
  constructor
  · intro h
    unfold Transition.received? at h
    split at h
    case h_1 d' ha =>
      obtain ⟨rfl, h⟩ := Option.ite_none_right_eq_some.mp h
      exact ⟨ha, Option.bind_eq_some_iff.mp h⟩
    case h_2 => contradiction
  · rintro ⟨ha, x, hx, h⟩
    simp only [Transition.received?, ha, if_true, hx, Option.bind_some, h]

/-- **A step seen from the variants of a delivery.** -/
inductive VariantMove (setup : Setup κ) (d : DeliveryId) (e : Transition κ) : Prop where
  /-- Nothing is accepted and nothing received. -/
  | still (haccepted : e.accepted? setup d = none) (hreceived : e.received? d = none)
      (hnone : e.after.deliveries[d]? = none → e.before.deliveries[d]? = none)
      (hsome : ∀ x', e.after.deliveries[d]? = some x' → ∃ x, e.before.deliveries[d]? = some x ∧
        x'.current = x.current ∧ x'.listener.channel = x.listener.channel ∧
        x'.listener.recent = x.listener.recent)
  /-- The node accepts the first variant. -/
  | launched {x' : Delivery} (haccepted : e.accepted? setup d = some x'.current)
      (hreceived : e.received? d = none) (hx : e.before.deliveries[d]? = none)
      (hx' : e.after.deliveries[d]? = some x') (hchannel : x'.listener.channel = [x'.current])
      (hrecent : x'.listener.recent = .empty)
  /-- The node accepts another variant. -/
  | adopted {x : Delivery} {replacement : SignedTx}
      (haccepted : e.accepted? setup d = some replacement) (hreceived : e.received? d = none)
      (hx : e.before.deliveries[d]? = some x) (hs : x.stage = .rebroadcasting replacement)
      (hx' : e.after.deliveries[d]? = some (x.adopt replacement))
  /-- The listener receives a variant. -/
  | received {x x' : Delivery} {tx : SignedTx} (haccepted : e.accepted? setup d = none)
      (hreceived : e.received? d = some tx) (hx : e.before.deliveries[d]? = some x)
      (hx' : e.after.deliveries[d]? = some x') (hcurrent : x'.current = x.current)
      (hchannel : x.listener.channel = tx :: x'.listener.channel)
      (hrecent : x'.listener.recent = x.listener.recent.push tx)

/-- A step that leaves the variants of a delivery as they are. -/
theorem VariantMove.of_same {x' : Delivery} (haccepted : e.accepted? setup d = none)
    (hreceived : e.received? d = none) (hx : e.before.deliveries[d]? = some x)
    (hx' : e.after.deliveries[d]? = some x') (hcurrent : x'.current = x.current)
    (hchannel : x'.listener.channel = x.listener.channel)
    (hrecent : x'.listener.recent = x.listener.recent) : VariantMove setup d e := by
  refine .still haccepted hreceived (fun hnone => ?_) fun y hy => ?_
  · rw [hx'] at hnone
    contradiction
  · obtain rfl := Option.some.inj (hy.symm.trans hx')
    exact ⟨x, hx, hcurrent, hchannel, hrecent⟩

variable [DecidableEq κ]

/-- The node accepts the broadcast of an operation: a delivery starts. -/
theorem deliveries_of_launch {hash : Hash} {tx : SignedTx}
    (h : s.step? setup (.reply (.operation i) (.accepted hash)) = some (t, seen))
    (hb : s.broadcasting? setup (.operation i) = some tx) :
    ∃ x, t.deliveries = s.deliveries ++ [x] ∧ x.current = tx ∧ x.listener.channel = [tx] ∧
      x.listener.recent = .empty := by
  obtain ⟨sub, deadline, hst, hs⟩ := broadcasting?_operation_eq_some_iff.mp hb
  obtain ⟨o, ho, hos⟩ := Option.map_eq_some_iff.mp hst
  obtain ⟨rfl, -⟩ : (s.launch setup i sub tx deadline).1 = t ∧ _ := by
    simpa [step?, act?, reply?, replyOperation?, ho, hos, replySubmission, hs, Prod.ext_iff]
      using h
  refine ⟨.start setup.config s.now (ownerOf i sub) sub.options deadline tx, ?_, rfl, rfl, rfl⟩
  cases horigin : sub.origin <;> simp only [launch, horigin, setOperation, count, ownerOf]

/-- The node accepts the broadcast of a supervisor: the delivery goes on with it. -/
theorem deliveries_of_adopt {hash : Hash} {tx : SignedTx}
    (h : s.step? setup (.reply (.supervisor d) (.accepted hash)) = some (t, seen))
    (hx : s.deliveries[d]? = some x) (hs : x.stage = .rebroadcasting tx) :
    t.deliveries[d]? = some (x.adopt tx) := by
  have hlt : d < s.deliveries.length := (List.getElem?_eq_some_iff.mp hx).1
  simp only [step?, act?, reply?, replySupervisor?, hx, hs, Option.bind_eq_bind,
    Option.bind_some, Option.some.injEq, Prod.mk.injEq] at h
  rw [← h.1]
  exact List.getElem?_set_self hlt

/-- **Every step, seen from the variants of a delivery**, is one of the four kinds. -/
theorem variantMove_of_step? (h : s.step? setup a = some (t, seen)) (d : DeliveryId) :
    VariantMove setup d ⟨s, a, seen, t⟩ := by
  cases hreceived : (⟨s, a, seen, t⟩ : Transition κ).received? d with
  | some tx =>
    obtain ⟨rfl, x, hx, hhead⟩ := received?_eq_some_iff.mp hreceived
    obtain ⟨x', hx', h⟩ := Option.bind_eq_some_iff.mp h
    obtain rfl := Option.some.inj (hx'.symm.trans hx)
    obtain ⟨l, hl, h⟩ := Option.bind_eq_some_iff.mp h
    obtain ⟨first, hchannel, hrecent, -⟩ := Listener.of_receive? hl
    obtain rfl : first = tx := by simpa [hchannel] using hhead
    have hlt : d < s.deliveries.length := (List.getElem?_eq_some_iff.mp hx).1
    have ht : t.deliveries[d]? = some { x' with listener := l } := by
      rw [← (Prod.mk.inj (Option.some.inj h)).1]
      exact List.getElem?_set_self hlt
    exact .received rfl hreceived hx ht rfl hchannel hrecent
  | none =>
    cases haccepted : (⟨s, a, seen, t⟩ : Transition κ).accepted? setup d with
    | some tx =>
      rcases accepted?_eq_some_iff.mp haccepted with ⟨i, hash, rfl, rfl, hb⟩ | ⟨hash, rfl, hb⟩
      · obtain ⟨x, ht, rfl, hchannel, hrecent⟩ := deliveries_of_launch h hb
        refine .launched haccepted hreceived ?_ ?_ hchannel hrecent
        · exact List.getElem?_eq_none (Nat.le_refl _)
        · rw [ht, List.getElem?_concat_length]
      · obtain ⟨x, hx, hs⟩ := broadcasting?_supervisor_eq_some_iff.mp hb
        exact .adopted haccepted hreceived hx hs (deliveries_of_adopt h hx hs)
    | none =>
      -- The moves that get a variant accepted or received are ruled out by what is known of both.
      have hsame {x x' : Delivery} (hx : s.deliveries[d]? = some x)
          (hx' : t.deliveries[d]? = some x') (hcurrent : x'.current = x.current)
          (hlistener : x'.listener.channel = x.listener.channel ∧
            x'.listener.recent = x.listener.recent) : VariantMove setup d ⟨s, a, seen, t⟩ :=
        .of_same haccepted hreceived hx hx' hcurrent hlistener.1 hlistener.2
      cases deliveryMove_of_step? h (d := d) with
      | still ht =>
        refine .still haccepted hreceived (fun hx => ht ▸ hx) fun x hx => ?_
        exact ⟨x, ht ▸ hx, rfl, rfl, rfl⟩
      | @launched i sub signed deadline hash hd ha hst hs =>
        have hb : s.broadcasting? setup (.operation i) = some signed :=
          broadcasting?_operation_eq_some_iff.mpr ⟨sub, deadline, hst, hs⟩
        have hsome : (⟨s, a, seen, t⟩ : Transition κ).accepted? setup d = some signed :=
          accepted?_eq_some_iff.mpr (.inl ⟨i, hash, ha, hd.symm, hb⟩)
        rw [haccepted] at hsome
        contradiction
      | concluded hx _ ht => exact hsame hx ht rfl Listener.kept_stop.1
      | abandoned hx _ _ ht => exact hsame hx ht rfl Listener.kept_stop.1
      | proceeded hx hproceeds ht =>
        rcases hproceeds.variants with ⟨hcurrent, hkept⟩ | ⟨r, hash, ha, hs⟩ | ⟨ha, tx, hhead⟩
        · exact hsame hx ht hcurrent hkept
        · have hb : s.broadcasting? setup (.supervisor d) = some r :=
            broadcasting?_supervisor_eq_some_iff.mpr ⟨_, hx, hs⟩
          have hsome : (⟨s, a, seen, t⟩ : Transition κ).accepted? setup d = some r :=
            accepted?_eq_some_iff.mpr (.inr ⟨hash, ha, hb⟩)
          rw [haccepted] at hsome
          contradiction
        · have hsome : (⟨s, a, seen, t⟩ : Transition κ).received? d = some tx :=
            received?_eq_some_iff.mpr ⟨ha, _, hx, hhead⟩
          rw [hreceived] at hsome
          contradiction

/-! ### A whole run -/

/-- **How a delivery goes with its variants.** -/
structure Watch (setup : Setup κ) (d : DeliveryId) (tr : List (Transition κ)) (x : Delivery) :
    Prop where
  /-- The current variant is the last one accepted. -/
  current : (variants setup d tr).getLast? = some x.current
  /-- What was accepted was received or waits in the channel. -/
  all : variants setup d tr = received d tr ++ x.listener.channel
  /-- The listener has the last two it received. -/
  recent : x.listener.recent = (received d tr).foldl .push .empty

/-- **A delivery is watched from before its start**: nothing is accepted or received for it until it
starts, and ever since it goes with its variants. -/
structure Watched (setup : Setup κ) (d : DeliveryId) (tr : List (Transition κ)) (s : Service κ) :
    Prop where
  /-- Nothing is accepted or received before the start. -/
  before : s.deliveries[d]? = none → variants setup d tr = [] ∧ received d tr = []
  /-- The delivery goes with its variants. -/
  since : ∀ x, s.deliveries[d]? = some x → Watch setup d tr x

omit [DecidableEq κ] in
/-- Once the delivery is there, it is all there is to watch. -/
theorem Watch.watched (h : Watch setup d tr x) (hx : s.deliveries[d]? = some x) :
    Watched setup d tr s := by
  refine ⟨fun hnone => ?_, fun y hy => ?_⟩
  · rw [hx] at hnone
    contradiction
  · exact Option.some.inj (hx.symm.trans hy) ▸ h

omit [DecidableEq κ] in
/-- **A delivery is watched on**, whatever the step is to its variants. -/
theorem Watched.step (h : Watched setup d tr e.before) (hm : VariantMove setup d e) :
    Watched setup d (tr ++ [e]) e.after := by
  cases hm with
  | still haccepted hreceived hnone hsome =>
    have hv : variants setup d (tr ++ [e]) = variants setup d tr := by
      rw [variants_concat, haccepted, Option.toList_none, List.append_nil]
    have hr : received d (tr ++ [e]) = received d tr := by
      rw [received_concat, hreceived, Option.toList_none, List.append_nil]
    refine ⟨fun hafter => ?_, fun x' hx' => ?_⟩
    · rw [hv, hr]
      exact h.before (hnone hafter)
    · obtain ⟨x, hx, hcurrent, hchannel, hrecent⟩ := hsome x' hx'
      obtain ⟨hlast, hall, hring⟩ := h.since x hx
      exact ⟨by rw [hv, hcurrent, hlast], by rw [hv, hr, hchannel, hall],
        by rw [hr, hrecent, hring]⟩
  | launched haccepted hreceived hx hx' hchannel hrecent =>
    obtain ⟨hv, hr⟩ := h.before hx
    refine Watch.watched ⟨?_, ?_, ?_⟩ hx'
    · simp [variants_concat, hv, haccepted]
    · simp [variants_concat, received_concat, hv, hr, haccepted, hreceived, hchannel]
    · simp [received_concat, hr, hreceived, hrecent]
  | adopted haccepted hreceived hx _ hx' =>
    obtain ⟨-, hall, hring⟩ := h.since _ hx
    refine Watch.watched ⟨?_, ?_, ?_⟩ hx'
    · simp [variants_concat, haccepted, Delivery.adopt]
    · simp [variants_concat, received_concat, haccepted, hreceived, hall, Delivery.adopt,
        Listener.notify]
    · simp [received_concat, hreceived, hring, Delivery.adopt, Listener.notify]
  | received haccepted hreceived hx hx' hcurrent hchannel hrecent =>
    obtain ⟨hlast, hall, hring⟩ := h.since _ hx
    refine Watch.watched ⟨?_, ?_, ?_⟩ hx'
    · simp [variants_concat, haccepted, hlast, hcurrent]
    · simp [variants_concat, received_concat, haccepted, hreceived, hall, hchannel]
    · simp [received_concat, hreceived, hrecent, hring]

/-- **At every moment a delivery goes with its variants.** -/
theorem History.watched (h : History setup .start tr s) (d : DeliveryId) :
    Watched setup d tr s := by
  induction h with
  | nil =>
    refine ⟨fun _ => ⟨rfl, rfl⟩, fun x hx => ?_⟩
    simp [Service.start] at hx
  | snoc h hstep ih => exact ih.step (variantMove_of_step? hstep d)

omit [DecidableEq κ] in
/-- What the listener of a delivery received was accepted for it. -/
theorem Watch.mem_variants (h : Watch setup d tr x) {tx : SignedTx} (htx : tx ∈ received d tr) :
    tx ∈ variants setup d tr := by
  rw [h.all]
  exact List.mem_append_left _ htx

omit [DecidableEq κ] in
/-- The variants a listener has at hand are the last two it received. -/
theorem Watch.mem_recent (h : Watch setup d tr x) {tx : SignedTx} :
    tx ∈ x.listener.recent.toList ↔ tx ∈ (received d tr).reverse.take 2 := by
  rw [h.recent]
  exact RecentTxs.mem_toList_foldl_push

/-- **What is asked of a delivery** is what the caller asked for who started it. -/
theorem History.exists_launches_options (h : History setup .start tr s)
    (hx : s.deliveries[d]? = some x) :
    ∃ i, (∃ e ∈ tr, e.Launches i d) ∧ (s.request? i).bind Request.options? = some x.options := by
  induction h generalizing x with
  | nil => simp [Service.start] at hx
  | @snoc tr t u a seen h hstep ih =>
    have hkept {y : Delivery} (hy : t.deliveries[d]? = some y) (hoptions : x.options = y.options) :
        ∃ i, (∃ e ∈ tr ++ [⟨t, a, seen, u⟩], e.Launches i d) ∧
          (u.request? i).bind Request.options? = some x.options := by
      obtain ⟨i, ⟨e, he, hlaunch⟩, hi⟩ := ih hy
      obtain ⟨r, hr, hr'⟩ := Option.bind_eq_some_iff.mp hi
      refine ⟨i, ⟨e, List.mem_append_left _ he, hlaunch⟩, ?_⟩
      rw [request?_of_step? hstep hr, Option.bind_some, hr', hoptions]
    have hsame {y : Delivery} (hy : u.deliveries[d]? = some y) : x = y :=
      Option.some.inj (hx.symm.trans hy)
    cases deliveryMove_of_step? hstep (d := d) with
    | still ht => exact hkept (ht ▸ hx) rfl
    | @launched i sub signed deadline hash hd ha hst hs ht =>
      obtain ⟨r, hr, hr'⟩ := Option.bind_eq_some_iff.mp (h.options_of_submitting hst)
      refine ⟨i, ⟨_, List.mem_append_right _ (List.mem_singleton_self _), ⟨hash, ha⟩,
        ⟨sub, signed, deadline, hst, hs⟩, hd⟩, ?_⟩
      rw [request?_of_step? hstep hr, Option.bind_some, hr', hsame ht]
      rfl
    | concluded hy _ ht => exact hkept hy (by rw [hsame ht])
    | proceeded hy hproceeds ht => exact hkept hy (by rw [hsame ht, hproceeds.fixed.2.1])
    | abandoned hy _ _ ht => exact hkept hy (by rw [hsame ht]; rfl)

/-! ### A replaced transaction -/

/-- The sample transaction signed with nonce 4 at a higher price. -/
def sampleReplacement : SignedTx :=
  ⟨{ sampleTx with sender := 7, nonce := 4, gasPrice := 20 }, 20, [20]⟩

/-- A run in which a transaction is replaced at the first tick. -/
def replacedRun : List (Action Unit) :=
  [.begin (.send sampleTx {}), .resume 0, .reply (.operation 0) (.nonce 4),
    .reply (.operation 0) (.signed (sampleSigned 4)), .reply (.operation 0) (.accepted 4),
    .receive 0, .wait 10000, .poll 0, .reply (.listener 0) (.receipt none), .wait 10000, .poll 0,
    .reply (.listener 0) (.receipt none), .wait 5000, .tick 0, .reply (.supervisor 0) (.price 20),
    .reply (.supervisor 0) (.signed sampleReplacement), .reply (.supervisor 0) (.accepted 20),
    .receive 0]

omit [DecidableEq κ] in
/-- Whether a step starts the first delivery for the first operation. -/
def startsFirst (setup : Setup κ) (e : Transition κ) : Bool :=
  match e.action with
  | .reply (.operation 0) (.accepted _) =>
    (e.before.broadcasting? setup (.operation 0)).isSome && e.before.deliveries.isEmpty
  | _ => false

omit [DecidableEq κ] in
theorem launches_of_startsFirst (h : startsFirst setup e = true) : e.Launches 0 0 := by
  unfold startsFirst at h
  split at h
  case h_1 hash ha =>
    obtain ⟨hb, hnone⟩ := Bool.and_eq_true_iff.mp h
    obtain ⟨signed, hb⟩ := Option.isSome_iff_exists.mp hb
    obtain ⟨sub, deadline, hst, hs⟩ := broadcasting?_operation_eq_some_iff.mp hb
    exact ⟨⟨hash, ha⟩, ⟨sub, signed, deadline, hst, hs⟩, by simp [List.isEmpty_iff.mp hnone]⟩
  case h_2 => contradiction

end Service

end TxDelivery
