import TxDelivery.Proofs.Delivery.Deadline
import TxDelivery.Proofs.Delivery.Escalation

/-!
# Deliveries that are given up

A delivery is given up for one of two reasons (`TxDelivery.Service.GivenUp`): its deadline passed,
or the next price would be above the caller's limit. **What is reported is the last variant the node
accepted**, whatever was tried after it (`TxDelivery.Service.History.failures_sound`).

Whatever else goes wrong only sets a delivery back (`TxDelivery.Service.Transition.SetsBack`): a
price, an estimate, a signature or a broadcast that fails, a receipt that is missing, reverted or
too shallow, a height that cannot be read, a listener that gives up or breaks down. None of these
is among the steps that decide a delivery (`TxDelivery.Service.Transition.Decides`), and without a
step that decides it a delivery goes on with the variant it has, however long that takes
(`TxDelivery.Service.History.undecided`).

## The two lists

That the list of reasons is complete is an inversion. A delivery ends with a failure when its
deadline is found passed, or when an attempt ends with an error that is terminal, and the only such
error is a price above the limit (`TxDelivery.Escalation.price_of_terminal`). What is left is to say
where the two numbers in that error come from. One is the market price the supervisor was told, the
first thing said since its tick (`TxDelivery.Service.History.dialogue_of_pricing`); the other is the
price of the variant that the attempt started from, which is the current one
(`TxDelivery.Delivery.attempt_invariant`) and so the last accepted.

That the list of decisions is complete is an induction on the run. A step that is none of them
leaves the delivery under way with its current variant
(`TxDelivery.Service.undecided_of_step?`). The list of setbacks then needs no induction of its own:
it is enough to see that it has nothing in common with the list of decisions.
-/

namespace TxDelivery

variable {κ : Type} {setup : Setup κ}

namespace Escalation

variable {e e' : Escalation} {percent : UInt64} {reply : Reply}

/-- **An attempt that goes on** starts from the same variant as before, for the same caller, and has
the market price behind it. -/
theorem fixed_of_asking (h : e.advance? percent reply = some (.asking e')) :
    e'.base = e.base ∧ e'.options = e.options ∧ e'.stage ≠ .pricing := by
  cases hs : e.stage with
  | pricing =>
    cases reply with
    | price market =>
      obtain ⟨-, hprogress⟩ := advance?_price h
      split at hprogress
      case h_3 price _ =>
        obtain rfl := Progress.asking.inj hprogress
        unfold priced
        split <;> exact ⟨rfl, rfl, by simp⟩
      all_goals contradiction
    | _ => simp [advance?, hs] at h
  | estimating price =>
    cases reply <;> simp [advance?, hs] at h
    subst h
    exact ⟨rfl, rfl, by simp⟩
  | signing tx => cases reply <;> simp [advance?, hs] at h

/-- **The one failure with which an attempt ends a delivery**: a market price for which the limit is
too low. -/
theorem price_of_terminal {err : DeliveryError}
    (h : e.advance? percent reply = some (.ended (.error err))) (herr : err.isTerminal = true) :
    e.stage = .pricing ∧ ∃ market, reply = .price market ∧
      nextGasPrice e.base.tx.gasPrice market percent e.options.ceiling = .error err := by
  cases hs : e.stage with
  | pricing =>
    cases reply with
    | price market =>
      obtain ⟨-, hprogress⟩ := advance?_price h
      refine ⟨rfl, market, rfl, ?_⟩
      split at hprogress
      case h_1 err' hprice =>
        obtain rfl : err = err' := by simpa using hprogress
        exact hprice
      all_goals simp at hprogress
    | failed cause =>
      obtain rfl : DeliveryError.gasPrice cause = err := by simpa [advance?, hs] using h
      contradiction
    | _ => simp [advance?, hs] at h
  | estimating price =>
    cases reply with
    | failed cause =>
      obtain rfl : DeliveryError.estimateGas cause = err := by simpa [advance?, hs] using h
      contradiction
    | _ => simp [advance?, hs] at h
  | signing tx =>
    cases reply with
    | failed cause =>
      obtain rfl : DeliveryError.sign cause = err := by simpa [advance?, hs] using h
      contradiction
    | _ => simp [advance?, hs] at h

end Escalation

namespace Delivery

/-- Only a replacement that is accepted changes the current variant. -/
theorem Proceeds.current_eq {now : Nat} {d : DeliveryId} {x x' : Delivery} {m m' : Metrics}
    {a : Action κ} {seen : List Observation} (h : x.Proceeds setup now d m a x' m' seen)
    (hnot : ∀ hash, a ≠ .reply (.supervisor d) (.accepted hash)) : x'.current = x.current := by
  cases h with
  | adopt => exact absurd rfl (hnot _)
  | _ => rfl

/-- **An attempt is at the current variant**, for the caller of the delivery. -/
theorem attempt_invariant : Invariant setup fun x => ∀ e, x.stage = .replacing e →
    e.base = x.current ∧ e.options = x.options where
  start _ _ _ _ _ _ h := by simp [Delivery.start] at h
  ends _ _ _ h := by simp [close] at h
  abandon _ _ h := by simp [abandon] at h
  proceeds h ih e hs := by
    cases h with
    | tick =>
      obtain rfl := Supervisor.Stage.replacing.inj hs
      exact ⟨rfl, rfl⟩
    | ask hs' hp =>
      obtain rfl := Supervisor.Stage.replacing.inj hs
      obtain ⟨hbase, hoptions, -⟩ := Escalation.fixed_of_asking hp
      obtain ⟨hbase', hoptions'⟩ := ih _ hs'
      exact ⟨hbase.trans hbase', hoptions.trans hoptions'⟩
    | keep | broadcast | retry | reject => contradiction
    | adopt => simp [adopt] at hs
    | note | noteStopped | receive | poll | lapse | crash | answer => exact ih e hs

end Delivery

namespace Service

variable [DecidableEq κ] {s t : Service κ} {tr tr' pre post : List (Transition κ)}
  {d : DeliveryId} {x : Delivery} {a : Action κ} {seen : List Observation} {e : Transition κ}
  {event : ErrorEvent}

/-! ### What decides a delivery -/

/-- **A step that decides a delivery**: it ends it, or gives it another variant. -/
inductive Transition.Decides (setup : Setup κ) (d : DeliveryId) (e : Transition κ) : Prop where
  /-- The deadline has passed. -/
  | expire {x : Delivery} (ha : e.action = .expire d) (hx : e.before.deliveries[d]? = some x)
      (hdue : x.deadline ≤ e.before.now)
  /-- The listener has found a final variant. -/
  | confirm {x : Delivery} {mined : SignedTx} (ha : e.action = .join d)
      (hx : e.before.deliveries[d]? = some x) (hl : x.listener.stage = .returned (some mined))
  /-- The next price would be above the limit. -/
  | overPrice {x : Delivery} {market : GasPrice} {err : DeliveryError}
      (ha : e.action = .reply (.supervisor d) (.price market))
      (hx : e.before.deliveries[d]? = some x)
      (hprice : nextGasPrice x.current.tx.gasPrice market setup.config.priceBumpPercent
        x.options.ceiling = .error err)
  /-- The node accepts a replacement. -/
  | accept {hash : Hash} (ha : e.action = .reply (.supervisor d) (.accepted hash))
  /-- The caller who waits for the delivery drops it. -/
  | drop {i : OperationId} (ha : e.action = .drop i)
      (hst : e.before.stage? i = some (.supervising d))

/-- **A step that sets a delivery back.** -/
inductive Transition.SetsBack (d : DeliveryId) (e : Transition κ) : Prop where
  /-- The supervisor cannot have the price, the gas, the signature or the broadcast it asked for. -/
  | refused {error : ChainError} (ha : e.action = .reply (.supervisor d) (.failed error))
  /-- The listener is told something of a variant, or that it cannot be told. -/
  | told {reply : Reply} (ha : e.action = .reply (.listener d) reply)
  /-- The listener gives up. -/
  | lapse (ha : e.action = .lapse d)
  /-- The listener breaks down. -/
  | crash (ha : e.action = .crash d)
  /-- The supervisor learns that the listener gave up or broke down. -/
  | join {x : Delivery} (ha : e.action = .join d) (hx : e.before.deliveries[d]? = some x)
      (hl : x.listener.stage = .returned none ∨ x.listener.stage = .stopped)

omit [DecidableEq κ] in
/-- What sets a delivery back does not decide it. -/
theorem Transition.SetsBack.not_decides (h : e.SetsBack d) : ¬ e.Decides setup d := by
  intro hdecides
  have haction {a : Action κ} (ha : e.action = a) {a' : Action κ} (ha' : e.action = a') : a = a' :=
    ha.symm.trans ha'
  cases h with
  | refused ha | told ha | lapse ha | crash ha =>
    cases hdecides with
    | expire ha' | confirm ha' | overPrice ha' | accept ha' | drop ha' => cases haction ha ha'
  | join ha hx hl =>
    cases hdecides with
    | confirm _ hx' hl' =>
      obtain rfl := Option.some.inj (hx.symm.trans hx')
      simp [hl'] at hl
    | expire ha' | overPrice ha' | accept ha' | drop ha' => cases haction ha ha'

/-- **A step that does not decide a delivery** leaves it under way with its variant. -/
theorem undecided_of_step? (h : s.step? setup a = some (t, seen)) (hx : s.deliveries[d]? = some x)
    (hopen : x.isOpen = true)
    (hattempt : ∀ e, x.stage = .replacing e → e.base = x.current ∧ e.options = x.options)
    (hnot : ¬ (⟨s, a, seen, t⟩ : Transition κ).Decides setup d) :
    (⟨s, a, seen, t⟩ : Transition κ).accepted? setup d = none ∧
      ∃ y, t.deliveries[d]? = some y ∧ y.isOpen = true ∧ y.current = x.current := by
  have hsame {y : Delivery} (hy : s.deliveries[d]? = some y) : y = x :=
    Option.some.inj (hy.symm.trans hx)
  refine ⟨Option.eq_none_iff_forall_ne_some.mpr fun tx haccepted => ?_, ?_⟩
  · rcases accepted?_eq_some_iff.mp haccepted with ⟨i, hash, -, hlen, -⟩ | ⟨hash, ha, -⟩
    · have hlt := (List.getElem?_eq_some_iff.mp hx).1
      exact absurd hlen (Nat.ne_of_gt hlt)
    · exact hnot (.accept ha)
  · cases deliveryMove_of_step? h (d := d) with
    | still ht => exact ⟨x, ht.trans hx, hopen, rfl⟩
    | launched hd =>
      rw [hd] at hx
      simp at hx
    | concluded hy hends =>
      obtain rfl := hsame hy
      refine absurd ?_ hnot
      cases hends with
      | expire _ hdue => exact .expire rfl hx hdue
      | join _ _ hl => exact .confirm rfl hx hl
      | giveUp hs hp herr =>
        obtain ⟨-, market, rfl, hprice⟩ := Escalation.price_of_terminal hp herr
        obtain ⟨hbase, hoptions⟩ := hattempt _ hs
        rw [hbase, hoptions] at hprice
        exact .overPrice rfl hx hprice
    | proceeded hy hproceeds ht =>
      obtain rfl := hsame hy
      exact ⟨_, ht, hproceeds.isOpen_eq.trans hopen,
        hproceeds.current_eq fun hash ha => hnot (.accept ha)⟩
    | abandoned _ ha hst => exact absurd (.drop ha hst) hnot

/-- **A delivery that nothing decides goes on with its variant**, and nothing is published of it. -/
theorem History.undecided (h : History setup .start tr s) (hx : s.deliveries[d]? = some x)
    (hopen : x.isOpen = true) (h' : History setup s tr' t)
    (hnot : ∀ e ∈ tr', ¬ e.Decides setup d) :
    outcomesOf d tr' = [] ∧ variants setup d tr' = [] ∧
      ∃ y, t.deliveries[d]? = some y ∧ y.isOpen = true ∧ y.current = x.current := by
  obtain ⟨hvariants, y, hy, hopen', hcurrent⟩ : variants setup d tr' = [] ∧
      ∃ y, t.deliveries[d]? = some y ∧ y.isOpen = true ∧ y.current = x.current := by
    induction h' with
    | nil => exact ⟨rfl, x, hx, hopen, rfl⟩
    | @snoc tr' t u a seen h' hstep ih =>
      obtain ⟨hvariants, y, hy, hopen', hcurrent⟩ :=
        ih fun e he => hnot e (List.mem_append_left _ he)
      obtain ⟨hnone, z, hz, hzopen, hzcurrent⟩ := undecided_of_step? hstep hy hopen'
        ((h.append h').delivery Delivery.attempt_invariant hy)
        (hnot _ (List.mem_append_right _ (List.mem_singleton_self _)))
      refine ⟨?_, z, hz, hzopen, hzcurrent.trans hcurrent⟩
      rw [variants_concat, hvariants, hnone]
      rfl
  refine ⟨?_, hvariants, y, hy, hopen', hcurrent⟩
  rw [h.outcomesOf_of_isOpen hx hopen h', outcome?_eq hy, Delivery.outcome?_of_isOpen hopen']
  rfl

/-! ### What is reported -/

/-- **Before the price is told nothing was said** since the tick. -/
theorem History.dialogue_of_pricing (h : History setup .start tr s)
    (hx : s.deliveries[d]? = some x) {esc : Escalation} (hs : x.stage = .replacing esc)
    (hpricing : esc.stage = .pricing) : dialogue setup (.supervisor d) tr = some [] := by
  induction h generalizing x esc with
  | nil => simp [Service.start] at hx
  | @snoc tr t u a seen h hstep ih =>
    have hsame {y : Delivery} (hy : u.deliveries[d]? = some y) : y = x :=
      Option.some.inj (hy.symm.trans hx)
    cases deliveryTurn_of_step? hstep d with
    | other ha ht =>
      rw [(dialogue_of_delivery?_ne ha).1]
      exact ih (ht ▸ hx) hs hpricing
    | launched _ _ _ _ ht =>
      obtain rfl := hsame ht
      simp [Delivery.start] at hs
    | ended _ _ ht =>
      obtain rfl := hsame ht
      simp [Delivery.close] at hs
    | abandoned _ _ ht =>
      obtain rfl := hsame ht
      simp [Delivery.abandon] at hs
    | proceeded hy hproceeds ht =>
      obtain rfl := hsame ht
      cases hproceeds with
      | tick => exact dialogue_of_ticks rfl
      | ask _ hp =>
        obtain rfl := Supervisor.Stage.replacing.inj hs
        exact absurd hpricing (Escalation.fixed_of_asking hp).2.2
      | keep | broadcast | retry | reject => contradiction
      | adopt => simp [Delivery.adopt] at hs
      | note hwaiting | noteStopped hwaiting => simp [hwaiting] at hs
      | receive | poll | lapse | crash | answer =>
        rw [dialogue_of_other (by simp [Action.ticks?]) (by simp)]
        exact ih hy hs hpricing

/-- **Why a delivery is given up.** -/
inductive GivenUp (setup : Setup κ) (d : DeliveryId) (pre : List (Transition κ))
    (e : Transition κ) (event : ErrorEvent) : Prop where
  /-- One period has passed since the signature of the variant with which the delivery started. -/
  | late {i : OperationId} {first : SignedTx} {e₁ e₂ : Transition κ} (he₁ : e₁ ∈ pre)
      (he₂ : e₂ ∈ pre) (hsigned : e₁.action = .reply (.operation i) (.signed first))
      (hlaunch : e₂.Launches i d) (hfirst : e₂.accepted? setup d = some first)
      (hdue : e₁.before.now + setup.config.periodMs ≤ e.before.now)
      (herror : event.error = .timeout setup.config.period)
  /-- All that the supervisor was told since its tick is a market price at which the next price is
  above the limit. -/
  | tooDear {i : OperationId} {options : DeliveryOptions} {limit market price : GasPrice}
      (hlaunch : ∃ e' ∈ pre, e'.Launches i d)
      (hoptions : (e.before.request? i).bind Request.options? = some options)
      (hlimit : options.priceLimit = some limit) (hne : limit ≠ 0)
      (htold : dialogue setup (.supervisor d) (pre ++ [e]) = some [(.gasPrice, .price market)])
      (hmarket : event.tx.tx.gasPrice.toNat < market.toNat)
      (hprice : price.toNat = max market.toNat
        (bumpPrice event.tx.tx.gasPrice setup.config.priceBumpPercent).toNat)
      (hover : limit.toNat < price.toNat) (herror : event.error = .overPriceLimit limit price)

/-- **A delivery that ends with a failure** is given up for one of the two reasons. -/
theorem History.givenUp (h : History setup .start (pre ++ e :: post) s)
    (hx : e.before.deliveries[d]? = some x)
    (hends : x.Ends setup e.before.now d e.action (.failed event)) :
    (variants setup d pre).getLast? = some event.tx ∧ GivenUp setup d pre e event := by
  obtain ⟨hpre, -, -⟩ := h.around
  have hcurrent := ((hpre.watched d).since x hx).current
  generalize ha : e.action = a at hends
  cases hends with
  | expire _ hdue =>
    obtain ⟨i, first, e₁, he₁, e₂, he₂, hsigned, hlaunch, hfirst, hdeadline⟩ :=
      hpre.exists_signature hx
    exact ⟨hcurrent, .late he₁ he₂ hsigned hlaunch hfirst (hdeadline ▸ hdue) rfl⟩
  | giveUp hs hp herr =>
    obtain ⟨hpricing, market, rfl, hprice⟩ := Escalation.price_of_terminal hp herr
    obtain ⟨hbase, hoptions⟩ := hpre.delivery Delivery.attempt_invariant hx _ hs
    rw [hbase, hoptions] at hprice
    obtain ⟨hmarket, limit, price, hlimit, hmax, hover, rfl⟩ :=
      nextGasPrice_eq_error_iff.mp hprice
    obtain ⟨hlimit, hne⟩ := DeliveryOptions.ceiling_eq_some_iff.mp hlimit
    obtain ⟨i, hlaunch, hrequest⟩ := hpre.exists_launches_options hx
    have hcall : e.before.pending? setup (.supervisor d) = some .gasPrice := by
      simp only [pending?_supervisor hx, Delivery.call?, hs, Escalation.call, hpricing]
    have htold := dialogue_of_reply ha hcall (hpre.dialogue_of_pricing hx hs hpricing)
    exact ⟨hcurrent, .tooDear hlaunch hrequest hlimit hne htold hmarket hmax hover rfl⟩

/-- **Failures are sound.** Whatever happens in a run,

* a delivery that is reported as failed is reported with the last variant the node accepted for it,
  and was given up at its deadline or for its price limit;
* from any moment on, a delivery under way goes on with the variant it has, and nothing is published
  of it, until a step decides it;
* a call of the supervisor that fails, whatever the listener is told, and the end of the listener's
  watch decide nothing. -/
theorem History.failures_sound (h : History setup .start tr s) :
    (∀ pre e post d event, tr = pre ++ e :: post → .published d (.failed event) ∈ e.seen →
      (variants setup d pre).getLast? = some event.tx ∧ GivenUp setup d pre e event) ∧
    (∀ (d : DeliveryId) x tr' t, s.deliveries[d]? = some x → x.isOpen = true →
      History setup s tr' t → (∀ e ∈ tr', ¬ e.Decides setup d) →
      outcomesOf d tr' = [] ∧ variants setup d tr' = [] ∧
        ∃ y, t.deliveries[d]? = some y ∧ y.isOpen = true ∧ y.current = x.current) ∧
    ∀ d, ∀ e ∈ tr, e.SetsBack d → ¬ e.Decides setup d := by
  refine ⟨fun pre e post d event htr hpublished => ?_, fun d x tr' t hx hopen h' hnot => ?_,
    fun d e _ hback => hback.not_decides⟩
  · subst htr
    obtain ⟨⟨x, hx, hends⟩, -⟩ := ends_of_published h.around.2.1 hpublished
    exact h.givenUp hx hends
  · exact h.undecided hx hopen h' hnot

/-- The sample transaction signed with nonce 4 at a slightly higher price. -/
def sampleBump : SignedTx :=
  ⟨{ sampleTx with sender := 7, nonce := 4, gasPrice := 6 }, 6, [6]⟩

/-- A run in which much goes wrong: the receipt is missing, cannot be read, tells of a reverted
execution and is too shallow; the node refuses a replacement, as its nonce were too low; the
listener breaks down; and at the second tick the price is above the limit. -/
def setBackRun : List (Action Unit) :=
  [.begin (.send sampleTx { priceLimit := some 10 }), .resume 0, .reply (.operation 0) (.nonce 4),
    .reply (.operation 0) (.signed (sampleSigned 4)), .reply (.operation 0) (.accepted 4),
    .receive 0, .wait 10000, .poll 0, .reply (.listener 0) (.receipt none), .wait 10000, .poll 0,
    .reply (.listener 0) (.failed (.timeout 10)), .wait 5000, .tick 0,
    .reply (.supervisor 0) (.price 6), .reply (.supervisor 0) (.signed sampleBump),
    .reply (.supervisor 0) (.failed (.nonceTooLow "")), .wait 5000, .poll 0,
    .reply (.listener 0) (.receipt (some ⟨4, 10, false⟩)), .reply (.listener 0) (.head 13),
    .wait 10000, .poll 0, .reply (.listener 0) (.receipt (some ⟨4, 10, true⟩)),
    .reply (.listener 0) (.head 12), .crash 0, .join 0, .wait 10000, .tick 0,
    .reply (.supervisor 0) (.price 20)]

/-- In this run the first variant is reported, which is the only one that was accepted. -/
theorem failures_sound_setBackRun :
    ∃ (pre : List (Transition Unit)) (e : Transition Unit) (s : Service Unit),
      History sampleSetup .start (pre ++ [e]) s ∧ (pre ++ [e]).map (·.action) = setBackRun ∧
      .published 0 (.failed ⟨sampleSigned 4, .overPriceLimit 10 20⟩) ∈ e.seen ∧
      (variants sampleSetup 0 pre).getLast? = some (sampleSigned 4) ∧
      GivenUp sampleSetup 0 pre e ⟨sampleSigned 4, .overPriceLimit 10 20⟩ := by
  have hrun : (start.trace? sampleSetup setBackRun).map
      (fun r => r.1.getLast?.map (·.seen)) = some (some [.logged .failed,
        .published 0 (.failed ⟨sampleSigned 4, .overPriceLimit 10 20⟩)]) := by decide
  obtain ⟨tr, s, h, has, hlast⟩ := exists_history hrun
  obtain ⟨e, he, hseen⟩ := Option.map_eq_some_iff.mp hlast
  obtain ⟨pre, rfl⟩ : ∃ pre, tr = pre ++ [e] := ⟨_, (List.dropLast_append_getLast? e he).symm⟩
  have hpublished : .published 0 (.failed ⟨sampleSigned 4, .overPriceLimit 10 20⟩) ∈ e.seen := by
    rw [hseen]
    exact List.mem_cons_of_mem _ (List.mem_singleton_self _)
  exact ⟨pre, e, s, h, has, hpublished, h.failures_sound.1 pre e [] 0 _ rfl hpublished⟩

end Service

end TxDelivery
