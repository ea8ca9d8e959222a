import Mathlib.Data.List.Chain
import TxDelivery.Proofs.Delivery.Dialogue
import TxDelivery.Proofs.Delivery.Pricing
import TxDelivery.Proofs.Delivery.Variants

/-!
# Escalation

At every tick a supervisor tries to replace the last variant the node accepted by one that pays
more. However many of these attempts fail, and wherever they do, **the variants of a delivery differ
in nothing but gas and price, and every one of them pays more than the one before**
(`TxDelivery.Service.History.escalates`).

The reason is that an attempt carries with it the variant it started from, and that the supervisor's
dialogue since its tick says all that went into the replacement: the market price, the gas if it was
estimated, and the signature. A variant becomes the one to start from only when the node accepts it.

## The invariant

`TxDelivery.Delivery.Underway` says, stage by stage, what the dialogue must have been for the
supervisor to be where it is. Each stage adds one exchange, so what keeps it is one lemma for a
reply after which something else is asked (`TxDelivery.Delivery.Underway.ask`) and one for the
signature after which the replacement is broadcast (`TxDelivery.Delivery.Underway.broadcast`). A
refused broadcast, a failed call and a market that has not risen all lead back to waiting, where the
invariant says nothing; that is how attempts that come to nothing leave no trace.

When a replacement is accepted the invariant has become a relation between two variants
(`TxDelivery.Escalation.Replaces`), and the variants of a delivery are a chain of it
(`TxDelivery.Service.History.isChain_variants`). What is then said of any two of them is said by
composition: that they agree but for gas and price is an equivalence relation
(`TxDelivery.Transaction.SameButGas`), that one pays more is transitive.

The signer is taken to sign what it is given, filling in its own account and chain
(`TxDelivery.Service.SignsFor`). The first variant has these from its own signature, later ones from
theirs; so a replacement has nothing filled in that the variant before had not.
-/

namespace TxDelivery

variable {κ : Type}

/-- **What is said on the way to a replacement** of the transaction `tx`: the market price and, if
gas is estimated anew, the gas; and the replacement that is to be signed. -/
inductive Escalation.Asked (percent : UInt64) (options : DeliveryOptions) (tx : Transaction) :
    List (Call × Reply) → Transaction → Prop where
  /-- The gas stays. -/
  | kept {market price : GasPrice} (hgas : options.recalcGas = false)
      (hprice : nextGasPrice tx.gasPrice market percent options.ceiling = .ok (some price)) :
      Asked percent options tx [(.gasPrice, .price market)] { tx with gasPrice := price }
  /-- The gas is estimated anew. -/
  | estimated {market price : GasPrice} {gas : UInt64} (hgas : options.recalcGas = true)
      (hprice : nextGasPrice tx.gasPrice market percent options.ceiling = .ok (some price)) :
      Asked percent options tx [(.gasPrice, .price market), (.estimateGas tx, .gas gas)]
        { tx with gasPrice := price, gasLimit := gas }

/-- Two transactions that differ in gas and price at most: nonce, sender, recipient, input, value
and chain are the same. -/
def Transaction.SameButGas (tx tx' : Transaction) : Prop :=
  tx' = { tx with gasPrice := tx'.gasPrice, gasLimit := tx'.gasLimit }

namespace Transaction.SameButGas

variable {tx tx' tx'' : Transaction}

theorem refl (tx : Transaction) : tx.SameButGas tx := rfl

theorem symm (h : tx.SameButGas tx') : tx'.SameButGas tx := by
  rw [SameButGas, h]

theorem trans (h : tx.SameButGas tx') (h' : tx'.SameButGas tx'') : tx.SameButGas tx'' := by
  rw [SameButGas, h', h]

end Transaction.SameButGas

/-- **How the variant `w` replaces the variant `v`**: what the supervisor was told since its tick,
the market price and the estimate of the gas among it, and what became of that. -/
structure Escalation.Replaces (percent : UInt64) (options : DeliveryOptions) (v w : SignedTx)
    (told : List (Call × Reply)) (market : GasPrice) (gas : UInt64) : Prop where
  /-- The market price was asked for, the gas if the caller wanted that, and the signature. -/
  told_eq : ∃ tx, told = (.gasPrice, .price market) ::
    ((if options.recalcGas then [(.estimateGas v.tx, .gas gas)] else []) ++
      [(.sign tx, .signed w)])
  /-- The market was above the price of `v`. -/
  lt_market : v.tx.gasPrice.toNat < market.toNat
  /-- The larger of the market and the raised price is paid. -/
  price_eq : w.tx.gasPrice.toNat = max market.toNat (bumpPrice v.tx.gasPrice percent).toNat
  /-- The caller's limit is kept. -/
  le_limit : ∀ limit, options.priceLimit = some limit → limit ≠ 0 →
    w.tx.gasPrice.toNat ≤ limit.toNat
  /-- The gas stays unless it was estimated. -/
  gas_eq : w.tx.gasLimit = if options.recalcGas then gas else v.tx.gasLimit
  /-- All else stays. -/
  same : v.tx.SameButGas w.tx

/-- The ceiling is the limit, unless that is zero. -/
theorem DeliveryOptions.ceiling_eq_some_iff {options : DeliveryOptions} {limit : GasPrice} :
    options.ceiling = some limit ↔ options.priceLimit = some limit ∧ limit ≠ 0 := by
  simp [ceiling, Option.filter_eq_some_iff]

/-- **What was asked makes a replacement**, once it is signed. -/
theorem Escalation.Asked.replaces {percent : UInt64} {options : DeliveryOptions} {v w : SignedTx}
    {told : List (Call × Reply)} {tx : Transaction} (h : Asked percent options v.tx told tx)
    (hw : w.tx = { tx with sender := v.tx.sender, chainId := v.tx.chainId }) :
    ∃ market gas,
      Replaces percent options v w (told ++ [(.sign tx, .signed w)]) market gas := by
  have hlimit {price : GasPrice}
      (hceiling : ∀ l, options.ceiling = some l → price.toNat ≤ l.toNat) (limit : GasPrice)
      (hsome : options.priceLimit = some limit) (hne : limit ≠ 0) : price.toNat ≤ limit.toNat :=
    hceiling limit (DeliveryOptions.ceiling_eq_some_iff.mpr ⟨hsome, hne⟩)
  cases h with
  | @kept market price hgas hprice =>
    obtain ⟨hlt, hmax, hceiling⟩ := nextGasPrice_eq_some_iff.mp hprice
    have hwprice : w.tx.gasPrice = price := by rw [hw]
    refine ⟨market, 0, ?_, hlt, hwprice ▸ hmax, hwprice ▸ hlimit hceiling, ?_, ?_⟩
    · exact ⟨_, by rw [hgas]; rfl⟩
    · simp [hgas, hw]
    · rw [Transaction.SameButGas, hw]
  | @estimated market price gas hgas hprice =>
    obtain ⟨hlt, hmax, hceiling⟩ := nextGasPrice_eq_some_iff.mp hprice
    have hwprice : w.tx.gasPrice = price := by rw [hw]
    refine ⟨market, gas, ?_, hlt, hwprice ▸ hmax, hwprice ▸ hlimit hceiling, ?_, ?_⟩
    · exact ⟨_, by rw [hgas]; rfl⟩
    · simp [hgas, hw]
    · rw [Transaction.SameButGas, hw]

/-- What an attempt makes of the market price. -/
theorem Escalation.advance?_price {e : Escalation} {percent : UInt64} {market : GasPrice}
    {progress : Escalation.Progress} (h : e.advance? percent (.price market) = some progress) :
    e.stage = .pricing ∧
      progress = match nextGasPrice e.base.tx.gasPrice market percent e.options.ceiling with
        | .error err => .ended (.error err)
        | .ok none => .ended (.ok none)
        | .ok (some price) => .asking (e.priced price) := by
  cases hs : e.stage with
  | pricing =>
    refine ⟨rfl, ?_⟩
    simp only [advance?, hs] at h
    cases hprice : nextGasPrice e.base.tx.gasPrice market percent e.options.ceiling with
    | error err =>
      rw [hprice] at h
      exact (Option.some.inj h).symm
    | ok price =>
      rw [hprice] at h
      cases price with
      | none => exact (Option.some.inj h).symm
      | some price => exact (Option.some.inj h).symm
  | _ => simp [advance?, hs] at h

namespace Delivery

/-- **What a supervisor's stage rests on**: the dialogue since its last tick says what was asked and
answered on the way from the last accepted variant to where it is. -/
inductive Underway (percent : UInt64) (account : Address) (chain : UInt64) (x : Delivery) :
    Option (List (Call × Reply)) → Supervisor.Stage → Prop where
  /-- The supervisor deals with no replacement. -/
  | idle {dialogue : Option (List (Call × Reply))} {stage : Supervisor.Stage}
      (h : stage.transactions = []) : Underway percent account chain x dialogue stage
  /-- The market price is asked for. -/
  | pricing : Underway percent account chain x (some [])
      (.replacing (.start x.current x.options))
  /-- The gas is asked for. -/
  | estimating {market price : GasPrice} (hgas : x.options.recalcGas = true)
      (hprice : nextGasPrice x.current.tx.gasPrice market percent x.options.ceiling =
        .ok (some price)) :
      Underway percent account chain x (some [(.gasPrice, .price market)])
        (.replacing ⟨x.current, x.options, .estimating price⟩)
  /-- The signature is asked for. -/
  | signing {told : List (Call × Reply)} {tx : Transaction}
      (hasked : Escalation.Asked percent x.options x.current.tx told tx) :
      Underway percent account chain x (some told) (.replacing ⟨x.current, x.options, .signing tx⟩)
  /-- The replacement is broadcast. -/
  | rebroadcasting {told : List (Call × Reply)} {tx : Transaction} {replacement : SignedTx}
      (hasked : Escalation.Asked percent x.options x.current.tx told tx)
      (hsigned : replacement.tx = { tx with sender := account, chainId := chain }) :
      Underway percent account chain x (some (told ++ [(.sign tx, .signed replacement)]))
        (.rebroadcasting replacement)

namespace Underway

variable {percent : UInt64} {account : Address} {chain : UInt64} {x x' : Delivery}
  {dialogue : Option (List (Call × Reply))} {told : List (Call × Reply)}
  {stage : Supervisor.Stage} {e e' : Escalation} {reply : Reply}

/-- A supervisor that stays at the same variant stays where it is. -/
theorem congr (h : Underway percent account chain x dialogue stage)
    (hcurrent : x'.current = x.current) (hoptions : x'.options = x.options) :
    Underway percent account chain x' dialogue stage := by
  cases h with
  | idle h => exact .idle h
  | pricing => exact hcurrent ▸ hoptions ▸ .pricing
  | estimating hgas hprice =>
    rw [← hcurrent, ← hoptions] at hprice ⊢
    exact .estimating (hoptions ▸ hgas) hprice
  | signing hasked =>
    rw [← hcurrent, ← hoptions] at hasked ⊢
    exact .signing hasked
  | rebroadcasting hasked hsigned =>
    rw [← hcurrent, ← hoptions] at hasked
    exact .rebroadcasting hasked hsigned

/-- An attempt starts from the last accepted variant, and has begun a dialogue. -/
theorem of_replacing (h : Underway percent account chain x dialogue (.replacing e)) :
    e.base = x.current ∧ e.options = x.options ∧ ∃ told, dialogue = some told := by
  generalize hs : Supervisor.Stage.replacing e = stage at h
  cases h with
  | idle h =>
    subst hs
    contradiction
  | pricing | estimating | signing =>
    obtain rfl := Supervisor.Stage.replacing.inj hs
    exact ⟨rfl, rfl, _, rfl⟩
  | rebroadcasting => contradiction

/-- **A reply after which an attempt asks for something else.** -/
theorem ask (h : Underway percent account chain x (some told) (.replacing e))
    (hp : e.advance? percent reply = some (.asking e')) :
    Underway percent account chain x (some (told ++ [(e.call, reply)])) (.replacing e') := by
  generalize hs : Supervisor.Stage.replacing e = stage, hd : some told = dialogue at h
  cases h with
  | idle h =>
    subst hs
    contradiction
  | pricing =>
    obtain rfl := Supervisor.Stage.replacing.inj hs
    obtain rfl := Option.some.inj hd
    cases reply with
    | price market =>
      simp only [Escalation.advance?, Escalation.start] at hp
      split at hp
      case h_3 price hprice =>
        obtain rfl : Escalation.priced _ price = e' := by simpa using hp
        cases hgas : x.options.recalcGas with
        | true =>
          simp only [Escalation.priced, hgas, if_true]
          exact .estimating hgas hprice
        | false =>
          simp only [Escalation.priced, hgas, Bool.false_eq_true, if_false]
          exact .signing (.kept hgas hprice)
      all_goals simp at hp
    | _ => simp [Escalation.advance?, Escalation.start] at hp
  | estimating hgas hprice =>
    obtain rfl := Supervisor.Stage.replacing.inj hs
    obtain rfl := Option.some.inj hd
    cases reply with
    | gas g =>
      obtain rfl : _ = e' := by simpa [Escalation.advance?] using hp
      exact .signing (.estimated hgas hprice)
    | _ => simp [Escalation.advance?] at hp
  | signing =>
    obtain rfl := Supervisor.Stage.replacing.inj hs
    cases reply <;> simp [Escalation.advance?] at hp
  | rebroadcasting => contradiction

/-- **The signature after which a replacement is broadcast.** -/
theorem broadcast {replacement : SignedTx}
    (h : Underway percent account chain x (some told) (.replacing e))
    (hp : e.advance? percent reply = some (.ended (.ok (some replacement))))
    (hsigned : ∀ tx, e.call = .sign tx → reply = .signed replacement →
      replacement.tx = { tx with sender := account, chainId := chain }) :
    Underway percent account chain x (some (told ++ [(e.call, reply)]))
      (.rebroadcasting replacement) := by
  obtain ⟨tx, hstage, rfl⟩ := Escalation.signing_of_ended hp
  have hcall : e.call = .sign tx := by simp only [Escalation.call, hstage]
  generalize hs : Supervisor.Stage.replacing e = stage, hd : some told = dialogue at h
  cases h with
  | signing hasked =>
    obtain rfl := Supervisor.Stage.replacing.inj hs
    obtain rfl := Option.some.inj hd
    obtain rfl := Escalation.Stage.signing.inj hstage
    exact .rebroadcasting hasked (hsigned _ hcall rfl)
  | idle h =>
    subst hs
    contradiction
  | pricing | estimating =>
    obtain rfl := Supervisor.Stage.replacing.inj hs
    contradiction
  | rebroadcasting => contradiction

end Underway

end Delivery

namespace Service

open Delivery

variable [DecidableEq κ] {setup : Setup κ} {s t : Service κ} {tr pre post : List (Transition κ)}
  {d : DeliveryId} {x x' : Delivery} {a : Action κ} {seen : List Observation} {i : OperationId}
  {e : Transition κ} {account : Address} {chain : UInt64}

omit [DecidableEq κ] in
/-- **A delivery that proceeds keeps what its supervisor's stage rests on.** -/
theorem underway_of_proceeds {m' : Metrics} (hx : s.deliveries[d]? = some x)
    (h : x.Proceeds setup s.now d s.metrics a x' m' seen)
    (hsigns : SignsFor setup account chain ⟨s, a, seen, t⟩)
    (hunderway : Underway setup.config.priceBumpPercent account chain x
      (dialogue setup (.supervisor d) tr) x.stage) :
    Underway setup.config.priceBumpPercent account chain x'
      (dialogue setup (.supervisor d) (tr ++ [⟨s, a, seen, t⟩])) x'.stage := by
  have hpending {esc : Escalation} (hs : x.stage = .replacing esc) :
      s.pending? setup (.supervisor d) = some esc.call := by
    simp only [pending?, hx, Option.bind_eq_bind, Option.bind_some, call?, hs]
  have hother (hticks : a.ticks? ≠ some (.supervisor d))
      (hreply : ∀ r, a ≠ .reply (.supervisor d) r) (hcurrent : x'.current = x.current)
      (hoptions : x'.options = x.options) (hstage : x'.stage = x.stage) :
      Underway setup.config.priceBumpPercent account chain x'
        (dialogue setup (.supervisor d) (tr ++ [⟨s, a, seen, t⟩])) x'.stage := by
    rw [dialogue_of_other hticks hreply, hstage]
    exact hunderway.congr hcurrent hoptions
  cases h with
  | tick =>
    rw [dialogue_of_ticks rfl]
    exact Underway.pricing.congr (x := x) rfl rfl
  | keep | retry | adopt | reject => exact .idle rfl
  | ask hs hp =>
    rw [hs] at hunderway
    obtain ⟨-, -, told, htold⟩ := hunderway.of_replacing
    rw [dialogue_of_reply rfl (hpending hs) htold]
    exact ((htold ▸ hunderway).ask hp).congr rfl rfl
  | broadcast hs hp =>
    rw [hs] at hunderway
    obtain ⟨-, -, told, htold⟩ := hunderway.of_replacing
    rw [dialogue_of_reply rfl (hpending hs) htold]
    refine ((htold ▸ hunderway).broadcast hp fun tx hcall hreply => ?_).congr rfl rfl
    exact hsigns _ tx _ (hcall ▸ hpending hs) (hreply ▸ rfl)
  | note | noteStopped | receive | poll | lapse | crash | answer =>
    exact hother (by simp [Action.ticks?]) (by simp) rfl rfl rfl

/-- **At every moment a supervisor's dialogue says how it got where it is.** -/
theorem History.underway (h : History setup .start tr s)
    (hsigns : ∀ e ∈ tr, SignsFor setup account chain e) (hx : s.deliveries[d]? = some x) :
    Underway setup.config.priceBumpPercent account chain x (dialogue setup (.supervisor d) tr)
      x.stage := by
  induction h generalizing x with
  | nil => simp [Service.start] at hx
  | @snoc tr t u a seen h hstep ih =>
    have hbefore {y : Delivery} (hy : t.deliveries[d]? = some y) :=
      ih (fun e he => hsigns e (List.mem_append_left _ he)) hy
    have hlast := hsigns ⟨t, a, seen, u⟩ (List.mem_append_right _ (List.mem_singleton_self _))
    have hsame {y : Delivery} (hy : u.deliveries[d]? = some y) : y = x :=
      Option.some.inj (hy.symm.trans hx)
    cases deliveryTurn_of_step? hstep d with
    | other ha ht =>
      rw [(dialogue_of_delivery?_ne ha).1]
      exact hbefore (ht ▸ hx)
    | launched _ _ _ _ ht => exact .idle (by rw [← hsame ht]; rfl)
    | abandoned _ _ ht => exact .idle (by rw [← hsame ht]; rfl)
    | ended _ _ ht => exact .idle (by rw [← hsame ht]; rfl)
    | proceeded hy hproceeds ht =>
      obtain rfl := hsame ht
      exact underway_of_proceeds hy hproceeds hlast (hbefore hy)

/-- What an operation broadcasts comes from the signer. -/
theorem History.signed_first (h : History setup .start tr s)
    (hsigns : ∀ e ∈ tr, SignsFor setup account chain e) {tx : SignedTx}
    (hb : s.broadcasting? setup (.operation i) = some tx) :
    tx.tx.sender = account ∧ tx.tx.chainId = chain := by
  obtain ⟨sub, deadline, hst, hs⟩ := broadcasting?_operation_eq_some_iff.mp hb
  clear hb
  induction h generalizing sub with
  | nil => simp [Service.start, stage?] at hst
  | @snoc tr t u a seen h hstep ih =>
    have hlast := hsigns ⟨t, a, seen, u⟩ (List.mem_append_right _ (List.mem_singleton_self _))
    cases submissionSource_of_step? hstep hst with
    | still hst' => exact ih (fun e he => hsigns e (List.mem_append_left _ he)) sub hst' hs
    | opened _ _ hsigned => simp [hs, Submission.Stage.isSigned] at hsigned
    | moved _ _ _ hnone => exact absurd hs (hnone _ _)
    | @signed sub' n signed hst' hs' ha hsub =>
      obtain rfl : signed = tx := by
        rw [hsub] at hs
        exact (Submission.Stage.broadcasting.inj hs).1
      rw [hlast _ _ _ (pending?_of_signing hst' hs') ha]
      exact ⟨rfl, rfl⟩

/-- **A variant that is accepted from the supervisor** is what its dialogue led to. -/
theorem History.replacement (h : History setup .start (tr ++ [e]) s)
    (hsigns : ∀ e ∈ tr, SignsFor setup account chain e) {w : SignedTx}
    (hs : x.stage = .rebroadcasting w) (hx : e.before.deliveries[d]? = some x) :
    ∃ told tx, dialogue setup (.supervisor d) tr = some (told ++ [(.sign tx, .signed w)]) ∧
      Escalation.Asked setup.config.priceBumpPercent x.options x.current.tx told tx ∧
      w.tx = { tx with sender := account, chainId := chain } := by
  have hunderway := h.of_snoc.1.underway hsigns hx
  rw [hs] at hunderway
  generalize hd : dialogue setup (.supervisor d) tr = dialogue at hunderway
  cases hunderway with
  | idle h => exact absurd h (by simp [Supervisor.Stage.transactions])
  | rebroadcasting hasked hsigned => exact ⟨_, _, rfl, hasked, hsigned⟩

/-- All variants are of the signer's account and chain. -/
theorem History.signer_of_variants (h : History setup .start tr s)
    (hsigns : ∀ e ∈ tr, SignsFor setup account chain e) {v : SignedTx}
    (hv : v ∈ variants setup d tr) : v.tx.sender = account ∧ v.tx.chainId = chain := by
  induction h with
  | nil => contradiction
  | @snoc tr t u a seen h hstep ih =>
    have hbefore := fun e he => hsigns e (List.mem_append_left _ he)
    rw [variants_concat, List.mem_append, Option.mem_toList] at hv
    rcases hv with hv | hv
    · exact ih hbefore hv
    · rcases accepted?_eq_some_iff.mp hv with ⟨i, hash, -, -, hb⟩ | ⟨hash, -, hb⟩
      · exact h.signed_first hbefore hb
      · obtain ⟨x, hx, hs⟩ := broadcasting?_supervisor_eq_some_iff.mp hb
        obtain ⟨told, tx, -, -, hw⟩ := (h.snoc hstep).replacement hbefore hs hx
        rw [hw]
        exact ⟨rfl, rfl⟩

/-- **How one variant follows another.** -/
theorem History.replaces (h : History setup .start (pre ++ e :: post) s)
    (hsigns : ∀ e ∈ pre, SignsFor setup account chain e) (hx : s.deliveries[d]? = some x)
    {v w : SignedTx} (hv : (variants setup d pre).getLast? = some v)
    (hw : e.accepted? setup d = some w) :
    ∃ told market gas, dialogue setup (.supervisor d) pre = some told ∧
      Escalation.Replaces setup.config.priceBumpPercent x.options v w told market gas := by
  obtain ⟨hpre, hstep, hpost⟩ := h.around
  have hwatched := hpre.watched d
  rcases accepted?_eq_some_iff.mp hw with ⟨i, hash, -, hd, -⟩ | ⟨hash, ha, hb⟩
  · -- The first variant follows none.
    have hnone : e.before.deliveries[d]? = none := List.getElem?_eq_none (Nat.le_of_eq hd)
    rw [(hwatched.before hnone).1] at hv
    contradiction
  · obtain ⟨y, hy, hs⟩ := broadcasting?_supervisor_eq_some_iff.mp hb
    obtain ⟨told, tx, htold, hasked, hwtx⟩ := (hpre.snoc hstep).replacement hsigns hs hy
    obtain rfl : v = y.current := Option.some.inj (hv.symm.trans (hwatched.since y hy).current)
    obtain ⟨hsender, hchain⟩ := hpre.signer_of_variants hsigns (List.mem_of_getLast? hv)
    obtain ⟨market, gas, hreplaces⟩ := hasked.replaces (w := w) (by rw [hwtx, hsender, hchain])
    obtain ⟨z, hz, -, hoptions, -⟩ := ((History.single hstep).append hpost).fixed hy
    obtain rfl := Option.some.inj (hz.symm.trans hx)
    exact ⟨_, market, gas, htold, hoptions ▸ hreplaces⟩

/-- **Each variant replaces the one before.** -/
theorem History.isChain_variants (h : History setup .start tr s)
    (hsigns : ∀ e ∈ tr, SignsFor setup account chain e) (hx : s.deliveries[d]? = some x) :
    (variants setup d tr).IsChain fun v w => ∃ told market gas,
      Escalation.Replaces setup.config.priceBumpPercent x.options v w told market gas := by
  induction h generalizing x with
  | nil => exact .nil
  | @snoc tr t u a seen h hstep ih =>
    have hbefore := fun e he => hsigns e (List.mem_append_left _ he)
    have hchain : (variants setup d tr).IsChain fun v w => ∃ told market gas,
        Escalation.Replaces setup.config.priceBumpPercent x.options v w told market gas := by
      cases hy : t.deliveries[d]? with
      | none =>
        rw [((h.watched d).before hy).1]
        exact .nil
      | some y =>
        obtain ⟨z, hz, -, hoptions, -⟩ := (History.single hstep).fixed hy
        obtain rfl := Option.some.inj (hz.symm.trans hx)
        exact hoptions ▸ ih hbefore hy
    rw [variants_concat]
    refine List.isChain_append.mpr ⟨hchain, ?_, fun v hv w hw => ?_⟩
    · cases (⟨t, a, seen, u⟩ : Transition κ).accepted? setup d with
      | none => exact .nil
      | some w => exact .singleton w
    · have haccepted : (⟨t, a, seen, u⟩ : Transition κ).accepted? setup d = some w := by
        cases hacc : (⟨t, a, seen, u⟩ : Transition κ).accepted? setup d <;> simp [hacc] at hw ⊢
        exact hw
      have hlast : History setup .start (tr ++ ⟨t, a, seen, u⟩ :: []) u := h.snoc hstep
      obtain ⟨told, market, gas, -, hreplaces⟩ := hlast.replaces hbefore hx hv haccepted
      exact ⟨told, market, gas, hreplaces⟩

omit [DecidableEq κ] in
/-- Where a supervisor is after a reply to an attempt. -/
theorem stage_of_escalate (hx : s.deliveries[d]? = some x) (progress : Escalation.Progress) :
    ∃ x', (s.escalate d x progress).1.deliveries[d]? = some x' ∧
      x'.stage = match progress with
        | .asking esc => .replacing esc
        | .ended (.ok none) => .waiting
        | .ended (.ok (some replacement)) => .rebroadcasting replacement
        | .ended (.error err) =>
          if err.isTerminal then .ended (.failed ⟨x.current, err⟩) else .waiting := by
  have hset (x' : Delivery) : (s.deliveries.set d x')[d]? = some x' :=
    List.getElem?_set_self (List.getElem?_eq_some_iff.mp hx).1
  cases progress with
  | asking esc => exact ⟨_, hset _, rfl⟩
  | ended result =>
    rcases result with err | _ | replacement
    · cases herr : err.isTerminal with
      | true =>
        simp only [escalate, herr, if_true, conclude_eq]
        exact ⟨_, hset _, rfl⟩
      | false =>
        simp only [escalate, herr, Bool.false_eq_true, if_false]
        exact ⟨_, hset _, rfl⟩
    · exact ⟨_, hset _, rfl⟩
    · exact ⟨_, hset _, rfl⟩

/-- A supervisor that is told a price makes something of it. -/
theorem escalate_of_price {market : GasPrice}
    (h : s.step? setup (.reply (.supervisor d) (.price market)) = some (t, seen)) :
    ∃ x esc progress, s.deliveries[d]? = some x ∧ x.stage = .replacing esc ∧
      esc.advance? setup.config.priceBumpPercent (.price market) = some progress ∧
      s.escalate d x progress = (t, seen) := by
  obtain ⟨x, hx, h⟩ := Option.bind_eq_some_iff.mp h
  split at h
  case h_1 esc hs =>
    obtain ⟨progress, hp, h⟩ := Option.bind_eq_some_iff.mp h
    exact ⟨x, esc, progress, hx, hs, hp, Option.some.inj h⟩
  all_goals simp_all

/-- **Every tick starts from the last accepted variant.** -/
theorem History.stage_of_tick (h : History setup .start (pre ++ e :: post) s)
    (ha : e.action = .tick d) : ∃ x x' v, e.before.deliveries[d]? = some x ∧
      (variants setup d pre).getLast? = some v ∧ e.after.deliveries[d]? = some x' ∧
      x'.stage = .replacing (.start v x.options) := by
  obtain ⟨hpre, hstep, -⟩ := h.around
  rw [ha] at hstep
  obtain ⟨x, hx, hstep⟩ := Option.bind_eq_some_iff.mp hstep
  obtain ⟨-, hstep⟩ := Option.ite_none_right_eq_some.mp hstep
  have hlt : d < e.before.deliveries.length := (List.getElem?_eq_some_iff.mp hx).1
  refine ⟨x, { x with
    ticker := x.ticker.serve e.before.now
    stage := .replacing (.start x.current x.options) }, x.current, hx,
    ((hpre.watched d).since x hx).current, ?_, rfl⟩
  rw [← (Prod.mk.inj (Option.some.inj hstep)).1]
  exact List.getElem?_set_self hlt

/-- **What a supervisor makes of the market price.** -/
theorem History.stage_of_price (h : History setup .start (pre ++ e :: post) s)
    (hsigns : ∀ e ∈ pre, SignsFor setup account chain e) {market : GasPrice}
    (ha : e.action = .reply (.supervisor d) (.price market)) :
    ∃ x x' v, e.before.deliveries[d]? = some x ∧ (variants setup d pre).getLast? = some v ∧
      e.after.deliveries[d]? = some x' ∧
      x'.stage = match nextGasPrice v.tx.gasPrice market setup.config.priceBumpPercent
          x.options.ceiling with
        | .error err => .ended (.failed ⟨v, err⟩)
        | .ok none => .waiting
        | .ok (some price) => .replacing ((Escalation.start v x.options).priced price) := by
  obtain ⟨hpre, hstep, -⟩ := h.around
  rw [ha] at hstep
  obtain ⟨x, esc, progress, hx, hs, hp, hstep⟩ := escalate_of_price hstep
  obtain ⟨hpricing, hprogress⟩ := Escalation.advance?_price hp
  -- An attempt that reads the price has just started from the last accepted variant.
  have hstart : esc = .start x.current x.options := by
    have hunderway := hpre.underway hsigns hx
    rw [hs] at hunderway
    obtain ⟨hbase, hoptions, -⟩ := hunderway.of_replacing
    rw [← hbase, ← hoptions, Escalation.start, ← hpricing]
  subst hstart
  obtain ⟨x', hx', hstage⟩ := stage_of_escalate hx progress
  rw [hstep] at hx'
  refine ⟨x, x', x.current, hx, ((hpre.watched d).since x hx).current, hx', ?_⟩
  rw [hstage, hprogress]
  dsimp only [Escalation.start]
  cases hprice : nextGasPrice x.current.tx.gasPrice market setup.config.priceBumpPercent
      x.options.ceiling with
  | error err =>
    obtain ⟨-, l, price, -, -, -, rfl⟩ := nextGasPrice_eq_error_iff.mp hprice
    rfl
  | ok result => cases result <;> rfl

/-- The variants of a delivery differ in gas and price at most. -/
theorem History.sameButGas_variants (h : History setup .start tr s)
    (hsigns : ∀ e ∈ tr, SignsFor setup account chain e) (hx : s.deliveries[d]? = some x)
    {v w : SignedTx} (hv : v ∈ variants setup d tr) (hw : w ∈ variants setup d tr) :
    v.tx.SameButGas w.tx := by
  let R : SignedTx → SignedTx → Prop := fun v w => v.tx.SameButGas w.tx
  have htrans : Trans R R R := ⟨fun h h' => h.trans h'⟩
  have hsymm : Std.Symm R := ⟨fun _ _ h => Transaction.SameButGas.symm h⟩
  have hchain : (variants setup d tr).IsChain R :=
    (h.isChain_variants hsigns hx).imp fun v w ⟨_, _, _, hreplaces⟩ => hreplaces.same
  have hrefl : ∀ v ∈ variants setup d tr, R v v := fun v _ => .refl v.tx
  exact (List.isChain_iff_pairwise.mp hchain).forall_of_forall hrefl hv hw

/-- **Every variant pays more than all before it.** -/
theorem History.pairwise_lt_variants (h : History setup .start tr s)
    (hsigns : ∀ e ∈ tr, SignsFor setup account chain e) (hx : s.deliveries[d]? = some x) :
    (variants setup d tr).Pairwise fun v w => v.tx.gasPrice.toNat < w.tx.gasPrice.toNat := by
  let R : SignedTx → SignedTx → Prop := fun v w => v.tx.gasPrice.toNat < w.tx.gasPrice.toNat
  have htrans : Trans R R R := ⟨fun h h' => Nat.lt_trans h h'⟩
  have hchain : (variants setup d tr).IsChain R := by
    refine (h.isChain_variants hsigns hx).imp fun v w ⟨_, _, _, hreplaces⟩ => ?_
    show v.tx.gasPrice.toNat < w.tx.gasPrice.toNat
    have hlt := hreplaces.lt_market
    have hmax := hreplaces.price_eq
    omega
  exact List.isChain_iff_pairwise.mp hchain

/-- A delivery whose first price is above the limit keeps its first variant. -/
theorem History.variants_eq_singleton (h : History setup .start tr s)
    (hsigns : ∀ e ∈ tr, SignsFor setup account chain e) (hx : s.deliveries[d]? = some x)
    {limit : GasPrice} (hlimit : x.options.priceLimit = some limit) (hne : limit ≠ 0)
    {v : SignedTx} (hv : (variants setup d tr).head? = some v)
    (habove : limit.toNat < v.tx.gasPrice.toNat) : variants setup d tr = [v] := by
  have hchain := h.isChain_variants hsigns hx
  have hlt := h.pairwise_lt_variants hsigns hx
  match hvs : variants setup d tr with
  | [] => simp [hvs] at hv
  | [v'] => simpa [hvs] using hv
  | v' :: w :: rest =>
    rw [hvs] at hv hchain hlt
    obtain rfl := Option.some.inj hv
    obtain ⟨_, _, _, hreplaces⟩ := (List.isChain_cons_cons.mp hchain).1
    have hle := hreplaces.le_limit limit hlimit hne
    have hraised := List.rel_of_pairwise_cons hlt List.mem_cons_self
    omega

/-- The options of a delivery at a moment are those it has at the end. -/
theorem History.options_eq (h : History setup .start (pre ++ e :: post) s)
    (hx : s.deliveries[d]? = some x) {y : Delivery} (hy : e.before.deliveries[d]? = some y) :
    y.options = x.options := by
  obtain ⟨-, hstep, hpost⟩ := h.around
  obtain ⟨z, hz, -, hoptions, -⟩ := ((History.single hstep).append hpost).fixed hy
  obtain rfl := Option.some.inj (hz.symm.trans hx)
  exact hoptions.symm

/-- **Escalation.** Whatever chain, signer and callers do, the variants that the node accepts for a
delivery, in this order,

* differ in gas and price at most, and every one pays more than all before it;
* replace one another: each comes from what the supervisor was told since its last tick, and pays
  the larger of the market price it was told and the raised price of the variant before, within the
  caller's limit; its gas is the estimate it was told if the caller wanted one, and stays otherwise;
* are one only if the first is above the limit.

Every tick starts again from the last of them. A market price at or below its price is no reason
for a replacement; a price above the limit ends the delivery; any other is gone on with, so that
without a limit the price ends nothing. -/
theorem History.escalates (h : History setup .start tr s)
    (hsigns : ∀ e ∈ tr, SignsFor setup account chain e) (hx : s.deliveries[d]? = some x) :
    (∃ i, (∃ e ∈ tr, e.Launches i d) ∧
      (s.request? i).bind Request.options? = some x.options) ∧
    (∀ v ∈ variants setup d tr, ∀ w ∈ variants setup d tr, v.tx.SameButGas w.tx) ∧
    ((variants setup d tr).Pairwise fun v w => v.tx.gasPrice.toNat < w.tx.gasPrice.toNat) ∧
    (∀ pre e post v w, tr = pre ++ e :: post → (variants setup d pre).getLast? = some v →
      e.accepted? setup d = some w →
      ∃ told market gas, dialogue setup (.supervisor d) pre = some told ∧
        Escalation.Replaces setup.config.priceBumpPercent x.options v w told market gas) ∧
    (∀ limit v, x.options.priceLimit = some limit → limit ≠ 0 →
      (variants setup d tr).head? = some v → limit.toNat < v.tx.gasPrice.toNat →
      variants setup d tr = [v]) ∧
    (∀ pre e post, tr = pre ++ e :: post → e.action = .tick d →
      ∃ v x', (variants setup d pre).getLast? = some v ∧ e.after.deliveries[d]? = some x' ∧
        x'.stage = .replacing (.start v x.options)) ∧
    ∀ pre e post market, tr = pre ++ e :: post →
      e.action = .reply (.supervisor d) (.price market) →
      ∃ v x', (variants setup d pre).getLast? = some v ∧ e.after.deliveries[d]? = some x' ∧
        (market.toNat ≤ v.tx.gasPrice.toNat → x'.stage = .waiting) ∧
        (v.tx.gasPrice.toNat < market.toNat →
          ∃ price : GasPrice, price.toNat = max market.toNat
              (bumpPrice v.tx.gasPrice setup.config.priceBumpPercent).toNat ∧
            (∀ limit, x.options.priceLimit = some limit → limit ≠ 0 →
              limit.toNat < price.toNat →
              x'.stage = .ended (.failed ⟨v, .overPriceLimit limit price⟩)) ∧
            ((∀ limit, x.options.priceLimit = some limit → limit ≠ 0 →
              price.toNat ≤ limit.toNat) →
              x'.stage = .replacing ((Escalation.start v x.options).priced price))) := by
  have hbefore {pre post : List (Transition κ)} {e : Transition κ} (htr : tr = pre ++ e :: post) :
      ∀ e ∈ pre, SignsFor setup account chain e :=
    fun e he => hsigns e (htr ▸ List.mem_append_left _ he)
  refine ⟨h.exists_launches_options hx, fun v hv w hw => h.sameButGas_variants hsigns hx hv hw,
    h.pairwise_lt_variants hsigns hx, ?_, ?_, ?_, ?_⟩
  · rintro pre e post v w rfl hv hw
    exact h.replaces (hbefore rfl) hx hv hw
  · intro limit v hlimit hne hv habove
    exact h.variants_eq_singleton hsigns hx hlimit hne hv habove
  · rintro pre e post rfl ha
    obtain ⟨y, x', v, hy, hv, hx', hstage⟩ := h.stage_of_tick ha
    exact ⟨v, x', hv, hx', h.options_eq hx hy ▸ hstage⟩
  · rintro pre e post market rfl ha
    obtain ⟨y, x', v, hy, hv, hx', hstage⟩ := h.stage_of_price (hbefore rfl) ha
    rw [h.options_eq hx hy] at hstage
    refine ⟨v, x', hv, hx', fun hle => ?_, fun hlt => ?_⟩
    · rw [hstage, nextGasPrice_of_le hle]
    · obtain ⟨price, hprice⟩ : ∃ price : GasPrice, price.toNat = max market.toNat
          (bumpPrice v.tx.gasPrice setup.config.priceBumpPercent).toNat :=
        ⟨_, toNat_raisedPrice⟩
      refine ⟨price, hprice, fun limit hlimit hne habove => ?_, fun hwithin => ?_⟩
      · have hceiling := DeliveryOptions.ceiling_eq_some_iff.mpr ⟨hlimit, hne⟩
        rw [hstage, nextGasPrice_eq_error_iff.mpr
          ⟨hlt, limit, price, hceiling, hprice, habove, rfl⟩]
      · have hsome := nextGasPrice_eq_some_iff.mpr ⟨hlt, hprice, fun limit hceiling =>
          have hlimit := DeliveryOptions.ceiling_eq_some_iff.mp hceiling
          hwithin limit hlimit.1 hlimit.2⟩
        rw [hstage, hsome]

/-- The variants of this run go up in price. -/
theorem escalates_replacedRun :
    ∃ (tr : List (Transition Unit)) (s : Service Unit) (x : Delivery),
      History sampleSetup .start tr s ∧ tr.map (·.action) = replacedRun ∧
      (∀ e ∈ tr, SignsFor sampleSetup 7 0 e) ∧ s.deliveries[0]? = some x ∧
      variants sampleSetup 0 tr = [sampleSigned 4, sampleReplacement] ∧
      (sampleSigned 4).tx.SameButGas sampleReplacement.tx ∧
      (variants sampleSetup 0 tr).Pairwise
        fun v w => v.tx.gasPrice.toNat < w.tx.gasPrice.toNat := by
  have hrun : (start.trace? sampleSetup replacedRun).map (fun r =>
      (r.1.all fun e => decide (SignsFor sampleSetup 7 0 e), r.2.deliveries.length,
        variants sampleSetup 0 r.1)) =
      some (true, 1, [sampleSigned 4, sampleReplacement]) := by decide
  obtain ⟨tr, s, h, has, hb⟩ := exists_history hrun
  simp only [Prod.mk.injEq, List.all_eq_true, decide_eq_true_eq] at hb
  obtain ⟨hsigns, hlength, hvariants⟩ := hb
  have hx : s.deliveries[0]? = some s.deliveries[0] := List.getElem?_eq_getElem (by omega)
  obtain ⟨-, hsame, hlt, -⟩ := h.escalates hsigns hx
  exact ⟨tr, s, _, h, has, hsigns, hx, hvariants,
    hsame _ (by simp [hvariants]) _ (by simp [hvariants]), hlt⟩

end Service

end TxDelivery
