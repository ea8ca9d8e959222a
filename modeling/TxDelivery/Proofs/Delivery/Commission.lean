import TxDelivery.Proofs.Delivery.Escalation
import TxDelivery.Proofs.Delivery.Evidence

/-!
# What becomes of the caller's transaction

Between the caller and the event that ends its delivery a transaction is filled in, given a nonce,
signed, repriced and signed again. Of all this the gas price, the gas limit and the nonce are the
delivery's own business (`TxDelivery.Transaction.Agrees`), and sender and chain are the signer's
(`TxDelivery.Transaction.forSigner`). **All else comes back as the caller handed it over**, in every
variant of the delivery (`TxDelivery.Service.History.agrees_of_variants`) and in the event
(`TxDelivery.Service.History.agrees_of_outcome`).

There are four stations on the way, and agreement is transitive, so that each needs a lemma about
itself only:

* a submission has the caller's transaction, with the sender filled in and perhaps a price and a gas
  limit (`TxDelivery.Service.History.tx_of_submitting`). That is an induction on the run: a
  submission is opened with the transaction of a request, and its steps touch only those fields;
* what it broadcasts is that transaction, signed
  (`TxDelivery.Service.History.agrees_of_broadcasting`);
* the variants of a delivery differ in gas and price at most, the first of them being what was
  broadcast, which is what escalation says;
* an outcome is about a variant of its delivery (`TxDelivery.Service.History.tx_mem_variants`). For
  a confirmation that is the soundness of confirmations, and a delivery is given up with its current
  variant.

Nothing relates two events to each other directly, and none of the stations looks at the next.

As before, the signer is taken to sign what it is given, filling in its own account and chain
(`TxDelivery.Service.SignsFor`). Without that a caller's amount could come back as any other, and no
check of the service would notice.
-/

namespace TxDelivery

namespace Transaction

/-- **Two transactions that agree on all but gas price, gas limit and nonce.** -/
def Agrees (tx tx' : Transaction) : Prop :=
  tx' = { tx with gasPrice := tx'.gasPrice, gasLimit := tx'.gasLimit, nonce := tx'.nonce }

instance (tx tx' : Transaction) : Decidable (tx.Agrees tx') :=
  inferInstanceAs (Decidable (_ = _))

/-- The transaction as a signer leaves it: sent by its account, for its chain. -/
def forSigner (tx : Transaction) (account : Address) (chain : UInt64) : Transaction :=
  { tx with sender := account, chainId := chain }

variable {tx tx' tx'' : Transaction}

theorem Agrees.trans (h : tx.Agrees tx') (h' : tx'.Agrees tx'') : tx.Agrees tx'' := by
  rw [Agrees, h', h]

theorem SameButGas.agrees (h : tx.SameButGas tx') : tx.Agrees tx' := by
  rw [Agrees, h]

end Transaction

variable {κ : Type}

/-- A delivery is given up with the last variant the node accepted. -/
theorem Delivery.Ends.failed {setup : Setup κ} {now : Nat} {d : DeliveryId} {x : Delivery}
    {a : Action κ} {event : ErrorEvent} (h : x.Ends setup now d a (.failed event)) :
    event.tx = x.current := by
  cases h <;> rfl

namespace Service

variable [DecidableEq κ] {setup : Setup κ} {s t : Service κ}
  {tr pre post : List (Transition κ)} {e : Transition κ} {i : OperationId} {d : DeliveryId}
  {account : Address} {chain : UInt64} {tx : Transaction} {v : SignedTx} {outcome : Outcome}
  {r : Request κ}

/-! ### Submissions -/

/-- **A submission goes on with the caller's transaction**, sent by the signer; price and gas may be
filled in. -/
theorem History.tx_of_submitting (h : History setup .start tr s) {sub : Submission κ}
    (hi : s.stage? i = some (.submitting sub)) :
    ∃ tx, (s.request? i).bind Request.tx? = some tx ∧
      sub.tx = { tx with
        sender := setup.address
        gasPrice := sub.tx.gasPrice
        gasLimit := sub.tx.gasLimit } := by
  induction h generalizing sub with
  | nil => simp [Service.start, stage?] at hi
  | @snoc tr t u a seen h hstep ih =>
    have hkept {tx : Transaction} (htx : (t.request? i).bind Request.tx? = some tx) :
        (u.request? i).bind Request.tx? = some tx := by
      obtain ⟨r, hr, htx⟩ := Option.bind_eq_some_iff.mp htx
      rw [request?_of_step? hstep hr, Option.bind_some, htx]
    cases submissionSource_of_step? hstep hi with
    | opened hr _ _ htx =>
      obtain ⟨tx, htx, hsub⟩ := htx
      exact ⟨tx, by rw [hr, Option.bind_some, htx], by rw [hsub]⟩
    | still hst =>
      obtain ⟨tx, htx, hsub⟩ := ih hst
      exact ⟨tx, hkept htx, hsub⟩
    | moved hst _ _ _ hmoved =>
      obtain ⟨tx, htx, hsub⟩ := ih hst
      exact ⟨tx, hkept htx, by rw [hmoved, hsub]⟩
    | signed hst _ _ hsub' =>
      obtain ⟨tx, htx, hsub⟩ := ih hst
      rw [hsub']
      exact ⟨tx, hkept htx, hsub⟩

/-- **What an operation broadcasts** is the caller's transaction, signed. -/
theorem History.agrees_of_broadcasting (h : History setup .start tr s)
    (hsigns : ∀ e ∈ tr, SignsFor setup account chain e)
    (hb : s.broadcasting? setup (.operation i) = some v) :
    ∃ tx, (s.request? i).bind Request.tx? = some tx ∧
      (tx.forSigner account chain).Agrees v.tx := by
  obtain ⟨sub, deadline, hst, hs⟩ := broadcasting?_operation_eq_some_iff.mp hb
  clear hb
  induction h generalizing sub with
  | nil => simp [Service.start, stage?] at hst
  | @snoc tr t u a seen h hstep ih =>
    have hkept (hbefore : ∃ tx, (t.request? i).bind Request.tx? = some tx ∧
          (tx.forSigner account chain).Agrees v.tx) :
        ∃ tx, (u.request? i).bind Request.tx? = some tx ∧
          (tx.forSigner account chain).Agrees v.tx := by
      obtain ⟨tx, htx, hagrees⟩ := hbefore
      obtain ⟨r, hr, htx⟩ := Option.bind_eq_some_iff.mp htx
      exact ⟨tx, by rw [request?_of_step? hstep hr, Option.bind_some, htx], hagrees⟩
    cases submissionSource_of_step? hstep hst with
    | still hst' =>
      exact hkept (ih (fun e he => hsigns e (List.mem_append_left _ he)) sub hst' hs)
    | opened _ _ hsigned => simp [hs, Submission.Stage.isSigned] at hsigned
    | moved _ _ _ hnone => exact absurd hs (hnone _ _)
    | @signed sub' n signed hst' hs' ha hsub =>
      obtain rfl : signed = v := by
        rw [hsub] at hs
        exact (Submission.Stage.broadcasting.inj hs).1
      -- What was given to the signer is the caller's transaction, filled in.
      obtain ⟨tx, htx, hfilled⟩ := h.tx_of_submitting hst'
      have hlast := hsigns ⟨t, a, seen, u⟩ (List.mem_append_right _ (List.mem_singleton_self _))
      refine hkept ⟨tx, htx, ?_⟩
      rw [hlast _ _ _ (pending?_of_signing hst' hs') ha, Transaction.Agrees, hfilled]
      rfl

/-! ### Variants and outcomes -/

omit [DecidableEq κ] in
/-- A step that starts a delivery gets its first variant accepted. -/
theorem Transition.Launches.exists_accepted (h : e.Launches i d) (setup : Setup κ) :
    ∃ v, e.before.broadcasting? setup (.operation i) = some v ∧ e.accepted? setup d = some v := by
  obtain ⟨⟨hash, ha⟩, ⟨sub, signed, deadline, hst, hs⟩, hd⟩ := h
  have hb : e.before.broadcasting? setup (.operation i) = some signed :=
    broadcasting?_operation_eq_some_iff.mpr ⟨sub, deadline, hst, hs⟩
  exact ⟨signed, hb, accepted?_eq_some_iff.mpr (.inl ⟨i, hash, ha, hd.symm, hb⟩)⟩

/-- What an operation is about stays the same, from a step of a run to its end. -/
theorem History.request?_of_before (h : History setup .start (pre ++ e :: post) s)
    (hr : e.before.request? i = some r) : s.request? i = some r := by
  obtain ⟨-, hstep, hpost⟩ := h.around
  exact hpost.request?_eq (request?_of_step? hstep hr)

/-- **Every variant of a delivery is the caller's transaction** but for gas price, gas limit and
nonce, and with the account and the chain of the signer. -/
theorem History.agrees_of_variants (h : History setup .start tr s)
    (hsigns : ∀ e ∈ tr, SignsFor setup account chain e) (he : e ∈ tr) (hlaunch : e.Launches i d)
    (htx : (s.request? i).bind Request.tx? = some tx) (hv : v ∈ variants setup d tr) :
    (tx.forSigner account chain).Agrees v.tx := by
  obtain ⟨first, hb, haccepted⟩ := hlaunch.exists_accepted setup
  have hfirst : first ∈ variants setup d tr := List.mem_filterMap.mpr ⟨e, he, haccepted⟩
  obtain ⟨x, hx⟩ : ∃ x, s.deliveries[d]? = some x := by
    refine Option.ne_none_iff_exists'.mp fun hnone => ?_
    rw [((h.watched d).before hnone).1] at hv
    contradiction
  obtain ⟨pre, post, rfl⟩ := List.append_of_mem he
  obtain ⟨tx', htx', hagrees⟩ := h.around.1.agrees_of_broadcasting
    (fun e he => hsigns e (List.mem_append_left _ he)) hb
  obtain rfl : tx' = tx := by
    obtain ⟨r, hr, hr'⟩ := Option.bind_eq_some_iff.mp htx'
    rw [h.request?_of_before hr, Option.bind_some, hr'] at htx
    exact Option.some.inj htx
  exact hagrees.trans (h.sameButGas_variants hsigns hx hfirst hv).agrees

omit [DecidableEq κ] in
/-- What is among the outcomes of a delivery was published for it. -/
theorem exists_published (ho : outcome ∈ outcomesOf d tr) :
    ∃ e ∈ tr, .published d outcome ∈ e.seen := by
  obtain ⟨o, hmem, hout⟩ := List.mem_filterMap.mp ho
  obtain ⟨e, he, hseen⟩ := List.mem_flatMap.mp hmem
  refine ⟨e, he, ?_⟩
  cases o with
  | published d' outcome' =>
    obtain ⟨rfl, rfl⟩ : d' = d ∧ outcome' = outcome := by simpa [Observation.outcome?] using hout
    exact hseen
  | _ => contradiction

/-- **Every outcome is about a variant of its delivery.** -/
theorem History.tx_mem_variants (h : History setup .start tr s) (ho : outcome ∈ outcomesOf d tr) :
    outcome.tx ∈ variants setup d tr := by
  obtain ⟨e, he, hpublished⟩ := exists_published ho
  obtain ⟨pre, post, rfl⟩ := List.append_of_mem he
  obtain ⟨hpre, hstep, -⟩ := h.around
  obtain ⟨⟨x, hx, hends⟩, -⟩ := ends_of_published hstep hpublished
  have hwatch := (hpre.watched d).since x hx
  have hbefore : outcome.tx ∈ variants setup d pre := by
    cases hends' : outcome with
    | failed event =>
      rw [hends'] at hends
      exact List.mem_of_getLast? (by rw [hwatch.current, ← hends.failed]; rfl)
    | confirmed event =>
      rw [hends'] at hends
      -- What the listener returned is one of the last two variants it received.
      have hrecent : event.tx ∈ x.listener.recent.toList := by
        refine hpre.delivery Delivery.looked_invariant hx _ ?_
        rw [hends.confirmed.1]
        exact Option.mem_toList.mpr rfl
      have hreceived := List.mem_of_mem_take (hwatch.mem_recent.mp hrecent)
      exact hwatch.mem_variants (List.mem_reverse.mp hreceived)
  rw [variants, List.filterMap_append]
  exact List.mem_append_left _ hbefore

/-- **The transaction in an event is the caller's** but for gas price, gas limit and nonce, and with
the account and the chain of the signer. -/
theorem History.agrees_of_outcome (h : History setup .start tr s)
    (hsigns : ∀ e ∈ tr, SignsFor setup account chain e) (he : e ∈ tr) (hlaunch : e.Launches i d)
    (htx : (s.request? i).bind Request.tx? = some tx) (ho : outcome ∈ outcomesOf d tr) :
    (tx.forSigner account chain).Agrees outcome.tx.tx :=
  h.agrees_of_variants hsigns he hlaunch htx (h.tx_mem_variants ho)

end Service

end TxDelivery
