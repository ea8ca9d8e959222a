import TxDelivery.Chain.Wallet
import TxDelivery.Proofs.Delivery.Life

/-!
# What a transaction is about

The recipient, the input and the value of a transaction are what it is about
(`TxDelivery.Transaction.SamePayload`); the rest is filled in, or changed, on its way to the chain.
**A submission and all the variants of a delivery are about the same** (`TxDelivery.Operation.Fits`,
`TxDelivery.Delivery.Uniform`), so that a key that is read off the payload
(`TxDelivery.Setup.KeyedByPayload`) is the same for all of them.

This takes a signer that signs what it is given, as a wallet does
(`TxDelivery.Wallet.samePayload_of_sign`), and a service that is used through its queue alone
(`TxDelivery.Service.ThroughQueue`).

## Wherever a transaction may be

A delivery has transactions in many places. There is the last variant the node accepted, the variant
a replacement is made from and the one that is being signed, those in the channel to the listener,
those it keeps at hand, and those it is looking at. All of them are gathered in one list
(`TxDelivery.Delivery.transactions`), and being uniform is a property of this list. What a step does
is then a matter of which transactions are in the list afterwards: almost always they were in it
before (`TxDelivery.Delivery.Uniform.of_subset`). The exceptions are a replacement that is signed
and one that takes the place of the variant it was made from, and about both it is known what they
were made of.

For a listener it takes some care, as it moves variants from one place to another with every step.
Each of its steps either keeps what is at hand and looks at fewer variants, or shifts a variant from
the channel to those at hand (`TxDelivery.Listener.kept_of_advance?`,
`TxDelivery.Listener.mem_variants_of_receive?`).

Operations and deliveries depend on each other: a delivery is about what its submission was about,
and a submission is made of what the caller asked for. So they are kept by one induction
(`TxDelivery.Service.Filed.step`), and hold together of every state a run leads to
(`TxDelivery.Service.History.filed`).
-/

namespace TxDelivery

namespace Transaction

/-- **Two transactions are about the same.** -/
structure SamePayload (tx tx' : Transaction) : Prop where
  /-- The recipient is the same. -/
  recipient : tx.recipient = tx'.recipient
  /-- The input is the same. -/
  input : tx.input = tx'.input
  /-- The value is the same. -/
  value : tx.value = tx'.value

namespace SamePayload

variable {tx tx' tx'' : Transaction}

theorem refl (tx : Transaction) : tx.SamePayload tx := ⟨rfl, rfl, rfl⟩

theorem symm (h : tx.SamePayload tx') : tx'.SamePayload tx :=
  ⟨h.recipient.symm, h.input.symm, h.value.symm⟩

theorem trans (h : tx.SamePayload tx') (h' : tx'.SamePayload tx'') : tx.SamePayload tx'' :=
  ⟨h.recipient.trans h'.recipient, h.input.trans h'.input, h.value.trans h'.value⟩

end SamePayload

instance (tx tx' : Transaction) : Decidable (tx.SamePayload tx') :=
  decidable_of_iff (tx.recipient = tx'.recipient ∧ tx.input = tx'.input ∧ tx.value = tx'.value)
    ⟨fun h => ⟨h.1, h.2.1, h.2.2⟩, fun h => ⟨h.recipient, h.input, h.value⟩⟩

end Transaction

namespace Wallet

/-- A transaction that was signed is the one to be signed. -/
theorem tx_of_withSignature {tx : Transaction} {signed : SignedTx}
    {signature : Option Secp256k1.Signature} (h : withSignature tx signature = .ok signed) :
    signed.tx = tx := by
  cases signature with
  | none => contradiction
  | some signature =>
    obtain rfl := Except.ok.inj h
    rfl

/-- **What a wallet signs is what it was given.** -/
theorem samePayload_of_sign {w : Wallet} {tx : Transaction} {signed : SignedTx}
    (h : w.sign tx = .ok signed) : signed.tx.SamePayload tx := by
  unfold sign at h
  rw [tx_of_withSignature h]
  exact ⟨rfl, rfl, rfl⟩

end Wallet

variable {κ : Type}

/-- **Keys are read off the payload.** -/
def Setup.KeyedByPayload (setup : Setup κ) : Prop :=
  ∀ tx tx' : Transaction, tx.SamePayload tx' → setup.keyOf tx = setup.keyOf tx'

/-- What may be asked of a service whose broadcasts all go through the queue, and whose statuses
nobody sets by hand. -/
def Request.isOfQueue : Request κ → Bool
  | .send _ _ | .sendAndWait _ _ | .mark _ _ => false
  | .enqueue _ _ | .estimate _ | .replace _ _ | .resetNonce | .status _ => true

/-! ### Submissions -/

/-- **An operation that fits its request**: only sends through the queue make broadcasts, and what
they broadcast is about what was asked for. -/
inductive Operation.Fits (setup : Setup κ) (r : Request κ) : Operation.Stage κ → Prop where
  /-- The status lock is waited for. -/
  | entering : Fits setup r .entering
  /-- A first broadcast is made for the queue. -/
  | submitting {tx : Transaction} {options : DeliveryOptions} {previous : TxStatus}
      {sub : Submission κ} (hr : r = .enqueue tx options)
      (horigin : sub.origin = .queue (setup.keyOf tx) previous)
      (hprevious : previous = .notFound ∨ previous = .error) (htx : sub.tx.SamePayload tx)
      (hsigned : ∀ signed deadline, sub.stage = .broadcasting signed deadline →
        signed.tx.SamePayload tx) :
      Fits setup r (.submitting sub)
  /-- Gas is estimated. -/
  | estimating {tx : Transaction} (hr : r = .estimate tx) : Fits setup r .estimating
  /-- A replacement is made. -/
  | replacing {base : SignedTx} {options : DeliveryOptions} {e : Escalation}
      (hr : r = .replace base options) : Fits setup r (.replacing e)
  /-- The nonce is forgotten. -/
  | resetting (hr : r = .resetNonce) : Fits setup r .resetting
  /-- The operation ended. -/
  | ended {answer : Answer} : Fits setup r (.ended answer)
  /-- The operation was dropped. -/
  | dropped : Fits setup r .dropped

/-- No broadcast is made but through the queue. -/
theorem Request.broadcast?_of_isOfQueue {r : Request κ} (h : r.isOfQueue = true) :
    r.broadcast? = none := by
  cases r <;> simp [isOfQueue, broadcast?] at h ⊢

namespace Operation.Fits

variable {setup : Setup κ} {r : Request κ} {sub sub' : Submission κ}

/-- A submission comes from the queue. -/
theorem origin (h : Fits setup r (.submitting sub)) :
    ∃ key previous, sub.origin = .queue key previous := by
  cases h with
  | submitting _ horigin => exact ⟨_, _, horigin⟩

/-- A submission that goes on for whoever asked for it. -/
theorem submitting_of (h : Fits setup r (.submitting sub)) (horigin : sub'.origin = sub.origin)
    (htx : sub'.tx.SamePayload sub.tx)
    (hsigned : ∀ signed deadline, sub'.stage = .broadcasting signed deadline →
      signed.tx.SamePayload sub.tx) : Fits setup r (.submitting sub') := by
  cases h with
  | submitting hr horigin' hprevious htx' =>
    exact .submitting hr (horigin.trans horigin') hprevious (htx.trans htx')
      fun signed deadline hs => (hsigned signed deadline hs).trans htx'

end Operation.Fits

/-- Nothing is broadcast when a submission opens. -/
theorem Submission.Opening.ne_broadcasting {lock lock' : FairLock OperationId} {i : OperationId}
    {sub : Submission κ} {seen : List Observation} (h : Opening lock i sub lock' seen)
    {signed : SignedTx} {deadline : Nat} : sub.stage ≠ .broadcasting signed deadline := by
  cases h with
  | pricing hs | estimating hs | queued hs => simp [hs]

/-! ### Deliveries -/

/-- The transactions an escalation deals with. -/
def Escalation.transactions (e : Escalation) : List Transaction :=
  e.base.tx :: match e.stage with
    | .signing tx => [tx]
    | .pricing | .estimating _ => []

/-- The transactions a supervisor deals with. -/
def Supervisor.Stage.transactions : Supervisor.Stage → List Transaction
  | .replacing e => e.transactions
  | .rebroadcasting replacement => [replacement.tx]
  | .waiting | .ended _ | .dropped => []

/-- The variants a listener looks at. -/
def Listener.Stage.variants : Listener.Stage → List SignedTx
  | .querying tx rest | .weighing tx _ rest => tx :: rest
  | .returned mined => mined.toList
  | .waiting | .stopped => []

/-- The variant an outcome is about: the one that was mined, or the last one the node accepted. -/
def Outcome.tx : Outcome → SignedTx
  | .confirmed event => event.tx
  | .failed event => event.tx

/-- All the variants a listener has. -/
def Listener.variants (l : Listener) : List SignedTx :=
  l.channel ++ l.recent.toList ++ l.stage.variants

namespace Escalation

variable {e e' : Escalation} {percent : UInt64} {reply : Reply}

/-- What an attempt deals with is about the same as the variant it starts from. -/
theorem samePayload_of_asking (h : e.advance? percent reply = some (.asking e')) :
    ∀ tx ∈ e'.transactions, tx.SamePayload e.base.tx := by
  have hsigning {price : GasPrice} {gas : UInt64} {tx : Transaction}
      (htx : tx ∈ transactions { e with
        stage := .signing { e.base.tx with gasPrice := price, gasLimit := gas } }) :
      tx.SamePayload e.base.tx := by
    rcases List.mem_cons.mp htx with rfl | htx
    · exact .refl _
    · obtain rfl := List.mem_singleton.mp htx
      exact ⟨rfl, rfl, rfl⟩
  intro tx htx
  unfold advance? at h
  split at h
  case h_1 market hs =>
    split at h
    case h_3 price hprice =>
      obtain rfl : e.priced price = e' := by simpa using h
      unfold priced at htx
      split at htx
      · obtain rfl : tx = e.base.tx := List.mem_singleton.mp htx
        exact .refl _
      · exact hsigning htx
    all_goals simp at h
  case h_3 gas hs =>
    obtain rfl : _ = e' := by simpa using h
    exact hsigning htx
  all_goals simp at h

/-- A replacement is what the signer signed. -/
theorem signing_of_ended {replacement : SignedTx}
    (h : e.advance? percent reply = some (.ended (.ok (some replacement)))) :
    ∃ tx, e.stage = .signing tx ∧ reply = .signed replacement := by
  unfold advance? at h
  split at h
  case h_1 => split at h <;> simp at h
  case h_5 unsigned signed hs =>
    obtain rfl : signed = replacement := by simpa using h
    exact ⟨unsigned, hs, rfl⟩
  all_goals simp at h

end Escalation

namespace Delivery

/-- All the transactions of a delivery. -/
def transactions (x : Delivery) : List Transaction :=
  x.stage.transactions ++ x.listener.variants.map (·.tx)

/-- **All the variants of a delivery are about the same.** -/
def Uniform (x : Delivery) : Prop := ∀ tx ∈ x.transactions, tx.SamePayload x.current.tx

end Delivery

namespace Listener

variable {l l' : Listener}

theorem mem_variants {tx : SignedTx} :
    tx ∈ l.variants ↔ tx ∈ l.channel ∨ tx ∈ l.recent.toList ∨ tx ∈ l.stage.variants := by
  simp [variants]

theorem variants_examine (txs : List SignedTx) : (examine txs).variants = txs := by
  cases txs <;> rfl

/-- A listener that has the same variants at hand as before. -/
def Kept (l l' : Listener) : Prop := l'.channel = l.channel ∧ l'.recent = l.recent

/-- What a listener looks at is looked at already, or at hand. -/
theorem Kept.mem_variants (h : l.Kept l') {tx : SignedTx}
    (hstage : tx ∈ l'.stage.variants → tx ∈ l.variants) (htx : tx ∈ l'.variants) :
    tx ∈ l.variants := by
  rw [Listener.mem_variants, h.1, h.2] at htx
  rcases htx with htx | htx | htx
  · exact Listener.mem_variants.mpr (.inl htx)
  · exact Listener.mem_variants.mpr (.inr (.inl htx))
  · exact hstage htx

/-- A listener that is stopped looks at nothing new. -/
theorem kept_stop : l.Kept l.stop ∧ ∀ tx ∈ l.stop.stage.variants, tx ∈ l.stage.variants := by
  cases hs : l.stage <;> simp [Kept, stop, hs, Stage.variants]

theorem mem_variants_of_stop {tx : SignedTx} (h : tx ∈ l.stop.variants) : tx ∈ l.variants :=
  kept_stop.1.mem_variants
    (fun htx => Listener.mem_variants.mpr (.inr (.inr (kept_stop.2 tx htx)))) h

theorem mem_recent_push {r : RecentTxs} {tx tx' : SignedTx} (h : tx ∈ (r.push tx').toList) :
    tx = tx' ∨ tx ∈ r.toList := by
  unfold RecentTxs.push at h
  split at h
  all_goals
    simp only [RecentTxs.toList, List.mem_append, Option.mem_toList] at h ⊢
    aesop

theorem mem_variants_of_notify {tx tx' : SignedTx} (h : tx ∈ (l.notify tx').variants) :
    tx = tx' ∨ tx ∈ l.variants := by
  rw [mem_variants] at h ⊢
  rcases h with h | h
  · rcases List.mem_append.mp h with h | h
    · exact .inr (.inl h)
    · exact .inl (List.mem_singleton.mp h)
  · exact .inr (.inr h)

theorem mem_variants_of_receive? {tx : SignedTx} (hl : l.receive? = some l')
    (h : tx ∈ l'.variants) : tx ∈ l.variants := by
  unfold receive? at hl
  split at hl
  case h_2 => contradiction
  case h_1 first rest _ hchannel =>
    obtain rfl := Option.some.inj hl
    rw [mem_variants] at h ⊢
    rcases h with h | h | h
    · exact .inl (hchannel ▸ List.mem_cons_of_mem _ h)
    · rcases mem_recent_push h with rfl | h
      · exact .inl (hchannel ▸ List.mem_cons_self)
      · exact .inr (.inl h)
    · exact .inr (.inr h)

/-- A listener that serves a tick looks at the variants at hand. -/
theorem kept_of_poll? {now : Nat} (h : l.poll? now = some l') :
    l.Kept l' ∧ l'.stage.variants = l.recent.toList := by
  obtain ⟨-, h⟩ := Option.ite_none_right_eq_some.mp h
  obtain rfl := Option.some.inj h
  exact ⟨⟨rfl, rfl⟩, variants_examine _⟩

theorem mem_variants_of_poll? {now : Nat} {tx : SignedTx} (hl : l.poll? now = some l')
    (h : tx ∈ l'.variants) : tx ∈ l.variants := by
  obtain ⟨hkept, hstage⟩ := kept_of_poll? hl
  exact hkept.mem_variants (fun htx => mem_variants.mpr (.inr (.inl (hstage ▸ htx)))) h

/-- A listener that gives up looks at nothing. -/
theorem kept_of_lapse? {now deadline : Nat} (h : l.lapse? now deadline = some l') :
    l.Kept l' ∧ l'.stage.variants = [] := by
  obtain ⟨-, h⟩ := Option.ite_none_right_eq_some.mp h
  obtain rfl := Option.some.inj h
  exact ⟨⟨rfl, rfl⟩, rfl⟩

theorem mem_variants_of_lapse? {now deadline : Nat} {tx : SignedTx}
    (hl : l.lapse? now deadline = some l') (h : tx ∈ l'.variants) : tx ∈ l.variants := by
  obtain ⟨hkept, hstage⟩ := kept_of_lapse? hl
  exact hkept.mem_variants (fun htx => absurd (hstage ▸ htx) List.not_mem_nil) h

/-- **A look only ever narrows**: what a listener looks at after a reply it looked at before. -/
theorem kept_of_advance? {depth : UInt64} {reply : Reply} {log : List LogEvent}
    (h : l.advance? depth reply = some (l', log)) :
    l.Kept l' ∧ ∀ tx ∈ l'.stage.variants, tx ∈ l.stage.variants := by
  have hstage {stage : Stage} (hl' : { l with stage := stage } = l')
      (hsub : ∀ tx ∈ stage.variants, tx ∈ l.stage.variants) :
      l.Kept l' ∧ ∀ tx ∈ l'.stage.variants, tx ∈ l.stage.variants := by
    subst hl'
    exact ⟨⟨rfl, rfl⟩, hsub⟩
  have hrest {first : SignedTx} {rest : List SignedTx} (hl' : { l with stage := examine rest } = l')
      (hvariants : l.stage.variants = first :: rest) :
      l.Kept l' ∧ ∀ tx ∈ l'.stage.variants, tx ∈ l.stage.variants := by
    refine hstage hl' fun tx htx => ?_
    rw [variants_examine] at htx
    exact hvariants ▸ List.mem_cons_of_mem _ htx
  unfold advance? at h
  split at h
  case h_1 hs =>
    refine hstage (Prod.mk.inj (Option.some.inj h)).1 fun tx htx => ?_
    rw [hs]
    exact htx
  case h_2 hs => exact hrest (Prod.mk.inj (Option.some.inj h)).1 (by rw [hs]; rfl)
  case h_3 hs => exact hrest (Prod.mk.inj (Option.some.inj h)).1 (by rw [hs]; rfl)
  case h_4 first receipt rest head hs =>
    split at h
    · exact hrest (Prod.mk.inj (Option.some.inj h)).1 (by rw [hs]; rfl)
    · split at h
      · refine hstage (Prod.mk.inj (Option.some.inj h)).1 fun tx htx => ?_
        obtain rfl : tx = first := by simpa [Stage.variants] using htx
        exact hs ▸ List.mem_cons_self
      · exact hrest (Prod.mk.inj (Option.some.inj h)).1 (by rw [hs]; rfl)
  case h_5 hs => exact hrest (Prod.mk.inj (Option.some.inj h)).1 (by rw [hs]; rfl)
  case h_6 => contradiction

theorem mem_variants_of_advance? {depth : UInt64} {reply : Reply} {log : List LogEvent}
    {tx : SignedTx} (hl : l.advance? depth reply = some (l', log)) (h : tx ∈ l'.variants) :
    tx ∈ l.variants := by
  obtain ⟨hkept, hstage⟩ := kept_of_advance? hl
  exact hkept.mem_variants (fun htx => mem_variants.mpr (.inr (.inr (hstage tx htx)))) h

end Listener

namespace Delivery

variable {setup : Setup κ} {now : Nat} {d : DeliveryId} {x x' : Delivery} {m m' : Metrics}
  {a : Action κ} {seen : List Observation}

theorem uniform_start (config : DeliveryConfig) (owner : Option OperationId)
    (options : DeliveryOptions) (deadline : Nat) (first : SignedTx) :
    (Delivery.start config now owner options deadline first).Uniform := by
  intro tx htx
  obtain rfl : tx = first.tx := by
    simpa [transactions, Delivery.start, Supervisor.Stage.transactions, Listener.variants,
      Listener.start, RecentTxs.toList, RecentTxs.empty, Listener.Stage.variants] using htx
  exact .refl _

theorem mem_transactions {tx : Transaction} : tx ∈ x.transactions ↔
    tx ∈ x.stage.transactions ∨ ∃ variant ∈ x.listener.variants, variant.tx = tx := by
  simp [transactions]

/-- Fewer transactions are still about the same. -/
theorem Uniform.of_subset (hx : x.Uniform) (hcurrent : x'.current = x.current)
    (hstage : ∀ tx ∈ x'.stage.transactions, tx ∈ x.stage.transactions ∨ tx.SamePayload x.current.tx)
    (hlistener : ∀ tx ∈ x'.listener.variants, tx ∈ x.listener.variants) : x'.Uniform := by
  intro tx htx
  rw [hcurrent]
  rcases mem_transactions.mp htx with htx | ⟨variant, hvariant, rfl⟩
  · rcases hstage tx htx with htx | htx
    · exact hx tx (mem_transactions.mpr (.inl htx))
    · exact htx
  · exact hx _ (mem_transactions.mpr (.inr ⟨variant, hlistener variant hvariant, rfl⟩))

/-- **A delivery stays uniform** as it proceeds, if what the signer signs is what it was given. -/
theorem Uniform.proceeds (hx : x.Uniform) (h : x.Proceeds setup now d m a x' m' seen)
    (hsigned : ∀ tx signed, x.call? = some (.sign tx) →
      a = .reply (.supervisor d) (.signed signed) → signed.tx.SamePayload tx) : x'.Uniform := by
  cases h with
  | tick hs =>
    refine hx.of_subset rfl (fun tx htx => .inr ?_) fun tx htx => htx
    obtain rfl : tx = x.current.tx := by
      simpa [Supervisor.Stage.transactions, Escalation.transactions, Escalation.start] using htx
    exact .refl _
  | note | noteStopped => exact hx.of_subset rfl (fun tx htx => .inl htx) fun tx htx => htx
  | @ask e e' _ hs hp =>
    refine hx.of_subset rfl (fun tx htx => .inr ?_) fun tx htx => htx
    have hbase : e.base.tx ∈ x.transactions := by
      refine mem_transactions.mpr (.inl ?_)
      rw [hs]
      exact List.mem_cons_self
    exact (Escalation.samePayload_of_asking hp tx htx).trans (hx _ hbase)
  | keep | retry | reject =>
    exact hx.of_subset rfl (fun tx htx => absurd htx List.not_mem_nil) fun tx htx => htx
  | @broadcast e reply replacement hs hp =>
    obtain ⟨unsigned, hstage, rfl⟩ := Escalation.signing_of_ended hp
    have hmem : unsigned ∈ x.transactions := by
      refine mem_transactions.mpr (.inl ?_)
      simp [hs, Supervisor.Stage.transactions, Escalation.transactions, hstage]
    have hcall : x.call? = some (.sign unsigned) := by
      simp only [call?, hs, Escalation.call, hstage]
    refine hx.of_subset rfl (fun tx htx => .inr ?_) fun tx htx => htx
    obtain rfl : tx = replacement.tx := List.mem_singleton.mp htx
    exact (hsigned unsigned replacement hcall rfl).trans (hx _ hmem)
  | @adopt replacement hash hs =>
    have hnew : replacement.tx.SamePayload x.current.tx := by
      refine hx _ (mem_transactions.mpr (.inl ?_))
      rw [hs]
      exact List.mem_singleton_self _
    intro tx htx
    refine Transaction.SamePayload.trans ?_ hnew.symm
    rcases mem_transactions.mp htx with htx | ⟨variant, hvariant, rfl⟩
    · exact absurd htx List.not_mem_nil
    · rcases Listener.mem_variants_of_notify hvariant with rfl | hvariant
      · exact hnew
      · exact hx _ (mem_transactions.mpr (.inr ⟨variant, hvariant, rfl⟩))
  | receive hl =>
    exact hx.of_subset rfl (fun tx htx => .inl htx) fun tx => Listener.mem_variants_of_receive? hl
  | poll hl =>
    exact hx.of_subset rfl (fun tx htx => .inl htx) fun tx => Listener.mem_variants_of_poll? hl
  | lapse hl =>
    exact hx.of_subset rfl (fun tx htx => .inl htx) fun tx => Listener.mem_variants_of_lapse? hl
  | crash => exact hx.of_subset rfl (fun tx htx => .inl htx) fun tx => Listener.mem_variants_of_stop
  | answer hl =>
    exact hx.of_subset rfl (fun tx htx => .inl htx) fun tx => Listener.mem_variants_of_advance? hl

/-- The last variant the node accepted goes on being about the same. -/
theorem Uniform.current_of_proceeds (hx : x.Uniform) (h : x.Proceeds setup now d m a x' m' seen) :
    x'.current.tx.SamePayload x.current.tx := by
  cases h with
  | adopt hs =>
    refine hx _ (mem_transactions.mpr (.inl ?_))
    rw [hs]
    exact List.mem_singleton_self _
  | _ => exact .refl _

/-- **An outcome is about what the delivery is about.** -/
theorem Uniform.outcome {outcome : Outcome} (hx : x.Uniform)
    (h : x.Ends setup now d a outcome) : outcome.tx.tx.SamePayload x.current.tx := by
  cases h with
  | expire | giveUp => exact .refl _
  | @join mined _ _ hl =>
    refine hx _ (mem_transactions.mpr (.inr ⟨mined, ?_, rfl⟩))
    refine Listener.mem_variants.mpr (.inr (.inr ?_))
    rw [hl]
    exact Option.mem_toList.mpr rfl

end Delivery

namespace Service

/-- **A step of a service that is used through its queue alone**, with a signer that signs what it
is given: sender, chain and signature are the signer's, the rest stays. -/
structure ThroughQueue (setup : Setup κ) (s : Service κ) (a : Action κ) : Prop where
  /-- What callers ask goes through the queue. -/
  request : ∀ r, a = .begin r → r.isOfQueue = true
  /-- What the signer signs is what it was given. -/
  signed : ∀ who tx signed, s.pending? setup who = some (.sign tx) →
    a = .reply who (.signed signed) → signed.tx.SamePayload tx

/-- Whether a step is one of a service that is used through its queue alone. -/
def throughQueue (setup : Setup κ) (s : Service κ) : Action κ → Bool
  | .begin r => r.isOfQueue
  | .reply who (.signed signed) =>
    match s.pending? setup who with
    | some (.sign tx) => decide (signed.tx.SamePayload tx)
    | _ => true
  | _ => true

theorem throughQueue_iff {setup : Setup κ} {s : Service κ} {a : Action κ} :
    throughQueue setup s a = true ↔ ThroughQueue setup s a := by
  constructor
  · intro h
    refine ⟨?_, ?_⟩
    · rintro r rfl
      exact h
    · rintro who tx signed hcall rfl
      simpa [throughQueue, hcall] using h
  · intro h
    unfold throughQueue
    split
    case h_1 r => exact h.request r rfl
    case h_2 who signed =>
      split
      case h_1 tx hcall => exact decide_eq_true (h.signed who tx signed hcall rfl)
      case h_2 => rfl
    case h_3 => rfl

instance (setup : Setup κ) (s : Service κ) (a : Action κ) : Decidable (ThroughQueue setup s a) :=
  decidable_of_iff _ throughQueue_iff

/-- **Every operation fits its request, and the variants of every delivery are about the same.** -/
structure Filed (setup : Setup κ) (s : Service κ) : Prop where
  /-- What is asked goes through the queue. -/
  request : ∀ {i r}, s.request? i = some r → r.isOfQueue = true
  /-- Operations fit their requests. -/
  operation : ∀ {i r st}, s.request? i = some r → s.stage? i = some st → Operation.Fits setup r st
  /-- Deliveries are uniform. -/
  delivery : ∀ {d : DeliveryId} {x : Delivery}, s.deliveries[d]? = some x → x.Uniform

variable [DecidableEq κ] {setup : Setup κ} {s t : Service κ} {a : Action κ}
  {seen : List Observation} {i j : OperationId} {r : Request κ} {st st' : Operation.Stage κ}

open Operation

omit [DecidableEq κ] in
/-- A step in which an operation goes on. -/
theorem Filed.fits_of_put (hs : s.Filed setup) (hst : s.stage? i = some st)
    (ht : t.operations = put s.operations i st')
    (hfits : ∀ r, s.request? i = some r → Fits setup r st → Fits setup r st')
    {r : Request κ} {st'' : Operation.Stage κ} (hr : t.request? j = some r)
    (hj : t.stage? j = some st'') : Fits setup r st'' := by
  rw [request?_of_put ht] at hr
  by_cases hij : i = j
  · subst hij
    obtain rfl := Option.some.inj ((stage?_put_self ht hst).symm.trans hj)
    exact hfits r hr (hs.operation hr hst)
  · exact hs.operation hr ((stage?_put_of_ne ht hij).symm.trans hj)

omit [DecidableEq κ] in
/-- A step in which an operation begins. -/
theorem Filed.fits_of_append (hs : s.Filed setup) (ht : t.operations = s.operations ++ [⟨r, st⟩])
    (hfits : Fits setup r st) {r' : Request κ} {st' : Operation.Stage κ}
    (hr : t.request? j = some r') (hj : t.stage? j = some st') : Fits setup r' st' := by
  rw [request?_of_append ht] at hr
  rw [stage?_of_append ht] at hj
  split at hr
  case isTrue hlen =>
    rw [if_pos hlen] at hj
    obtain rfl := Option.some.inj hr
    obtain rfl := Option.some.inj hj
    exact hfits
  case isFalse hlen =>
    rw [if_neg hlen] at hj
    exact hs.operation hr hj

/-- **Operations go on fitting their requests.** -/
theorem Filed.fits_of_operationStep (hs : s.Filed setup) (hq : ThroughQueue setup s a)
    (h : OperationStep setup s a (t, seen)) (hr : t.request? j = some r)
    (hj : t.stage? j = some st) : Fits setup r st := by
  cases h with
  | submit hr' =>
    rw [Request.broadcast?_of_isOfQueue (hq.request _ rfl)] at hr'
    contradiction
  | enter => exact hs.fits_of_append rfl .entering hr hj
  | estimate => exact hs.fits_of_append rfl (.estimating rfl) hr hj
  | replace => exact hs.fits_of_append rfl (.replacing rfl) hr hj
  | forget => exact hs.fits_of_append rfl (.resetting rfl) hr hj
  | duplicate hst | mark hst | read hst | forgotten hst | refuse hst | refuseQueued hst
  | launchDetached hst | launchQueued hst | answer hst =>
    exact hs.fits_of_put hst rfl (fun _ _ _ => .ended) hr hj
  | drop hst | dropWaiting hst => exact hs.fits_of_put hst rfl (fun _ _ _ => .dropped) hr hj
  | enqueue hst hr' _ _ hprevious hsub hopen =>
    refine hs.fits_of_put hst rfl (fun r hr _ => ?_) hr hj
    obtain rfl := Option.some.inj (hr'.symm.trans hr)
    refine .submitting rfl hsub.origin_eq hprevious ?_ fun _ _ hstage => ?_
    · rw [hsub.tx_eq]
      exact ⟨rfl, rfl, rfl⟩
    · exact absurd hstage hopen.ne_broadcasting
  | fetch hst | sign hst | nonce hst | tooLow hst | gas hst =>
    refine hs.fits_of_put hst rfl (fun r _ hfits => ?_) hr hj
    exact hfits.submitting_of rfl ⟨rfl, rfl, rfl⟩ fun _ _ hstage => by simp at hstage
  | price hst _ hsub _ hopen =>
    refine hs.fits_of_put hst rfl (fun r _ hfits => hfits.submitting_of ?_ ?_ ?_) hr hj
    · rw [hsub]
    · rw [hsub]
      exact ⟨rfl, rfl, rfl⟩
    · exact fun _ _ hstage => absurd hstage hopen.ne_broadcasting
  | @signed i sub n tx hst hstage =>
    refine hs.fits_of_put hst rfl (fun r _ hfits => ?_) hr hj
    refine hfits.submitting_of rfl (.refl _) fun tx' deadline htx' => ?_
    obtain rfl : tx = tx' := by
      simp only [Submission.Stage.broadcasting.injEq] at htx'
      exact htx'.1
    have hsigned := hq.signed _ _ _ (pending?_of_signing hst hstage) rfl
    exact hsigned.trans ⟨rfl, rfl, rfl⟩
  | launchAttached hst _ horigin =>
    refine hs.fits_of_put hst rfl (fun r _ hfits => ?_) hr hj
    obtain ⟨key, previous, hqueue⟩ := hfits.origin
    exact absurd (horigin.symm.trans hqueue) (by simp)
  | escalate hst =>
    refine hs.fits_of_put hst rfl (fun r _ hfits => ?_) hr hj
    cases hfits with
    | replacing hr => exact .replacing hr

/-- **Operations go on fitting their requests**, whatever the step. -/
theorem Filed.fits_of_step? (hs : s.Filed setup) (hq : ThroughQueue setup s a)
    (h : s.step? setup a = some (t, seen)) (hr : t.request? j = some r)
    (hj : t.stage? j = some st) : Fits setup r st := by
  cases operationsMove_of_step? h with
  | operation h => exact hs.fits_of_operationStep hq h hr hj
  | still ht =>
    rw [request?, ht] at hr
    rw [stage?, ht] at hj
    exact hs.operation hr hj
  | handed _ _ _ ht =>
    rw [request?_of_put ht] at hr
    rw [stage?_of_put ht] at hj
    split at hj
    · obtain ⟨_, -, rfl⟩ := Option.map_eq_some_iff.mp hj
      exact .ended
    · exact hs.operation hr hj

/-- **The variants of a delivery go on being about the same.** -/
theorem Filed.uniform_of_step? (hs : s.Filed setup) (hq : ThroughQueue setup s a)
    (h : s.step? setup a = some (t, seen)) {d : DeliveryId} {x : Delivery}
    (hx : t.deliveries[d]? = some x) : x.Uniform := by
  have hsame {x' : Delivery} (hx' : t.deliveries[d]? = some x') : x' = x :=
    Option.some.inj (hx'.symm.trans hx)
  have hstop {y : Delivery} {stage : Supervisor.Stage} (hy : y.Uniform)
      (hstage : stage.transactions = []) :
      ({ y with stage := stage, listener := y.listener.stop } : Delivery).Uniform := by
    refine hy.of_subset rfl (fun tx htx => ?_) fun tx htx => Listener.mem_variants_of_stop htx
    simp [hstage] at htx
  cases deliveryMove_of_step? h (d := d) with
  | still ht => exact hs.delivery (ht ▸ hx)
  | launched _ _ _ _ ht =>
    obtain rfl := hsame ht
    exact Delivery.uniform_start _ _ _ _ _
  | concluded hy _ ht => exact hsame ht ▸ hstop (hs.delivery hy) rfl
  | abandoned hy _ _ ht => exact hsame ht ▸ hstop (hs.delivery hy) rfl
  | proceeded hy hproceeds ht =>
    obtain rfl := hsame ht
    refine (hs.delivery hy).proceeds hproceeds fun tx signed hcall ha => ?_
    refine hq.signed (.supervisor d) tx signed ?_ ha
    simp only [pending?, hy, Option.bind_eq_bind, Option.bind_some, hcall]

/-- **The service stays in order** as long as it is used through its queue. -/
theorem Filed.step (hs : s.Filed setup) (hq : ThroughQueue setup s a)
    (h : s.step? setup a = some (t, seen)) : t.Filed setup where
  request {i r} hr := by
    cases hr' : s.request? i with
    | some r' =>
      have hsame := request?_of_step? h hr'
      obtain rfl := Option.some.inj (hsame.symm.trans hr)
      exact hs.request hr'
    | none =>
      obtain ⟨rfl, -⟩ := begin_of_request? h hr' hr
      exact hq.request r rfl
  operation hr hj := hs.fits_of_step? hq h hr hj
  delivery hx := hs.uniform_of_step? hq h hx

/-- **A history of a service that is used through its queue alone.** -/
theorem History.filed {tr : List (Transition κ)} (h : History setup .start tr s)
    (hq : ∀ e ∈ tr, ThroughQueue setup e.before e.action) : s.Filed setup := by
  refine h.invariant ⟨?_, ?_, ?_⟩ fun e he hstep ih => ih.step (hq e he) hstep
  · intro i r hr
    simp [Service.start, request?] at hr
  · intro i r st hr
    simp [Service.start, request?] at hr
  · intro d x hx
    simp [Service.start] at hx

end Service

end TxDelivery
