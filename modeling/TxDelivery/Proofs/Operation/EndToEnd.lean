import TxDelivery.Proofs.Operation.Alone

/-!
# Submissions end to end

**A submission on its own comes to one of six ends** (`TxDelivery.Service.Opens.ends_alone`): one
for each of the five calls that can fail and one for success. Which one it is, what was asked on the
way and what is left of the nonce are read off the answers of the chain and the signer
(`TxDelivery.Service.Comes`), whatever the caller left open and whatever was known of the nonce.

A step can be made in one way only, if nobody else is there. So the steps of a submission could be
followed one after another from its beginning, but for three things: a call that the caller has made
unnecessary is left out, time may pass at any point, and a statement about all ends has to be about
all the ways to them at once. Hence it is told once and for all at which points a submission can be,
each with how many steps may still be to come and with what has been asked before
(`TxDelivery.Service.Reaches`).

* One step of it, if any is to come, leaves fewer to come; time that passes leaves as many
  (`TxDelivery.Service.Reaches.step`). By induction a run of the submission alone takes it from
  stage to stage (`TxDelivery.Service.Reaches.run`).
* By induction on the number of steps to come, it can go on until none is
  (`TxDelivery.Service.Reaches.exists_end`).
* It reaches one of the first stages when it opens, whether it is begun directly or gets the status
  lock for the queue (`TxDelivery.Service.Opens.reaches`). This is where the ways in come together,
  and from there they are the same.

What is meant by “alone” is that only the submission acts, that every reply it gets is the one the
answers have for its call, and that the nonce lock is free when it opens. Nothing is assumed about
the other parties, which may be at any point of their own.
-/

namespace TxDelivery

namespace Service

variable {κ : Type} [DecidableEq κ]

open Operation

variable {setup : Setup κ} {w : Answers} {s s₀ t u : Service κ} {i : OperationId}
  {origin : Origin κ} {tx : Transaction} {options : DeliveryOptions} {calls : List Call} {k : Nat}
  {a : Action κ}

/-! ### The way to the end -/

/-- What the queue does leaves the operations alone. -/
@[simp] theorem settle_operations {accepted : Bool} :
    (t.settle i origin accepted).operations = t.operations := by
  cases origin <;> rfl

/-- A submission that is over has ended, or its caller waits for the delivery. -/
theorem Comes.stage? (hi : i < s.operations.length)
    (h : Comes setup w s i origin tx options calls t) :
    ∃ st, t.stage? i = some st ∧ ((∃ answer, st = .ended answer) ∨ ∃ d, st = .supervising d) := by
  cases h with
  | priceFailed _ _ _ ht | gasFailed _ _ _ _ ht | nonceFailed _ _ _ _ _ ht
  | signFailed _ _ _ _ _ ht | refused _ _ _ _ _ _ ht =>
    exact ⟨_, stage?_of_lt hi (by rw [ht, settle_operations]; rfl), .inl ⟨_, rfl⟩⟩
  | accepted _ _ _ _ _ _ ht =>
    refine ⟨_, stage?_of_lt hi (by rw [ht, settle_operations]; rfl), ?_⟩
    cases origin with
    | attached => exact .inr ⟨_, rfl⟩
    | detached | queue => exact .inl ⟨_, rfl⟩

/-- **A submission that is not one any more is over.** -/
theorem Reaches.comes (hi : i < s.operations.length)
    (h : Reaches setup w s i origin tx options k calls t)
    (hover : ∀ sub, t.stage? i ≠ some (.submitting sub)) :
    Comes setup w s i origin tx options calls t := by
  cases h with
  | ended h => exact h
  | _ => exact absurd (stage?_of_lt hi rfl) (hover _)

/-- No step is to come. -/
theorem Reaches.comes_of_zero (h : Reaches setup w s i origin tx options 0 calls t) :
    Comes setup w s i origin tx options calls t := by
  cases h with
  | ended h => exact h

/-- **One step of the submission alone** brings it nearer to its end, or lets time pass. -/
theorem Reaches.step (hfree : s.nonceLock = .free) (hi : i < s.operations.length)
    {e : Transition κ} (h : Reaches setup w s i origin tx options k calls e.before)
    (halone : e.Alone setup w i)
    (hstep : e.before.step? setup e.action = some (e.after, e.seen)) :
    ∃ k' more, Observation.dealings e.seen = more.map (.called (.operation i)) ∧
      Reaches setup w s i origin tx options k' (calls ++ more) e.after := by
  -- time may pass at every stage
  have hwait (ms : Nat) (ha : e.action = .wait ms) :
      ∃ k' more, Observation.dealings e.seen = more.map (.called (.operation i)) ∧
        Reaches setup w s i origin tx options k' (calls ++ more) e.after := by
    rw [ha] at hstep
    simp only [step?, Option.ite_none_right_eq_some, Option.some.injEq, Prod.mk.injEq] at hstep
    obtain ⟨-, hafter, hseen⟩ := hstep
    refine ⟨k, [], by rw [← hseen]; rfl, ?_⟩
    rw [← hafter, List.append_nil]
    exact h.wait _
  cases k with
  | zero =>
    obtain ⟨st, hst, hover⟩ := h.comes_of_zero.stage? hi
    obtain ⟨o, ho, rfl⟩ := Option.map_eq_some_iff.mp hst
    rcases halone.cases with ha | ⟨call, reply, hcall, -, -⟩ | ⟨ms, ha⟩
    · rw [ha] at hstep
      rcases hover with ⟨answer, hover⟩ | ⟨d, hover⟩ <;>
        simp [step?, act?, resume?, ho, hover] at hstep
    · rcases hover with ⟨answer, hover⟩ | ⟨d, hover⟩ <;> simp [pending?, ho, hover] at hcall
    · exact hwait ms ha
  | succ k =>
    obtain ⟨hact, -, honly, -, hseen, hu⟩ := h.advances hfree hi
    rcases honly e rfl halone hstep with ha | ⟨ms, ha⟩
    · rw [ha] at hstep
      obtain ⟨rfl, rfl⟩ := Prod.mk.inj (Option.some.inj (hstep.symm.trans hact))
      exact ⟨_, _, hseen, hu⟩
    · exact hwait ms ha

omit [DecidableEq κ] in
theorem dealings_append (tr tr' : List (Transition κ)) :
    dealings (tr ++ tr') = dealings tr ++ dealings tr' := by
  simp [dealings, Observation.dealings]

/-- **A run of the submission alone** goes through its stages. -/
theorem Reaches.run (hfree : s.nonceLock = .free) (hi : i < s.operations.length)
    {tr : List (Transition κ)} (h : Reaches setup w s i origin tx options k calls t)
    (htr : History setup t tr u) (halone : ∀ e ∈ tr, e.Alone setup w i) :
    ∃ k' more, dealings tr = more.map (.called (.operation i)) ∧
      Reaches setup w s i origin tx options k' (calls ++ more) u := by
  induction htr with
  | nil => exact ⟨k, [], rfl, by rwa [List.append_nil]⟩
  | @snoc tr v u a seen htr hstep ih =>
    obtain ⟨k', more, hmore, hv⟩ := ih fun e he => halone e (List.mem_append_left _ he)
    obtain ⟨k'', last, hlast, hu⟩ :=
      Reaches.step (e := ⟨v, a, seen, u⟩) hfree hi hv (halone _ (by simp)) hstep
    refine ⟨k'', more ++ last, ?_, by rwa [← List.append_assoc]⟩
    rw [dealings_append, hmore, List.map_append, ← hlast]
    simp [dealings]

/-- **Every submission can go on to its end.** -/
theorem Reaches.exists_end (hfree : s.nonceLock = .free) (hi : i < s.operations.length)
    (h : Reaches setup w s i origin tx options k calls t) :
    ∃ tr u, History setup t tr u ∧ (∀ e ∈ tr, e.Alone setup w i) ∧
      ∀ sub, u.stage? i ≠ some (.submitting sub) := by
  induction k using Nat.strongRecOn generalizing calls t with
  | ind k ih =>
    cases k with
    | zero =>
      obtain ⟨st, hst, hover⟩ := h.comes_of_zero.stage? hi
      refine ⟨[], t, .nil, by simp, fun sub hsub => ?_⟩
      obtain rfl := Option.some.inj (hst.symm.trans hsub)
      simp at hover
    | succ k =>
      obtain ⟨hstep, halone, -, hlt, -, hu⟩ := h.advances hfree hi
      obtain ⟨tr, v, htr, hall, hover⟩ := ih _ hlt hu
      refine ⟨_ :: tr, v, (History.single hstep).append htr, ?_, hover⟩
      rintro e (_ | ⟨_, he⟩)
      · exact halone
      · exact hall e he

/-! ### From the opening to the end -/

/-- **A submission opens** at one of the first stages. -/
theorem submit_reaches (setup : Setup κ) (w : Answers) (i : OperationId) (origin : Origin κ)
    (tx : Transaction) (options : DeliveryOptions) (hfree : s.nonceLock = .free) :
    ∃ k calls u seen, s.submit setup i origin tx options = (u, seen) ∧
      Observation.dealings seen = calls.map (.called (.operation i)) ∧
      Reaches setup w s i origin tx options k calls u := by
  by_cases hp : tx.gasPrice = 0
  · have hu : Reaches setup w s i origin tx options 7 [.gasPrice] (s.during i s.now _ _) :=
      .pricing hp
    exact ⟨7, [.gasPrice], _, _, if_pos hp, rfl, hu⟩
  · have hpriced : w.Priced tx tx.gasPrice := by
      rw [Answers.Priced, if_neg hp]
    obtain ⟨k, -, calls, u, seen, heq, hseen, hu⟩ :=
      settleGas_reaches setup i origin options hfree hpriced s.now .pricing
    rw [Transaction.priceCalls, if_neg hp, List.nil_append] at hu
    exact ⟨k, calls, u, seen, (if_neg hp).trans heq, hseen, hu⟩

/-- A send through the queue whose key is free goes on to its submission. -/
theorem enqueue_eq (i : OperationId) (options : DeliveryOptions) {previous : TxStatus}
    (hget : s.statuses.get (setup.keyOf tx) = previous)
    (hprevious : previous = .notFound ∨ previous = .error) :
    ∃ log : List LogEvent, s.enqueue setup i tx options =
      (({ s with statuses := s.statuses.set (setup.keyOf tx) .pending }.submit setup i
          (.queue (setup.keyOf tx) previous) tx options).1,
        log.map .logged ++
          ({ s with statuses := s.statuses.set (setup.keyOf tx) .pending }.submit setup i
            (.queue (setup.keyOf tx) previous) tx options).2) := by
  rcases hprevious with rfl | rfl
  · exact ⟨[], by simp [enqueue, hget]⟩
  · exact ⟨[.keyRetried], by simp [enqueue, hget]⟩

/-- **The step that opens a submission** is possible, and the submission is on its way. -/
theorem Opens.reaches (h : Opens setup s a i s₀ origin tx options) (hfree : s.nonceLock = .free)
    (w : Answers) :
    s₀.nonceLock = .free ∧ i < s₀.operations.length ∧
      ∃ k calls u seen, s.step? setup a = some (u, seen) ∧
        Observation.dealings seen = calls.map (.called (.operation i)) ∧
        Reaches setup w s₀ i origin tx options k calls u := by
  cases h with
  | @send r tx options origin hr =>
    obtain ⟨k, calls, u, seen, heq, hseen, hu⟩ :=
      submit_reaches (s := { s with operations := s.operations ++ [⟨r, .entering⟩] }) setup w
        s.operations.length origin tx options hfree
    refine ⟨hfree, by simp, k, calls, u, seen, ?_, hseen, hu⟩
    cases r with
    | send | sendAndWait =>
      obtain ⟨rfl, rfl, rfl⟩ : _ ∧ _ ∧ _ := by simpa [Request.broadcast?] using hr
      exact congrArg some heq
    | _ => simp [Request.broadcast?] at hr
  | @enqueue i tx options previous hst hr hheld hget hprevious =>
    obtain ⟨k, calls, u, seen, heq, hseen, hu⟩ :=
      submit_reaches (s := { s with statuses := s.statuses.set (setup.keyOf tx) .pending }) setup w
        i (.queue (setup.keyOf tx) previous) tx options hfree
    obtain ⟨log, henqueue⟩ := enqueue_eq i options hget hprevious
    obtain ⟨o, ho, hstage⟩ := Option.map_eq_some_iff.mp hst
    have hrequest : o.request = .enqueue tx options := by simpa [request?, ho] using hr
    rw [heq] at henqueue
    refine ⟨hfree, lt_length_of_stage? hst, k, calls, u, log.map .logged ++ seen, ?_, ?_, hu⟩
    · simp [step?, act?, resume?, ho, hstage, hheld, enterRequest, hrequest, henqueue]
    · rw [← hseen]
      simp [Observation.dealings, Observation.isLogged]

/-- **Whatever a submission broadcasts** is the caller's transaction with everything filled in. -/
theorem Reaches.of_broadcast_mem {signed : SignedTx}
    (h : Reaches setup w s i origin tx options k calls t) (hmem : .broadcast signed ∈ calls) :
    ∃ p g n, w.Priced tx p ∧ w.Fuelled setup.address tx p g ∧
      w.Numbered setup.address s.nonce n ∧ w.sign (tx.fill setup.address p g n) = .ok signed := by
  have hprice : .broadcast signed ∉ tx.priceCalls := by
    unfold Transaction.priceCalls
    split <;> simp
  have hgas (p : GasPrice) : .broadcast signed ∉ tx.gasCalls setup.address p := by
    unfold Transaction.gasCalls
    split <;> simp
  have hnonce : .broadcast signed ∉ s.nonce.calls setup.address := by
    unfold NonceState.calls
    split <;> simp
  have hlast {p : GasPrice} {g : UInt64} {n : Nonce} {signed' : SignedTx}
      (hmem : .broadcast signed ∈ tx.priceCalls ++ tx.gasCalls setup.address p ++
        s.nonce.calls setup.address ++ [.sign (tx.fill setup.address p g n)] ++
        [.broadcast signed']) : signed = signed' := by
    simpa [hprice, hgas, hnonce] using hmem
  cases h with
  | pricing | estimating | queued | fetching | signing => simp [hprice, hgas, hnonce] at hmem
  | broadcasting hp hg hn hsign | resetting hp hg hn hsign =>
    exact ⟨_, _, _, hp, hg, hn, hlast hmem ▸ hsign⟩
  | ended h =>
    cases h with
    | priceFailed _ _ hcalls | gasFailed _ _ _ hcalls | nonceFailed _ _ _ _ hcalls
    | signFailed _ _ _ _ hcalls =>
      rw [hcalls] at hmem
      simp [hprice, hgas, hnonce] at hmem
    | refused hp hg hn hsign _ hcalls | accepted hp hg hn hsign _ hcalls =>
      rw [hcalls] at hmem
      exact ⟨_, _, _, hp, hg, hn, hlast hmem ▸ hsign⟩

/-- **A submission on its own, end to end.** The step that opens it is possible, and from there
every run of the submission alone

* can go on until the submission is over,
* has then come to one of the six ends, having asked what belongs to that end and nothing else, and
  having published nothing,
* broadcasts, with a signer that signs what it is given, nothing but the caller's transaction sent
  by the signer with its price, gas and nonce. -/
theorem Opens.ends_alone (h : Opens setup s a i s₀ origin tx options) (hfree : s.nonceLock = .free)
    (w : Answers) :
    ∃ u seen, s.step? setup a = some (u, seen) ∧
      ∀ (tr : List (Transition κ)) (t : Service κ), History setup u tr t →
        (∀ e ∈ tr, e.Alone setup w i) →
        (∃ tr' v, History setup t tr' v ∧ (∀ e ∈ tr', e.Alone setup w i) ∧
          ∀ sub, v.stage? i ≠ some (.submitting sub)) ∧
        ((∀ sub, t.stage? i ≠ some (.submitting sub)) → ∃ calls,
          dealings (⟨s, a, seen, u⟩ :: tr) = calls.map (.called (.operation i)) ∧
            Comes setup w s₀ i origin tx options calls t) ∧
        ∀ chain : UInt64,
          (∀ tx signed, w.sign tx = .ok signed →
            signed.tx = { tx with sender := setup.address, chainId := chain }) →
          ∀ who signed, .called who (.broadcast signed) ∈ dealings (⟨s, a, seen, u⟩ :: tr) →
            ∃ p g n, w.Priced tx p ∧ w.Fuelled setup.address tx p g ∧
              w.Numbered setup.address s₀.nonce n ∧
              signed.tx = { tx with
                sender := setup.address, gasPrice := p, gasLimit := g, nonce := n,
                chainId := chain } := by
  obtain ⟨hfree₀, hi, k, calls, u, seen, hstep, hseen, hu⟩ := h.reaches hfree w
  refine ⟨u, seen, hstep, fun tr t htr halone => ?_⟩
  obtain ⟨k', more, hmore, ht⟩ := hu.run hfree₀ hi htr halone
  have hall : dealings (⟨s, a, seen, u⟩ :: tr) =
      (calls ++ more).map (.called (.operation i)) := by
    rw [List.map_append, ← hseen, ← hmore]
    simp [dealings, Observation.dealings]
  refine ⟨ht.exists_end hfree₀ hi, fun hover => ⟨_, hall, ht.comes hi hover⟩, ?_⟩
  intro chain hsigner who signed hmem
  obtain ⟨call, hcall, heq⟩ := List.mem_map.mp (hall ▸ hmem)
  obtain ⟨rfl, rfl⟩ := Observation.called.inj heq
  obtain ⟨p, g, n, hp, hg, hn, hsign⟩ := ht.of_broadcast_mem hcall
  exact ⟨p, g, n, hp, hg, hn, hsigner _ _ hsign⟩

/-- A chain that finds every nonce too low, and a signer that signs what it is given. -/
def staleAnswers : Answers where
  price := .ok 5
  gas _ := .ok 21000
  nonce _ := .ok 3
  sign tx := .ok ⟨{ tx with sender := 7, chainId := 1 }, tx.nonce.toNat, []⟩
  broadcast _ := .error (.nonceTooLow "nonce too low")

/-- A caller leaves price and gas open, and the nonce proves too low. -/
def staleRun : List (Action Unit) :=
  let signed : SignedTx :=
    ⟨{ sender := 7, gasPrice := 5, gasLimit := 21000, value := 2, nonce := 3, chainId := 1 }, 3, []⟩
  [.begin (.send { value := 2 } {}), .reply (.operation 0) (.price 5),
    .reply (.operation 0) (.gas 21000), .resume 0, .reply (.operation 0) (.nonce 3),
    .reply (.operation 0) (.signed signed),
    .reply (.operation 0) (.failed (.nonceTooLow "nonce too low")), .resume 0]

/-- In this run all five calls are made, and the nonce is forgotten. -/
theorem ends_alone_staleRun :
    ∃ (e : Transition Unit) (tr : List (Transition Unit)) (t : Service Unit) (calls : List Call),
      History sampleSetup .start (e :: tr) t ∧ (e :: tr).map (·.action) = staleRun ∧
      (∀ e ∈ tr, e.Alone sampleSetup staleAnswers 0) ∧
      (∀ sub, t.stage? 0 ≠ some (.submitting sub)) ∧ t.nonce = .unknown ∧ calls.length = 5 ∧
      dealings (e :: tr) = calls.map (.called (.operation 0)) ∧
      Comes sampleSetup staleAnswers
        { (start : Service Unit) with operations := [⟨.send { value := 2 } {}, .entering⟩] } 0
        .detached { value := 2 } {} calls t ∧
      ∃ p g n signed, .called (.operation 0) (.broadcast signed) ∈ dealings (e :: tr) ∧
        staleAnswers.Priced { value := 2 } p ∧ staleAnswers.Fuelled 7 { value := 2 } p g ∧
        staleAnswers.Numbered 7 .unknown n ∧
        signed.tx = { sender := 7, gasPrice := p, gasLimit := g, value := 2, nonce := n,
                      chainId := 1 } := by
  have hrun : (start.trace? sampleSetup staleRun).map (fun r => decide (
      (∀ e ∈ r.1.tail, e.Alone sampleSetup staleAnswers 0) ∧
        r.2.stage? 0 = some (.ended (.failed (.broadcast (.nonceTooLow "nonce too low")))) ∧
        r.2.nonce = .unknown ∧ (dealings r.1).length = 5 ∧
        (dealings r.1)[4]? = some (.called (.operation 0) (.broadcast
          ⟨{ sender := 7, gasPrice := 5, gasLimit := 21000, value := 2, nonce := 3, chainId := 1 },
            3, []⟩)))) = some true := by decide
  obtain ⟨full, t, h, has, hb⟩ := exists_history hrun
  obtain ⟨halone, hst, hnonce, hlen, hmem⟩ := of_decide_eq_true hb
  obtain ⟨e, tr, rfl, ha, -⟩ := List.map_eq_cons_iff.mp has
  obtain ⟨hbefore, hstep, htr⟩ := h.of_cons
  have hopens : Opens sampleSetup start (.begin (.send { value := 2 } {})) 0
      { (start : Service Unit) with operations := [⟨.send { value := 2 } {}, .entering⟩] } .detached
      { value := 2 } {} := .send rfl
  obtain ⟨u, seen, hstep', hall⟩ := hopens.ends_alone rfl staleAnswers
  rw [ha, hstep'] at hstep
  obtain ⟨rfl, rfl⟩ := Prod.mk.inj (Option.some.inj hstep)
  have hover : ∀ sub, t.stage? 0 ≠ some (.submitting sub) := by simp [hst]
  obtain ⟨-, hcomes, hbroadcast⟩ := hall tr t htr halone
  obtain ⟨calls, hcalls, hcomes⟩ := hcomes hover
  have hfirst : e = ⟨start, .begin (.send { value := 2 } {}), e.seen, e.after⟩ := by
    rw [← hbefore, ← ha]
  rw [← hfirst] at hcalls hbroadcast
  have hmem := List.mem_of_getElem? hmem
  obtain ⟨p, g, n, hp, hg, hn, hsigned⟩ := hbroadcast 1 (by rintro tx signed ⟨rfl⟩; rfl) _ _ hmem
  have hlen' : calls.length = 5 := by rw [← hlen, hcalls, List.length_map]
  exact ⟨e, tr, t, calls, h, has, halone, hover, hnonce, hlen', hcalls, hcomes, p, g, n, _, hmem,
    hp, hg, hn, hsigned⟩

end Service

end TxDelivery
