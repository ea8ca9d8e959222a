import TxDelivery.Proofs.Delivery.Variants
import TxDelivery.Proofs.Metrics.Accounts
import TxDelivery.Proofs.Operation.Course
import TxDelivery.Proofs.Queue.Account

/-!
# What a service posts

The accounts of a service at the end of a run are read off the run and the state it leads to
(`TxDelivery.Service.accounts`): from the run, what the node accepted and what was published; from
the state, how far operations and deliveries have come. **Every step posts what it does**
(`TxDelivery.Service.posted_of_step?`), so that the accounts of a service that was not used before
balance at every moment (`TxDelivery.Service.History.balanced`).

## One step

A step changes nine accounts at most, and in nearly all steps most of them stay. Each proof would
have to say so of each account; instead the accounts after a step are put together from what is
known of it (`TxDelivery.Service.posted_of_eq`): the transaction accepted, the outcomes published,
and how many operations and deliveries there are of each kind afterwards. A proof about a kind of
step gives these, and names the postings.

Steps of operations are told apart by what they do to the operation: it begins
(`TxDelivery.Service.posted_append`), goes on (`TxDelivery.Service.posted_goesOn`), or ends a
submission (`TxDelivery.Service.posted_end`). An operation that has not ended is of none of the
kinds that are counted, so in the first two nothing is to be posted for it; in the third the kind
depends on what the operation was about and on why it ended, and it is here that stages have to suit
requests. A delivery that ends posts its outcome, and hands it to a caller who becomes none of the
kinds by it (`TxDelivery.Service.countP_handOver`).

That one thing changes among many is `TxDelivery.Service.countP_set_add`, an equation without
subtraction: what the kind counts for the old one is added on one side, for the new one on the
other.
-/

namespace TxDelivery

variable {κ : Type}

/-- Whether the caller of a delivery dropped it. -/
def Delivery.isDropped (x : Delivery) : Bool := x.stage = .dropped

/-- Whether a first broadcast is made for a key of the queue. -/
def Origin.isQueue : Origin κ → Bool
  | .queue _ _ => true
  | .detached | .attached => false

/-- Whether a request is carried out by a first broadcast. -/
def Request.broadcasts : Request κ → Bool
  | .send _ _ | .sendAndWait _ _ | .enqueue _ _ => true
  | .estimate _ | .replace _ _ | .resetNonce | .mark _ _ | .status _ => false

namespace Operation

/-- Whether an operation is a reset of the nonce that was completed. -/
def isReset (o : Operation κ) : Bool :=
  match o.stage, o.request with
  | .ended _, .resetNonce => true
  | _, _ => false

/-- Whether an operation is a send whose first broadcast was refused for its nonce, and that has
reset the nonce. -/
def isOutrun (o : Operation κ) : Bool :=
  match o.stage with
  | .ended (.failed (.broadcast e)) => o.request.broadcasts && e.isNonceTooLow
  | _ => false

/-- Whether an operation is a send through the queue that was completed. -/
def isQueued (o : Operation κ) : Bool :=
  match o.stage, o.request with
  | .ended _, .enqueue _ _ => true
  | _, _ => false

end Operation

namespace Service

open Operation

/-- The transaction the node accepts in a step. -/
def Transition.admitted? (setup : Setup κ) (e : Transition κ) : Option SignedTx :=
  match e.action with
  | .reply who (.accepted _) => e.before.broadcasting? setup who
  | _ => none

/-- The replacement the node accepts in a step. -/
def Transition.replaced? (setup : Setup κ) (e : Transition κ) : Option SignedTx :=
  match e.action with
  | .reply (.supervisor d) (.accepted _) => e.before.broadcasting? setup (.supervisor d)
  | _ => none

/-- **The transactions the node accepted** in a run, in order. -/
def admitted (setup : Setup κ) (tr : List (Transition κ)) : List SignedTx :=
  tr.filterMap (Transition.admitted? setup)

/-- **The replacements the node accepted** in a run, of all deliveries, in order. -/
def replaced (setup : Setup κ) (tr : List (Transition κ)) : List SignedTx :=
  tr.filterMap (Transition.replaced? setup)

/-- **The outcomes that were published** in a run, of all deliveries, in order. -/
def outcomes (tr : List (Transition κ)) : List Outcome :=
  (tr.flatMap (·.seen)).filterMap Observation.anyOutcome?

/-- **The accounts of a service** at the end of a run. -/
def accounts (setup : Setup κ) (tr : List (Transition κ)) (s : Service κ) : Accounts where
  metrics := s.metrics
  accepted := (admitted setup tr).length
  price := (replaced setup tr).getLast?.map fun signed => signed.tx.gasPrice
  confirmed := (outcomes tr).countP Outcome.isConfirmed
  failed := (outcomes tr).countP fun o => !o.isConfirmed
  running := s.deliveries.countP Delivery.isOpen
  dropped := s.deliveries.countP Delivery.isDropped
  resets := s.operations.countP isReset + s.operations.countP isOutrun
  sends := s.operations.countP isQueued

variable {setup : Setup κ} {s t : Service κ} {tr : List (Transition κ)} {a : Action κ}
  {seen : List Observation} {i : OperationId} {r : Request κ} {st st' : Operation.Stage κ}

/-! ### What a step adds -/

theorem admitted_concat (e : Transition κ) :
    admitted setup (tr ++ [e]) = admitted setup tr ++ (e.admitted? setup).toList := by
  cases h : e.admitted? setup <;> simp [admitted, h]

theorem replaced_concat (e : Transition κ) :
    replaced setup (tr ++ [e]) = replaced setup tr ++ (e.replaced? setup).toList := by
  cases h : e.replaced? setup <;> simp [replaced, h]

theorem outcomes_concat (e : Transition κ) :
    outcomes (tr ++ [e]) = outcomes tr ++ e.seen.filterMap Observation.anyOutcome? := by
  simp [outcomes]

/-- Without an accepted transaction there is no accepted replacement. -/
theorem replaced?_of_admitted? {e : Transition κ} (h : e.admitted? setup = none) :
    e.replaced? setup = none := by
  unfold Transition.replaced?
  split
  case h_1 d hash ha =>
    rw [Transition.admitted?, ha] at h
    exact h
  case h_2 => rfl

/-- An operation that makes no broadcast gets none accepted. -/
theorem admitted?_operation {reply : Reply} (hst : s.stage? i = some st)
    (hs : ∀ sub, st ≠ .submitting sub) :
    Transition.admitted? setup ⟨s, .reply (.operation i) reply, seen, t⟩ = none := by
  cases reply with
  | accepted hash =>
    refine Option.eq_none_iff_forall_ne_some.mpr fun signed hsigned => ?_
    obtain ⟨sub, deadline, hsub, -⟩ := broadcasting?_operation_eq_some_iff.mp hsigned
    exact hs sub (Option.some.inj (hst.symm.trans hsub))
  | _ => rfl

/-- A supervisor that broadcasts no replacement gets none accepted. -/
theorem admitted?_supervisor {d : DeliveryId} {x : Delivery} {reply : Reply}
    (hx : s.deliveries[d]? = some x) (hs : ∀ tx, x.stage ≠ .rebroadcasting tx) :
    Transition.admitted? setup ⟨s, .reply (.supervisor d) reply, seen, t⟩ = none := by
  cases reply with
  | accepted hash =>
    refine Option.eq_none_iff_forall_ne_some.mpr fun signed hsigned => ?_
    obtain ⟨x', hx', hstage⟩ := broadcasting?_supervisor_eq_some_iff.mp hsigned
    obtain rfl := Option.some.inj (hx.symm.trans hx')
    exact hs signed hstage
  | _ => rfl

/-- A listener broadcasts nothing. -/
theorem admitted?_listener {d : DeliveryId} {reply : Reply} :
    Transition.admitted? setup ⟨s, .reply (.listener d) reply, seen, t⟩ = none := by
  cases reply with
  | accepted hash =>
    refine Option.eq_none_iff_forall_ne_some.mpr fun signed hsigned => ?_
    cases hx : s.deliveries[d]? with
    | none => simp [Transition.admitted?, broadcasting?, pending?, hx] at hsigned
    | some x =>
      cases hl : x.listener.stage <;>
        simp [Transition.admitted?, broadcasting?, pending?, hx, Listener.call?, hl] at hsigned
  | _ => rfl

/-- **The accounts after one more step**, of which it is known what is accepted and published and
how far operations and deliveries come. -/
theorem posted_of_eq {admitted replaced : Option SignedTx} {published : List Outcome}
    {running dropped resets sends : Nat}
    (hadmitted : Transition.admitted? setup ⟨s, a, seen, t⟩ = admitted)
    (hreplaced : Transition.replaced? setup ⟨s, a, seen, t⟩ = replaced)
    (hseen : seen.filterMap Observation.anyOutcome? = published)
    (hrunning : t.deliveries.countP Delivery.isOpen = running)
    (hdropped : t.deliveries.countP Delivery.isDropped = dropped)
    (hresets : t.operations.countP isReset + t.operations.countP isOutrun = resets)
    (hsends : t.operations.countP isQueued = sends)
    (hposted : Accounts.Posted (accounts setup tr s)
      { metrics := t.metrics
        accepted := (accounts setup tr s).accepted + admitted.toList.length
        price := replaced.elim (accounts setup tr s).price fun signed => some signed.tx.gasPrice
        confirmed := (accounts setup tr s).confirmed + published.countP Outcome.isConfirmed
        failed := (accounts setup tr s).failed + published.countP fun o => !o.isConfirmed
        running := running
        dropped := dropped
        resets := resets
        sends := sends }) :
    Accounts.Posted (accounts setup tr s) (accounts setup (tr ++ [⟨s, a, seen, t⟩]) t) := by
  have hprice : ((Service.replaced setup tr ++ replaced.toList).getLast?.map fun signed =>
      signed.tx.gasPrice) = replaced.elim (accounts setup tr s).price fun signed =>
        some signed.tx.gasPrice := by
    cases replaced <;> simp [accounts]
  convert hposted using 1
  rw [accounts, admitted_concat, replaced_concat, outcomes_concat, hadmitted, hreplaced, hprice,
    hseen, hrunning, hdropped, hresets, hsends, List.length_append, List.countP_append,
    List.countP_append]
  rfl

/-! ### One thing changes among many -/

/-- How many there are of a kind once one of a list is replaced. -/
theorem countP_set_add {α : Type} {p : α → Bool} {l : List α} {i : Nat} {a : α} (b : α)
    (h : l[i]? = some a) : (l.set i b).countP p + (p a).toNat = l.countP p + (p b).toNat := by
  obtain ⟨hlt, rfl⟩ := List.getElem?_eq_some_iff.mp h
  rw [List.countP_set hlt]
  cases hp : p l[i] with
  | false => cases p b <;> simp
  | true =>
    have hpos : 0 < l.countP p := List.countP_pos_iff.mpr ⟨l[i], List.getElem_mem hlt, hp⟩
    cases p b <;> simp <;> omega

/-- One operation goes on, which was not of the kind before. -/
theorem countP_put {p : Operation κ → Bool} (hst : s.stage? i = some st)
    (hr : s.request? i = some r) (hold : p ⟨r, st⟩ = false) :
    (put s.operations i st').countP p = s.operations.countP p + (p ⟨r, st'⟩).toNat := by
  obtain ⟨⟨r, st⟩, ho, rfl⟩ := Option.map_eq_some_iff.mp hst
  obtain rfl : r = _ := by simpa [request?, ho] using hr
  have hset := countP_set_add (p := p) (⟨r, st'⟩ : Operation κ) ho
  rw [hold] at hset
  rw [put, modify_eq_set_of_getElem? _ ho]
  exact hset

/-- An operation begins that is not of the kind. -/
theorem countP_append {p : Operation κ → Bool} (hnew : p ⟨r, st⟩ = false) :
    (s.operations ++ [(⟨r, st⟩ : Operation κ)]).countP p = s.operations.countP p := by
  simp [List.countP_append, hnew]

/-! ### Operations -/

/-- An operation that has not ended is of no kind. -/
theorem kinds_of_open (r : Request κ) (hopen : ∀ answer, st ≠ .ended answer) :
    isReset ⟨r, st⟩ = false ∧ isOutrun ⟨r, st⟩ = false ∧ isQueued ⟨r, st⟩ = false := by
  cases st with
  | ended answer => exact absurd rfl (hopen answer)
  | _ => exact ⟨rfl, rfl, rfl⟩

theorem isOutrun_broadcast (r : Request κ) (e : ChainError) :
    isOutrun ⟨r, .ended (.failed (.broadcast e))⟩ = (r.broadcasts && e.isNonceTooLow) := rfl

/-- What a first broadcast is made for does not reset the nonce by itself, and goes through the
queue if the broadcast is made for a key. -/
theorem kinds_of_makes {origin : Origin κ} (h : r.makes origin = true) (answer : Answer) :
    r.broadcasts = true ∧ isReset ⟨r, .ended answer⟩ = false ∧
      isQueued ⟨r, .ended answer⟩ = origin.isQueue := by
  cases r with
  | send | sendAndWait | enqueue => cases origin <;> first | exact ⟨rfl, rfl, rfl⟩ | contradiction
  | _ => cases origin <;> contradiction

/-- An estimate or a replacement for a caller ends as none of the kinds. -/
theorem kinds_of_other (hsuits : Suits r st) (hs : st = .estimating ∨ ∃ e, st = .replacing e)
    (answer : Answer) :
    isReset ⟨r, .ended answer⟩ = false ∧ isOutrun ⟨r, .ended answer⟩ = false ∧
      isQueued ⟨r, .ended answer⟩ = false := by
  have houtrun (hr : r.broadcasts = false) : isOutrun ⟨r, .ended answer⟩ = false := by
    unfold isOutrun
    split <;> simp [hr]
  rcases hs with rfl | ⟨e, rfl⟩
  · cases hsuits with
    | estimating hr =>
      subst hr
      exact ⟨rfl, houtrun rfl, rfl⟩
  · cases hsuits with
    | replacing hr =>
      subst hr
      exact ⟨rfl, houtrun rfl, rfl⟩

/-- **An operation that goes on**, upon which something may have been accepted and a delivery may
have started or ended. -/
theorem posted_put {signed : Option SignedTx} {running dropped : Nat}
    (hst : s.stage? i = some st) (hr : s.request? i = some r) (hopen : ∀ answer, st ≠ .ended answer)
    (ht : t.operations = put s.operations i st')
    (hrunning : t.deliveries.countP Delivery.isOpen = running)
    (hdropped : t.deliveries.countP Delivery.isDropped = dropped)
    (hadmitted : Transition.admitted? setup ⟨s, a, seen, t⟩ = signed)
    (hreplaced : Transition.replaced? setup ⟨s, a, seen, t⟩ = none)
    (hseen : seen.filterMap Observation.anyOutcome? = [])
    (hposted : Accounts.Posted (accounts setup tr s) { accounts setup tr s with
      metrics := t.metrics
      accepted := (accounts setup tr s).accepted + signed.toList.length
      running := running
      dropped := dropped
      resets := (accounts setup tr s).resets + (isReset ⟨r, st'⟩).toNat +
        (isOutrun ⟨r, st'⟩).toNat
      sends := (accounts setup tr s).sends + (isQueued ⟨r, st'⟩).toNat }) :
    Accounts.Posted (accounts setup tr s) (accounts setup (tr ++ [⟨s, a, seen, t⟩]) t) := by
  obtain ⟨hreset, houtrun, hqueued⟩ := kinds_of_open r hopen
  refine posted_of_eq hadmitted hreplaced hseen hrunning hdropped ?_ ?_ hposted
  · rw [ht, countP_put hst hr hreset, countP_put hst hr houtrun, Nat.add_add_add_comm,
      ← Nat.add_assoc]
    rfl
  · rw [ht, countP_put hst hr hqueued]
    rfl

/-- An operation that goes on, gets nothing accepted and has not ended. -/
theorem posted_goesOn (hst : s.stage? i = some st) (hopen : ∀ answer, st ≠ .ended answer)
    (ht : t.operations = put s.operations i st') (hopen' : ∀ answer, st' ≠ .ended answer)
    (hdeliveries : t.deliveries = s.deliveries)
    (hadmitted : Transition.admitted? setup ⟨s, a, seen, t⟩ = none)
    (hseen : seen.filterMap Observation.anyOutcome? = [])
    (hposted : Accounts.Posted (accounts setup tr s)
      { accounts setup tr s with metrics := t.metrics }) :
    Accounts.Posted (accounts setup tr s) (accounts setup (tr ++ [⟨s, a, seen, t⟩]) t) := by
  obtain ⟨r, hr⟩ := exists_request? hst
  obtain ⟨hreset, houtrun, hqueued⟩ := kinds_of_open r hopen'
  refine posted_put hst hr hopen ht (by rw [hdeliveries]) (by rw [hdeliveries]) hadmitted
    (replaced?_of_admitted? hadmitted) hseen ?_
  rw [hreset, houtrun, hqueued]
  exact hposted

/-- **An operation that begins** posts nothing. -/
theorem posted_append (hopen : ∀ answer, st ≠ .ended answer)
    (ht : t.operations = s.operations ++ [⟨r, st⟩]) (hdeliveries : t.deliveries = s.deliveries)
    (hmetrics : t.metrics = s.metrics) (hseen : seen.filterMap Observation.anyOutcome? = []) :
    Accounts.Posted (accounts setup tr s) (accounts setup (tr ++ [⟨s, .begin r, seen, t⟩]) t) := by
  obtain ⟨hreset, houtrun, hqueued⟩ := kinds_of_open r hopen
  refine posted_of_eq rfl rfl hseen rfl rfl rfl rfl ?_
  rw [ht, hdeliveries, hmetrics, countP_append hreset, countP_append houtrun, countP_append hqueued]
  exact .refl

/-- **A submission that ends**, upon which its delivery may have started. -/
theorem posted_end {sub : Submission κ} {answer : Answer} {signed : Option SignedTx}
    {running : Nat} (hst : s.stage? i = some (.submitting sub)) (hsuits : s.Suited)
    (ht : t.operations = put s.operations i (.ended answer))
    (hrunning : t.deliveries.countP Delivery.isOpen = running)
    (hdropped : t.deliveries.countP Delivery.isDropped = s.deliveries.countP Delivery.isDropped)
    (hadmitted : Transition.admitted? setup ⟨s, a, seen, t⟩ = signed)
    (hreplaced : Transition.replaced? setup ⟨s, a, seen, t⟩ = none)
    (hseen : seen.filterMap Observation.anyOutcome? = [])
    (hposted : ∀ r, r.broadcasts = true → Suits r (.submitting sub) →
      Accounts.Posted (accounts setup tr s) { accounts setup tr s with
        metrics := t.metrics
        accepted := (accounts setup tr s).accepted + signed.toList.length
        running := running
        resets := (accounts setup tr s).resets + (isOutrun ⟨r, .ended answer⟩).toNat
        sends := (accounts setup tr s).sends + sub.origin.isQueue.toNat }) :
    Accounts.Posted (accounts setup tr s) (accounts setup (tr ++ [⟨s, a, seen, t⟩]) t) := by
  obtain ⟨r, hr⟩ := exists_request? hst
  have hsubmits := hsuits hr hst
  cases hsubmits with
  | submitting hmakes hlow =>
    obtain ⟨hbroadcasts, hreset, hqueued⟩ := kinds_of_makes hmakes answer
    refine posted_put hst hr (by simp) ht hrunning hdropped hadmitted hreplaced hseen ?_
    rw [hreset, hqueued]
    exact hposted r hbroadcasts (.submitting hmakes hlow)

/-- A refusal gets nothing accepted. -/
theorem admitted?_of_refusal {sub : Submission κ} {e : DeliveryError} {n : NonceState}
    {lock : FairLock OperationId} {m : Metrics} {log : List Observation}
    (href : Submission.Refusal s i sub a e n lock m log) :
    Transition.admitted? setup ⟨s, a, seen, t⟩ = none := by
  cases href <;> rfl

/-- **What a refusal posts**, but for the decision of the queue. -/
theorem posted_of_refusal {sub : Submission κ} {e : DeliveryError} {n : NonceState}
    {lock : FairLock OperationId} {m : Metrics} (hbroadcasts : r.broadcasts = true)
    (hsuits : Suits r (.submitting sub)) (href : Submission.Refusal s i sub a e n lock m seen) :
    Accounts.Posted (accounts setup tr s) { accounts setup tr s with
      metrics := m
      resets := (accounts setup tr s).resets + (isOutrun ⟨r, .ended (.failed e)⟩).toNat } := by
  cases hsuits with
  | submitting _ hlow =>
    cases href with
    | price | gas | nonce | sign => exact .refl
    | broadcast hs hfine =>
      rw [isOutrun_broadcast, hfine, Bool.and_false]
      exact .single .refused
    | forgotten hs =>
      rw [isOutrun_broadcast, hbroadcasts, hlow _ hs]
      exact .single .reset

/-- A first broadcast that is accepted is one of the accepted transactions. -/
theorem admitted?_of_broadcasting {sub : Submission κ} {signed : SignedTx} {deadline : Nat}
    {hash : Hash} (hst : s.stage? i = some (.submitting sub))
    (hs : sub.stage = .broadcasting signed deadline) :
    Transition.admitted? setup ⟨s, .reply (.operation i) (.accepted hash), seen, t⟩ = some signed :=
  broadcasting?_operation_eq_some_iff.mpr ⟨sub, deadline, hst, hs⟩

/-- A delivery that starts is under way. -/
theorem countP_start {owner : Option OperationId} {options : DeliveryOptions} {deadline : Nat}
    {signed : SignedTx} :
    (s.deliveries ++ [Delivery.start setup.config s.now owner options deadline signed]).countP
        Delivery.isOpen = s.deliveries.countP Delivery.isOpen + 1 ∧
      (s.deliveries ++ [Delivery.start setup.config s.now owner options deadline signed]).countP
        Delivery.isDropped = s.deliveries.countP Delivery.isDropped := by
  simp [List.countP_append, Delivery.start, Delivery.isOpen, Delivery.isDropped]

/-- A delivery under way was not dropped. -/
theorem isDropped_of_isOpen {x : Delivery} (h : x.isOpen = true) : x.isDropped = false := by
  cases hs : x.stage <;> simp [Delivery.isOpen, Delivery.isDropped, hs] at h ⊢

variable [DecidableEq κ]

/-- **What the steps of operations post.** -/
theorem posted_of_operationStep (hsuits : s.Suited) (howned : s.Owned)
    (h : OperationStep setup s a (t, seen)) :
    Accounts.Posted (accounts setup tr s) (accounts setup (tr ++ [⟨s, a, seen, t⟩]) t) := by
  have hseen := anyOutcome?_of_operationStep h
  cases h with
  | submit | enter | estimate | replace | forget =>
    exact posted_append (by simp) rfl rfl rfl hseen
  | duplicate hst hr =>
    exact posted_put hst hr (by simp) rfl rfl rfl rfl rfl hseen (.single .sent)
  | enqueue hst | fetch hst | sign hst | price hst | gas hst | nonce hst | signed hst =>
    exact posted_goesOn hst (by simp) rfl (by simp) rfl rfl hseen .refl
  | mark hst hr | read hst hr =>
    exact posted_put hst hr (by simp) rfl rfl rfl rfl rfl hseen .refl
  | forgotten hst =>
    obtain ⟨r, hr⟩ := exists_request? hst
    cases hsuits hr hst with
    | resetting hreset =>
      subst hreset
      exact posted_put hst hr (by simp) rfl rfl rfl rfl rfl hseen (.single .reset)
  | tooLow hst =>
    exact posted_goesOn hst (by simp) rfl (by simp) rfl rfl hseen (.single .refused)
  | @refuse i sub a e n lock m seen hst horigin href =>
    refine posted_end hst hsuits rfl rfl rfl (admitted?_of_refusal href)
      (replaced?_of_admitted? (admitted?_of_refusal href)) hseen fun r hbroadcasts hsubmits => ?_
    have hqueue : sub.origin.isQueue = false := by
      rcases horigin with horigin | horigin <;> rw [horigin] <;> rfl
    rw [hqueue]
    exact posted_of_refusal hbroadcasts hsubmits href
  | refuseQueued hst horigin href =>
    refine posted_end hst hsuits rfl rfl rfl (admitted?_of_refusal href)
      (replaced?_of_admitted? (admitted?_of_refusal href)) hseen fun r hbroadcasts hsubmits => ?_
    rw [horigin]
    exact (posted_of_refusal hbroadcasts hsubmits href).tail .sent
  | launchDetached hst hs horigin =>
    refine posted_end hst hsuits rfl countP_start.1 countP_start.2
      (admitted?_of_broadcasting hst hs) rfl hseen fun r _ _ => ?_
    rw [horigin]
    exact .single .launched
  | launchAttached hst hs horigin =>
    obtain ⟨r, hr⟩ := exists_request? hst
    exact posted_put hst hr (by simp) rfl countP_start.1 countP_start.2
      (admitted?_of_broadcasting hst hs) rfl hseen (.single .launched)
  | launchQueued hst hs horigin =>
    refine posted_end hst hsuits rfl countP_start.1 countP_start.2
      (admitted?_of_broadcasting hst hs) rfl hseen fun r _ _ => ?_
    rw [horigin]
    exact (Relation.ReflTransGen.single .launched).tail .sent
  | @answer i st reply answer log hst hs =>
    obtain ⟨r, hr⟩ := exists_request? hst
    have hadmitted {t : Service κ} {seen : List Observation} :
        Transition.admitted? setup ⟨s, .reply (.operation i) reply, seen, t⟩ = none :=
      admitted?_operation hst (by rcases hs with rfl | ⟨e, rfl⟩ <;> simp)
    have hkinds := kinds_of_other (hsuits hr hst) hs answer
    refine posted_put hst hr ?_ rfl rfl rfl hadmitted (replaced?_of_admitted? hadmitted) hseen ?_
    · rcases hs with rfl | ⟨e, rfl⟩ <;> simp
    · rw [hkinds.1, hkinds.2.1, hkinds.2.2]
      exact .refl
  | escalate hst =>
    exact posted_goesOn hst (by simp) rfl (by simp) rfl (admitted?_operation hst (by simp)) hseen
      .refl
  | drop hst hended => exact posted_goesOn hst hended rfl (by simp) rfl rfl hseen .refl
  | @dropWaiting i d hst =>
    obtain ⟨x, hx, howner⟩ := howned.waits hst
    obtain ⟨-, hopen⟩ := howned.eq_of_supervising hx howner hst
    obtain ⟨r, hr⟩ := exists_request? hst
    have hmodify := modify_eq_set_of_getElem? Delivery.abandon hx
    have hrunning := countP_set_add (p := Delivery.isOpen) x.abandon hx
    have hdropped := countP_set_add (p := Delivery.isDropped) x.abandon hx
    rw [hopen] at hrunning
    rw [isDropped_of_isOpen hopen] at hdropped
    refine posted_put hst hr (by simp) rfl rfl ((congrArg _ hmodify).trans hdropped) rfl rfl hseen
      ?_
    exact .single (.abandoned (by rw [hmodify]; exact hrunning.symm))

/-! ### Deliveries -/

omit [DecidableEq κ] in
/-- Who proceeds was dropped as before. -/
theorem isDropped_of_proceeds {d : DeliveryId} {x x' : Delivery} {m m' : Metrics}
    (h : x.Proceeds setup s.now d m a x' m' seen) : x'.isDropped = x.isDropped := by
  rcases h.cases_open with ⟨hopen, hopen', -⟩ | ⟨-, hstage⟩
  · rw [isDropped_of_isOpen hopen, isDropped_of_isOpen hopen']
  · simp only [Delivery.isDropped, hstage]

omit [DecidableEq κ] in
/-- A delivery that ends gets nothing accepted by it. -/
theorem admitted?_of_ends {d : DeliveryId} {x : Delivery} {outcome : Outcome}
    (hx : s.deliveries[d]? = some x) (h : x.Ends setup s.now d a outcome) :
    Transition.admitted? setup ⟨s, a, seen, t⟩ = none := by
  cases h with
  | expire | join => rfl
  | giveUp hs => exact admitted?_supervisor hx (by simp [hs])

omit [DecidableEq κ] in
/-- The caller who is handed an outcome becomes none of the kinds. -/
theorem countP_handOver {p : Operation κ → Bool} {d : DeliveryId} {x : Delivery}
    (hsuits : s.Suited) (howned : s.Owned) (hx : s.deliveries[d]? = some x)
    (hopen : x.isOpen = true)
    (outcome : Outcome) (hwaits : ∀ r, p ⟨r, .supervising d⟩ = false)
    (hgets : ∀ tx options, p ⟨.sendAndWait tx options, .ended (.delivered outcome)⟩ = false) :
    (handOver s.operations x.owner outcome).countP p = s.operations.countP p := by
  rcases handOver_eq s.operations x.owner outcome with ⟨-, hops⟩ | ⟨i, howner, hops⟩
  · rw [hops]
  · have hst := howned.owner_of_isOpen hx hopen i howner
    obtain ⟨r, hr⟩ := exists_request? hst
    cases hsuits hr hst with
    | supervising hwaiting =>
      subst hwaiting
      rw [hops, countP_put hst hr (hwaits _), hgets]
      rfl

omit [DecidableEq κ] in
/-- **What the steps of deliveries post.** -/
theorem posted_of_deliveryStep (hsuits : s.Suited) (howned : s.Owned)
    (h : DeliveryStep setup s a (t, seen)) :
    Accounts.Posted (accounts setup tr s) (accounts setup (tr ++ [⟨s, a, seen, t⟩]) t) := by
  cases h with
  | @conclude d x a outcome hx hends =>
    have hopen := hends.isOpen
    have hrunning := countP_set_add (p := Delivery.isOpen) (x.close outcome) hx
    have hdropped := countP_set_add (p := Delivery.isDropped) (x.close outcome) hx
    rw [hopen] at hrunning
    rw [isDropped_of_isOpen hopen] at hdropped
    have hkind {p : Operation κ → Bool} (hwaits : ∀ r, p ⟨r, .supervising d⟩ = false)
        (hgets : ∀ tx options, p ⟨.sendAndWait tx options, .ended (.delivered outcome)⟩ = false) :
        (handOver s.operations x.owner outcome).countP p = s.operations.countP p :=
      countP_handOver hsuits howned hx hopen outcome hwaits hgets
    have hresets : (handOver s.operations x.owner outcome).countP isReset +
        (handOver s.operations x.owner outcome).countP isOutrun =
          (accounts setup tr s).resets := by
      rw [hkind (fun _ => rfl) fun _ _ => rfl, hkind (fun _ => rfl) fun _ _ => rfl]
      rfl
    refine posted_of_eq (admitted?_of_ends hx hends)
      (replaced?_of_admitted? (admitted?_of_ends hx hends)) (rfl : _ = [outcome]) rfl hdropped
      hresets (hkind (fun _ => rfl) fun _ _ => rfl) ?_
    cases outcome with
    | confirmed event => exact .single (.confirmed hrunning.symm)
    | failed event => exact .single (.failed hrunning.symm)
  | @proceed d x x' a m seen hx hproceeds =>
    have hrunning := countP_set_add (p := Delivery.isOpen) x' hx
    have hdropped := countP_set_add (p := Delivery.isDropped) x' hx
    rw [hproceeds.isOpen_eq, Nat.add_right_cancel_iff] at hrunning
    rw [isDropped_of_proceeds hproceeds, Nat.add_right_cancel_iff] at hdropped
    have hseen := hproceeds.anyOutcome?
    have hquiet (hadmitted : ∀ t, Transition.admitted? setup ⟨s, a, seen, t⟩ = none)
        (hposted : Accounts.Posted (accounts setup tr s)
          { accounts setup tr s with metrics := m }) :
        Accounts.Posted (accounts setup tr s) (accounts setup (tr ++ [⟨s, a, seen,
          { s with deliveries := s.deliveries.set d x', metrics := m }⟩])
          { s with deliveries := s.deliveries.set d x', metrics := m }) :=
      posted_of_eq (hadmitted _) (replaced?_of_admitted? (hadmitted _)) hseen hrunning hdropped rfl
        rfl hposted
    cases hproceeds with
    | tick | note | noteStopped | receive | poll | lapse | crash =>
      exact hquiet (fun _ => rfl) .refl
    | ask hs | keep hs | broadcast hs | retry hs =>
      exact hquiet (fun _ => admitted?_supervisor hx (by simp [hs])) .refl
    | answer => exact hquiet (fun _ => admitted?_listener) .refl
    | reject => exact hquiet (fun _ => rfl) (.single .rejected)
    | @adopt replacement hash hs =>
      have hbroadcast : s.broadcasting? setup (.supervisor d) = some replacement :=
        broadcasting?_supervisor_eq_some_iff.mpr ⟨x, hx, hs⟩
      exact posted_of_eq hbroadcast hbroadcast hseen hrunning hdropped rfl rfl (.single .replaced)

/-- **Every step posts what it does.** -/
theorem posted_of_step? (hsuits : s.Suited) (howned : s.Owned)
    (h : s.step? setup a = some (t, seen)) :
    Accounts.Posted (accounts setup tr s) (accounts setup (tr ++ [⟨s, a, seen, t⟩]) t) := by
  cases step_of_step? h with
  | operation h => exact posted_of_operationStep hsuits howned h
  | delivery h => exact posted_of_deliveryStep hsuits howned h
  | bookkeeper h =>
    have hseen := anyOutcome?_of_bookkeeperStep h
    cases h <;> exact posted_of_eq rfl rfl hseen rfl rfl rfl rfl .refl
  | outside h =>
    have hseen := anyOutcome?_of_outsideStep h
    cases h <;> exact posted_of_eq rfl rfl hseen rfl rfl rfl rfl .refl

/-- **The accounts balance at every moment.** -/
theorem History.balanced (h : History setup .start tr s) : (accounts setup tr s).Balanced := by
  induction h with
  | nil => exact ⟨rfl, rfl, rfl, rfl, rfl, rfl, rfl⟩
  | snoc h hstep ih => exact ih.posted (posted_of_step? h.suits h.owned hstep)

end Service

end TxDelivery
