import TxDelivery.Proofs.Nonce.Reuse
import TxDelivery.Proofs.Operation.Turn
import TxDelivery.Proofs.Operation.Without

/-!
# Dropping a send that waits

A caller who waits for the outcome of a send may stop waiting at any moment: while the first
broadcast is made, while the supervisor asks for a price, an estimate, a signature or a broadcast,
while the listener is in the middle of a look. **The send stops there**
(`TxDelivery.Service.History.abandoned`). Nobody acts for it any more
(`TxDelivery.Service.Silent`), it is gone from the line of the nonce lock, and other deliveries are
not affected.

## What is left

The drop is one step, and what it leaves is a service that was computed beforehand: the one without
this operation (`TxDelivery.Service.without`). That other deliveries are not affected is then a
simulation between the two. Whatever another delivery could do before it can do afterwards, with the
same reply, the same observations and the same effect on itself.

That nothing more is done for the send is an argument from state and not from time. An operation
that was dropped takes no step (`TxDelivery.Service.ne_party?_of_dropped`), and its delivery, if
there was one, has ended with it and its listener has stopped
(`TxDelivery.Service.History.over_of_dropped`), since callers and the deliveries they wait for
belong together at every moment. Neither changes by what others do, so it holds at every step of
every continuation.

## The nonce

The nonce is what the others made of it, if the send had not been signed for, and otherwise what
they made of the nonce it was signed with (`TxDelivery.Service.History.nonce_of_send`). Here
`TxDelivery.Service.nonceOfOthers` is a fold over the run that leaves out the steps of the one
operation. **Nothing a send does changes what is known of the nonce but its signature**
(`TxDelivery.Service.settles?_of_party?`): asking for a nonce commits none, and a reset ends the
operation that makes it, so that there is nothing left to be dropped.
-/

namespace TxDelivery

variable {κ : Type}

namespace Service

instance (e : Transition κ) : Decidable e.IsReset :=
  inferInstanceAs (Decidable (e.before.Resets e.action))

/-- What is known of the nonce by a step that changes it: a signature commits its nonce, a reset
forgets it. -/
def Transition.settles? (e : Transition κ) : Option NonceState :=
  match e.commit? with
  | some (_, n) => some (.known n)
  | none => if e.IsReset then some .unknown else none

/-- **What the others made of the nonce** in a part of a run: what is known of it at the end if it
was `n` at first and the steps of the operation `i` are left out. -/
def nonceOfOthers (i : OperationId) (n : NonceState) (tr : List (Transition κ)) : NonceState :=
  tr.foldl (fun n e =>
    if e.party? = some (.operation i) then n else e.settles?.getD n) n

/-- **Nothing is done for an operation** in a part of a run that leads to `u`. -/
structure Silent (setup : Setup κ) (i : OperationId) (tr : List (Transition κ))
    (u : Service κ) : Prop where
  /-- Whoever goes on in a step does not act for the operation. -/
  acts : ∀ e ∈ tr, ∀ who, e.party? = some who → ¬ u.ActsFor i who
  /-- Nobody asks the chain or the signer anything for it. -/
  asks : ∀ e ∈ tr, ∀ who call, .called who call ∈ e.seen → ¬ u.ActsFor i who
  /-- Nothing is published for it. -/
  publishes : ∀ e ∈ tr, ∀ d outcome, .published d outcome ∈ e.seen → ¬ u.ActsFor i (.supervisor d)
  /-- Whatever is counted is counted by somebody who does not act for it. -/
  counts : ∀ e ∈ tr, e.after.metrics ≠ e.before.metrics →
    ∃ who, e.party? = some who ∧ ¬ u.ActsFor i who
  /-- No delivery starts for it. -/
  launches : ∀ e ∈ tr, ∀ d, ¬ e.Launches i d
  /-- Nobody who acts for it waits for a reply. -/
  pending : ∀ who, u.ActsFor i who → u.pending? setup who = none
  /-- It does not stand in the line of the nonce lock. -/
  nonceLock : i ∉ u.nonceLock.line

variable {setup : Setup κ} {s t u : Service κ} {tr pre mid post : List (Transition κ)}
  {e : Transition κ} {i : OperationId} {d : DeliveryId} {x : Delivery} {n : NonceState}
  {tx : Transaction} {options : DeliveryOptions} {r : Request κ} {st : Operation.Stage κ}
  {who : Party} {seen : List Observation} {a : Action κ}

theorem nonceOfOthers_concat : nonceOfOthers i n (tr ++ [e]) =
    if e.party? = some (.operation i) then nonceOfOthers i n tr
    else e.settles?.getD (nonceOfOthers i n tr) := by
  rw [nonceOfOthers, List.foldl_append]
  rfl

variable [DecidableEq κ]

/-! ### The nonce -/

/-- **What is known of the nonce after a step** is what the step settles, or what was known. -/
theorem nonce_eq_settles? (hs : e.before.NonceGuarded)
    (h : e.before.step? setup e.action = some (e.after, e.seen)) :
    e.after.nonce = e.settles?.getD e.before.nonce := by
  unfold Transition.settles?
  split
  case h_1 j m hcommit => exact (signed_of_commits h (commit?_eq_some_iff.mp hcommit)).1
  case h_2 hnone =>
    split
    case isTrue hreset => exact (fresh_of_resets hs h hreset).nonce
    case isFalse hreset => exact nonce_of_step? h hnone hreset

/-- An operation that has not ended had not ended before. -/
theorem History.ne_ended (h : History setup s tr t) (hs : s.Owned)
    (ht : ∀ answer, t.stage? i ≠ some (.ended answer)) (answer : Answer) :
    s.stage? i ≠ some (.ended answer) :=
  fun hst => ht answer (h.stage?_eq_of_ended hs hst rfl (by simp)).1

omit [DecidableEq κ] in
/-- Nobody but an operation commits its nonce. -/
theorem party?_of_commit? {m : Nonce} (h : e.commit? = some (i, m)) :
    e.party? = some (.operation i) := by
  obtain ⟨⟨signed, ha⟩, -⟩ := commit?_eq_some_iff.mp h
  rw [Transition.party?, ha]
  rfl

/-- **A step of an operation that does not end with it changes nothing about the nonce** but by a
signature. -/
theorem settles?_of_party? (h : e.before.step? setup e.action = some (e.after, e.seen))
    (hparty : e.party? = some (.operation i))
    (hopen : ∀ answer, e.after.stage? i ≠ some (.ended answer))
    (hunsigned : ∀ signed, e.action ≠ .reply (.operation i) (.signed signed)) :
    e.settles? = none := by
  have hcommit : e.commit? = none := by
    refine commit?_eq_none fun j m hcommit => ?_
    have hj := party?_of_commit? (commit?_eq_some_iff.mpr hcommit)
    obtain rfl : i = j := by simpa using hparty.symm.trans hj
    obtain ⟨⟨signed, ha⟩, -⟩ := hcommit
    exact hunsigned signed ha
  have hreset : ¬ e.IsReset := by
    rintro ⟨j, ha, hj⟩
    obtain rfl : j = i := by simpa [Transition.party?, ha, party?, Action.actor?] using hparty
    -- An operation that resets the nonce ends with it; one that takes a nonce resets none.
    cases nonceMove_of_step? h with
    | still _ _ hnever => exact hnever ⟨j, ha, hj⟩
    | reset _ ha' _ _ _ ht =>
      obtain ⟨answer, ht⟩ := ht
      obtain rfl : j = _ := by simpa using ha.symm.trans ha'
      exact hopen answer ht
    | fetch ha' hst hs | take ha' hst hs =>
      obtain rfl : j = _ := by simpa using ha.symm.trans ha'
      rcases hj with hj | ⟨sub, err, hj, hs'⟩
      · exact absurd (hst.symm.trans hj) (by simp)
      · obtain rfl := Operation.Stage.submitting.inj (Option.some.inj (hst.symm.trans hj))
        rw [hs] at hs'
        contradiction
    | answered ha' | commit ha' =>
      rw [ha] at ha'
      contradiction
  rw [Transition.settles?, hcommit, if_neg hreset]

/-- **While a send is not signed for**, the nonce is what the others make of it. -/
theorem History.nonce_eq_nonceOfOthers (hs : History setup .start pre s)
    (h : History setup s mid t) (hopen : ∀ answer, t.stage? i ≠ some (.ended answer))
    (hunsigned : ∀ e ∈ mid, ∀ signed, e.action ≠ .reply (.operation i) (.signed signed)) :
    t.nonce = nonceOfOthers i s.nonce mid := by
  -- Induction at the end of the run: a send that had ended on the way would be over now.
  induction h with
  | nil => rfl
  | @snoc mid t u a seen h hstep ih =>
    have hbefore := hs.append h
    have hlast := hunsigned _ (List.mem_append_right _ (List.mem_singleton_self _))
    have hprev := ih (fun answer => (History.single hstep).ne_ended hbefore.owned hopen answer)
      fun e he => hunsigned e (List.mem_append_left _ he)
    have hnonce := nonce_eq_settles? (e := ⟨t, a, seen, u⟩) hbefore.nonceGuarded hstep
    dsimp only at hnonce
    rw [nonceOfOthers_concat, hnonce, hprev]
    split
    case isTrue hparty =>
      rw [settles?_of_party? (e := ⟨t, a, seen, u⟩) hstep hparty hopen hlast, Option.getD_none]
    case isFalse => rfl

/-- **The signature of a send commits its nonce.** -/
theorem History.commits_of_signed (h : History setup .start tr s) {signed : SignedTx}
    (hstep : s.step? setup (.reply (.operation i) (.signed signed)) = some (t, seen))
    (hr : s.request? i = some (.sendAndWait tx options)) :
    ∃ m, s.Commits (.reply (.operation i) (.signed signed)) i m := by
  -- Requests that make a replacement get a signature as well, but this is none of them.
  cases operationStep_of_replyOperation? hstep with
  | signed hst hs => exact ⟨_, ⟨_, rfl⟩, _, hst, hs⟩
  | refuse _ _ href | refuseQueued _ _ href => cases href
  | answer hst hs =>
    have hsuits := h.suits hr hst
    rcases hs with rfl | ⟨esc, rfl⟩ <;> cases hsuits <;> contradiction
  | escalate hst =>
    have hsuits := h.suits hr hst
    cases hsuits
    contradiction

/-- **What a send that has not ended did about the nonce.** -/
theorem History.nonce_of_send (h : History setup .start tr s)
    (hr : s.request? i = some (.sendAndWait tx options))
    (hopen : ∀ answer, s.stage? i ≠ some (.ended answer)) :
    ∃ pre e mid, tr = pre ++ e :: mid ∧ e.action = .begin (.sendAndWait tx options) ∧
      e.before.operations.length = i ∧
      ((∀ f ∈ mid, ∀ signed, f.action ≠ .reply (.operation i) (.signed signed)) →
        s.nonce = nonceOfOthers i e.before.nonce mid) ∧
      ∀ mid₁ f mid₂ signed, mid = mid₁ ++ f :: mid₂ →
        f.action = .reply (.operation i) (.signed signed) →
        ∃ tx', f.before.pending? setup (.operation i) = some (.sign tx') ∧
          s.nonce = nonceOfOthers i (.known tx'.nonce) mid₂ := by
  obtain ⟨pre, e, mid, rfl, hbegin, hi, hr'⟩ := h.exists_begin hr
  obtain ⟨hpre, hstep, hmid⟩ := h.around
  have hbegun : e.after.nonce = e.before.nonce := by
    obtain ⟨hcommit, hreset⟩ := no_commit_of_action (e := e) (by simp [hbegin]) (by simp [hbegin])
    exact nonce_of_step? hstep hcommit hreset
  refine ⟨pre, e, mid, rfl, hbegin, hi, fun hunsigned => ?_, fun mid₁ f mid₂ signed hsplit hf => ?_⟩
  · rw [← hbegun]
    exact (hpre.snoc hstep).nonce_eq_nonceOfOthers hmid hopen hunsigned
  · subst hsplit
    -- Every signature in the rest of the run commits a nonce for the send.
    have hcommits {mid₁ mid₂ : List (Transition κ)} {g : Transition κ} {signed : SignedTx}
        (hmid : History setup e.after (mid₁ ++ g :: mid₂) s)
        (hg : g.action = .reply (.operation i) (.signed signed)) :
        ∃ m, g.commit? = some (i, m) := by
      obtain ⟨hbefore, hgstep, -⟩ := hmid.around
      rw [hg] at hgstep
      obtain ⟨m, hm⟩ := ((hpre.snoc hstep).append hbefore).commits_of_signed hgstep
        (hbefore.request?_eq hr')
      exact ⟨m, commit?_eq_some_iff.mpr (hg ▸ hm)⟩
    obtain ⟨n, hn⟩ := hcommits hmid hf
    obtain ⟨hbefore, hfstep, hafter⟩ := hmid.around
    have hf' := ((hpre.snoc hstep).append hbefore).snoc hfstep
    obtain ⟨hknown, tx', signed', hpending, rfl, -⟩ :=
      signed_of_commits hfstep (commit?_eq_some_iff.mp hn)
    refine ⟨tx', hpending, ?_⟩
    rw [← hknown]
    refine hf'.nonce_eq_nonceOfOthers hafter hopen fun g hg signed'' hsigned => ?_
    -- It is signed for once only.
    obtain ⟨before, after, rfl⟩ := List.append_of_mem hg
    have hmid' : History setup e.after ((mid₁ ++ f :: before) ++ g :: after) s := by
      simpa using hmid
    obtain ⟨m, hm⟩ := hcommits hmid' hsigned
    refine (hf'.append hafter).commits_once ?_ m ?_ (i := i) (n := tx'.nonce)
    · simp [commits, hn]
    · simp [commits, hm]

/-! ### Nobody acts for it any more -/

/-- An operation that was dropped takes no step. -/
theorem ne_party?_of_dropped (h : s.step? setup a = some (t, seen))
    (hi : s.stage? i = some .dropped) : s.party? a ≠ some (.operation i) := by
  intro hparty
  obtain ⟨o, ho, hstage⟩ := Option.map_eq_some_iff.mp hi
  cases a with
  | begin r =>
    obtain rfl : s.operations.length = i := by simpa [party?] using hparty
    rw [stage?_length] at hi
    contradiction
  | resume j =>
    obtain rfl : j = i := by simpa [party?, Action.actor?] using hparty
    simp [step?, act?, resume?, ho, hstage] at h
  | reply who answer =>
    obtain rfl : who = .operation i := by simpa [party?] using hparty
    simp [step?, act?, reply?, replyOperation?, ho, hstage] at h
  | _ => simp [party?, Action.actor?] at hparty

/-- **The delivery of an operation that was dropped** has ended, and its listener has stopped. -/
theorem History.over_of_dropped (h : History setup .start tr s) (hi : s.stage? i = some .dropped)
    (hx : s.deliveries[d]? = some x) (howner : x.owner = some i) :
    x.isOpen = false ∧ x.listener.isOver = true ∧ x.call? = none ∧ x.listener.call? = none := by
  have hstage : x.stage = .dropped := by
    have heq := Option.some.inj (hi.symm.trans (h.owned.owner hx howner))
    cases hstage : x.stage <;> simp [ownerStage, hstage] at heq ⊢
  have hclosed : x.isOpen = false := by rw [Delivery.isOpen, hstage]
  have hover := h.delivery Delivery.quiet_invariant hx hclosed
  exact ⟨hclosed, hover, by rw [Delivery.call?, hstage], Listener.call?_of_isOver hover⟩

/-- **Nobody acts for an operation that was dropped.** -/
theorem History.not_actsFor_of_dropped (h : History setup .start tr s)
    (hi : s.stage? i = some .dropped) (hpost : History setup s (pre ++ e :: post) u)
    (hparty : e.party? = some who) : ¬ u.ActsFor i who := by
  obtain ⟨hpre, hstep, hafter⟩ := hpost.around
  have hbefore := h.append hpre
  have hi' := (hpre.stage?_eq_of_ended h.owned hi rfl (by simp)).1
  have hdelivery {d : DeliveryId} {x : Delivery} (hd : e.action.delivery? = some d)
      (hx : u.deliveries[d]? = some x) (howner : x.owner = some i) : False := by
    -- The delivery was there before the step, and it was over.
    have hover {y : Delivery} (hy : e.before.deliveries[d]? = some y) :
        y.isOpen = false ∧ y.listener.isOver = true := by
      obtain ⟨z, hz, hsame, -⟩ := ((History.single hstep).append hafter).fixed hy
      obtain rfl := Option.some.inj (hz.symm.trans hx)
      obtain ⟨hclosed, hover, -⟩ := hbefore.over_of_dropped hi' hy (hsame.symm.trans howner)
      exact ⟨hclosed, hover⟩
    cases deliveryTurn_of_delivery? hstep hd with
    | other ha | launched ha | abandoned ha => exact ha hd
    | ended hy hends =>
      have hopen := hends.isOpen
      rw [(hover hy).1] at hopen
      contradiction
    | proceeded hy hproceeds =>
      obtain ⟨hclosed, hlistener⟩ := hover hy
      exact Delivery.not_proceeds_of_over hclosed hlistener hproceeds
  cases who with
  | operation j =>
    rintro rfl
    exact ne_party?_of_dropped hstep hi' hparty
  | supervisor d =>
    rintro ⟨x, hx, howner⟩
    exact hdelivery (delivery?_of_party? hparty (.inl rfl)) hx howner
  | listener d =>
    rintro ⟨x, hx, howner⟩
    exact hdelivery (delivery?_of_party? hparty (.inr rfl)) hx howner
  | bookkeeper b => exact id

/-- **Nothing more is done for an operation that was dropped.** -/
theorem History.silent_of_dropped (h : History setup .start tr s)
    (hi : s.stage? i = some .dropped) (hpost : History setup s post u) : Silent setup i post u := by
  have hacts : ∀ e ∈ post, ∀ who, e.party? = some who → ¬ u.ActsFor i who := by
    intro e he who hparty
    obtain ⟨before, after, rfl⟩ := List.append_of_mem he
    exact h.not_actsFor_of_dropped hi hpost hparty
  have hstep : ∀ e ∈ post, e.before.step? setup e.action = some (e.after, e.seen) := by
    intro e he
    obtain ⟨before, after, rfl⟩ := List.append_of_mem he
    exact hpost.around.2.1
  have hend := h.append hpost
  have hi' := (hpost.stage?_eq_of_ended h.owned hi rfl (by simp)).1
  refine ⟨hacts, fun e he who call hcall => ?_, fun e he d outcome hmem => ?_,
    fun e he hne => ?_, fun e he d hlaunch => ?_, fun who hwho => ?_, ?_⟩
  · exact hacts e he who (party?_of_called (hstep e he) hcall)
  · exact hacts e he _ (party?_of_published (hstep e he) hmem)
  · obtain ⟨who, hparty⟩ := party?_of_metrics (hstep e he) hne
    exact ⟨who, hparty, hacts e he who hparty⟩
  · obtain ⟨⟨hash, ha⟩, -⟩ := hlaunch
    exact hacts e he (.operation i) (by rw [Transition.party?, ha]; rfl) rfl
  · cases who with
    | operation j =>
      obtain rfl : j = i := hwho
      obtain ⟨o, ho, hstage⟩ := Option.map_eq_some_iff.mp hi'
      simp [pending?, ho, hstage]
    | supervisor d =>
      obtain ⟨x, hx, howner⟩ := hwho
      simp [pending?, hx, (hend.over_of_dropped hi' hx howner).2.2.1]
    | listener d =>
      obtain ⟨x, hx, howner⟩ := hwho
      simp [pending?, hx, (hend.over_of_dropped hi' hx howner).2.2.2]
    | bookkeeper b => rfl
  · rw [hend.lined.nonce.mem_iff, wantsNonce_eq hi']
    simp [Operation.Stage.wantsNonce]

/-! ### Dropping a send -/

/-- **A dropped send stops.** A send whose caller waits for the outcome can be dropped at any moment
before it ends, and what is left is the service without it:

* nothing is asked, published or counted by the drop, other operations are where they were, and
  other deliveries are as they were and can do what they could do, with the same effect;
* the send is gone from the line of the nonce lock, in which the others keep their places, and the
  lock is free or belongs to one of them;
* if the send had not been signed for, the nonce is what the others made, since the send began, of
  the one before it; otherwise it is what they made of the nonce it was signed with, since then;
* however the run goes on, nothing more is done for the send. -/
theorem History.abandoned (h : History setup .start tr s)
    (hr : s.request? i = some (.sendAndWait tx options)) (hst : s.stage? i = some st)
    (hended : ∀ answer, st ≠ .ended answer) (hdropped : st ≠ .dropped) :
    s.step? setup (.drop i) = some (s.without i, []) ∧
    (∀ j, j ≠ i → (s.without i).stage? j = s.stage? j) ∧
    (∀ d x, s.deliveries[d]? = some x → x.owner ≠ some i →
      (s.without i).deliveries[d]? = some x ∧
      ∀ a, a.delivery? = some d →
        (s.without i).step? setup a = (s.step? setup a).map (Move.without · i)) ∧
    ((s.without i).nonceLock.line = s.nonceLock.line.filter (· ≠ i) ∧
      ((s.without i).nonceLock = .free ∨
        ∃ j, j ≠ i ∧ (s.without i).nonceLock.heldBy j = true)) ∧
    (∃ pre e mid, tr = pre ++ e :: mid ∧ e.action = .begin (.sendAndWait tx options) ∧
      e.before.operations.length = i ∧
      ((∀ f ∈ mid, ∀ signed, f.action ≠ .reply (.operation i) (.signed signed)) →
        (s.without i).nonce = nonceOfOthers i e.before.nonce mid) ∧
      ∀ mid₁ f mid₂ signed, mid = mid₁ ++ f :: mid₂ →
        f.action = .reply (.operation i) (.signed signed) →
        ∃ tx', f.before.pending? setup (.operation i) = some (.sign tx') ∧
          (s.without i).nonce = nonceOfOthers i (.known tx'.nonce) mid₂) ∧
    ∀ post u, History setup (s.without i) post u → Silent setup i post u := by
  have hdrop := h.step?_drop hr hst hended hdropped
  have hopen (answer : Answer) : s.stage? i ≠ some (.ended answer) := by
    rw [hst]
    exact fun heq => hended answer (Option.some.inj heq)
  have hline : (s.without i).nonceLock.line = s.nonceLock.line.filter (· ≠ i) :=
    FairLock.line_leave
  refine ⟨hdrop, fun j hj => stage?_put_of_ne rfl (Ne.symm hj), fun d x hx howner => ?_,
    ⟨hline, ?_⟩, h.nonce_of_send hr hopen, fun post u hpost => ?_⟩
  · exact ⟨getElem?_deliveries_without howner hx, fun a => step?_without hx howner⟩
  · -- Whoever is first in what is left of the line holds the lock.
    cases hrest : (s.without i).nonceLock.line with
    | nil =>
      have hqueue : (s.without i).nonceLock.queue = [] := List.map_eq_nil_iff.mp hrest
      exact .inl (congrArg FairLock.mk hqueue)
    | cons j rest =>
      have hmem : j ∈ s.nonceLock.line.filter (· ≠ i) := by
        rw [← hline, hrest]
        exact List.mem_cons_self
      exact .inr ⟨j, of_decide_eq_true (List.mem_filter.mp hmem).2,
        FairLock.heldBy_iff.mpr (FairLock.head_mem_holders hrest)⟩
  · exact (h.snoc hdrop).silent_of_dropped (stage?_put_self rfl hst) hpost

/-- A run in which two deliveries have both served a tick. The second one has asked for the market
price, and its listener has asked for a receipt. -/
def twoTicksRun : List (Action Unit) :=
  [.begin (.send sampleTx {}), .resume 0, .reply (.operation 0) (.nonce 4),
    .reply (.operation 0) (.signed (sampleSigned 4)), .reply (.operation 0) (.accepted 4),
    .receive 0, .begin (.sendAndWait (transfer 1) {}), .resume 1,
    .reply (.operation 1) (.signed (signedTransfer 1 5)), .reply (.operation 1) (.accepted 1),
    .receive 1, .wait 10000, .poll 0, .reply (.listener 0) (.receipt none), .poll 1, .wait 10000,
    .poll 0, .reply (.listener 0) (.receipt none), .wait 5000, .tick 0, .tick 1]

/-- At the end of this run the second send can be dropped. The first delivery goes on as it would
have, and nothing more is done for the second one. -/
theorem abandoned_twoTicksRun :
    ∃ (tr : List (Transition Unit)) (s : Service Unit), History sampleSetup .start tr s ∧
      tr.map (·.action) = twoTicksRun ∧
      s.pending? sampleSetup (.supervisor 1) = some .gasPrice ∧
      s.pending? sampleSetup (.listener 1) = some (.receipt 1) ∧
      s.step? sampleSetup (.drop 1) = some (s.without 1, []) ∧
      (∀ reply, (s.without 1).step? sampleSetup (.reply (.supervisor 0) reply) =
        (s.step? sampleSetup (.reply (.supervisor 0) reply)).map (Move.without · 1)) ∧
      ((s.without 1).nonceLock = .free ∨
        ∃ j, j ≠ 1 ∧ (s.without 1).nonceLock.heldBy j = true) ∧
      ∀ post u, History sampleSetup (s.without 1) post u → Silent sampleSetup 1 post u := by
  have hrun : (start.trace? sampleSetup twoTicksRun).map (fun r =>
      decide (r.2.request? 1 = some (.sendAndWait (transfer 1) {}) ∧
        r.2.stage? 1 = some (.supervising 1) ∧
        r.2.deliveries.map (·.owner) = [none, some 1] ∧
        r.2.pending? sampleSetup (.supervisor 1) = some .gasPrice ∧
        r.2.pending? sampleSetup (.listener 1) = some (.receipt 1))) = some true := by decide
  obtain ⟨tr, s, h, has, hs⟩ := exists_history hrun
  obtain ⟨hr, hst, howners, hsupervisor, hlistener⟩ := of_decide_eq_true hs
  obtain ⟨hdrop, -, hothers, ⟨-, hlock⟩, -, hsilent⟩ :=
    h.abandoned hr hst (by simp) (by simp)
  obtain ⟨x, hx, howner⟩ : ∃ x, s.deliveries[0]? = some x ∧ x.owner = none := by
    have hfirst := congrArg (·[0]?) howners
    simpa [List.getElem?_map] using hfirst
  refine ⟨tr, s, h, has, hsupervisor, hlistener, hdrop, fun reply => ?_, hlock, hsilent⟩
  exact (hothers 0 x hx (by simp [howner])).2 _ rfl

end Service

end TxDelivery
