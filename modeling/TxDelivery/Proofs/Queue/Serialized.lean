import TxDelivery.Proofs.Nonce.Reuse
import TxDelivery.Proofs.Operation.Course
import TxDelivery.Proofs.Queue.Table

/-!
# One broadcast after another

A broadcast is not made under the nonce lock, so that nothing about that lock keeps first broadcasts
in the order in which their nonces were handed out. **What keeps them in order is the queue**, if
nobody sends past it (`TxDelivery.Service.SentThroughQueue`): a send through the queue has the
status lock from before its nonce is handed out until its first broadcast is answered, or the send
is dropped, so that one send at a time is at work (`TxDelivery.Service.AtWork`) and the nonce of a
submission that broadcasts is the one handed out last
(`TxDelivery.Service.History.commits_of_broadcasting`).

It follows that two first broadcasts are never on their way at once, and that those with nonces
handed out between the same two resets reach the node in the order of their nonces
(`TxDelivery.Service.History.serialized`). Nothing is assumed about how long any call takes.

## In two orders

There are two orders, that of the nonces handed out and that of the broadcasts, and a send appears
in both. When it broadcasts it is the last of the first order, so that of two sends that broadcast
one after the other the second had its nonce later: what was handed out before the first broadcast
is a beginning of what is handed out in all (`TxDelivery.Service.History.commits_in_order`).

From there it is known of nonces alone. Between two resets one that is handed out later is larger,
unless the numbers are used up (`TxDelivery.Service.History.toNat_lt_of_sublist`). The order has to
be brought back from the whole run to the part between two resets, which can be done because no
operation has two nonces: a pair that lies in a part of a list without repetitions is in order there
as well.

That a nonce belongs to a broadcast is said by what is pending: while a broadcast is on its way the
operation is in a stage that has the signed transaction. A first broadcast is over when the next one
is made, and then its send has ended or was dropped
(`TxDelivery.Service.History.over_of_firstBroadcasts`).
-/

namespace TxDelivery

/-- A part of a list that lies in one of its segments, if no element occurs twice. -/
theorem sublist_of_forall_mem {α : Type} [DecidableEq α] {xs pre mid post : List α}
    (h : xs.Sublist (pre ++ mid ++ post)) (hnodup : (pre ++ mid ++ post).Nodup)
    (hmem : ∀ x ∈ xs, x ∈ mid) : xs.Sublist mid := by
  have hfilter := h.filter fun x => decide (x ∈ mid)
  have hxs : xs.filter (fun x => decide (x ∈ mid)) = xs :=
    List.filter_eq_self.mpr fun x hx => decide_eq_true (hmem x hx)
  have hpre : pre.filter (fun x => decide (x ∈ mid)) = [] := by
    refine List.filter_eq_nil_iff.mpr fun x hx hin => ?_
    exact List.disjoint_of_nodup_append hnodup.of_append_left hx (of_decide_eq_true hin)
  have hmid : mid.filter (fun x => decide (x ∈ mid)) = mid :=
    List.filter_eq_self.mpr fun x hx => decide_eq_true hx
  have hpost : post.filter (fun x => decide (x ∈ mid)) = [] := by
    refine List.filter_eq_nil_iff.mpr fun x hx hin => ?_
    exact List.disjoint_of_nodup_append hnodup
      (List.mem_append_right _ (of_decide_eq_true hin)) hx
  rwa [List.filter_append, List.filter_append, hxs, hpre, hmid, hpost, List.nil_append,
    List.append_nil] at hfilter

/-- A list around two of its elements. -/
theorem exists_eq_of_pair_sublist {α : Type} {xs : List α} {e f : α} (h : [e, f].Sublist xs) :
    ∃ before between after, xs = before ++ e :: between ++ f :: after := by
  obtain ⟨front, back, rfl, he, hf⟩ := List.cons_sublist_iff.mp h
  obtain ⟨before, between, rfl⟩ := List.append_of_mem he
  obtain ⟨between', after, rfl⟩ := List.append_of_mem (List.singleton_sublist.mp hf)
  exact ⟨before, between ++ between', after, by simp⟩

/-- Two elements of a list in the order of their places. -/
theorem pair_sublist_of_getElem? {α : Type} {xs : List α} {m k : Nat} {e f : α}
    (he : xs[m]? = some e) (hf : xs[m + 1 + k]? = some f) : [e, f].Sublist xs := by
  refine List.cons_sublist_iff.mpr ⟨xs.take (m + 1), xs.drop (m + 1),
    (List.take_append_drop _ _).symm, ?_, List.singleton_sublist.mpr ?_⟩
  · refine List.mem_of_getElem? (i := m) ?_
    rw [List.getElem?_take_of_lt (Nat.lt_succ_self m), he]
  · rw [← List.getElem?_drop] at hf
    exact List.mem_of_getElem? hf

variable {κ : Type}

namespace Service

/-- **Nobody sends but through the queue.** Everything else may be asked of the service. -/
def SentThroughQueue (tr : List (Transition κ)) : Prop :=
  ∀ e ∈ tr, ∀ r, e.action = .begin r → r.broadcast? = none

/-- **A send through the queue is at work**: it has the status lock, or is past the point where it
waited for it and its first broadcast has not been answered. -/
def AtWork (s : Service κ) (i : OperationId) : Prop :=
  (∃ tx options, s.request? i = some (.enqueue tx options)) ∧
    (s.statusLock.heldBy (.operation i) = true ∨ ∃ sub, s.stage? i = some (.submitting sub))

variable [DecidableEq κ] {setup : Setup κ} {s t : Service κ} {tr : List (Transition κ)}
  {i j : OperationId} {n n' : Nonce} {r : Request κ} {sub sub' : Submission κ}

omit [DecidableEq κ] in
theorem SentThroughQueue.of_append {tr' : List (Transition κ)}
    (h : SentThroughQueue (tr ++ tr')) : SentThroughQueue tr :=
  fun e he => h e (List.mem_append_left _ he)

/-! ### One send at a time -/

/-- What is asked makes no broadcast past the queue. -/
theorem History.broadcast?_eq_none (h : History setup .start tr s) (honly : SentThroughQueue tr)
    (hr : s.request? i = some r) : r.broadcast? = none := by
  obtain ⟨e, he, ha⟩ := h.begun hr
  exact honly e he r ha

/-- **Every first broadcast is made for the queue.** -/
theorem History.enqueue_of_submitting (h : History setup .start tr s)
    (honly : SentThroughQueue tr) (hst : s.stage? i = some (.submitting sub)) :
    (∃ tx options, s.request? i = some (.enqueue tx options)) ∧
      ∃ key previous, sub.origin = .queue key previous := by
  obtain ⟨r, hr⟩ := exists_request? hst
  have hnone := h.broadcast?_eq_none honly hr
  cases h.suits hr hst with
  | submitting hmakes =>
    cases horigin : sub.origin with
    | queue key previous =>
      rw [horigin] at hmakes
      obtain ⟨tx, options, rfl⟩ := Request.eq_enqueue_of_makes hmakes
      exact ⟨⟨tx, options, hr⟩, key, previous, rfl⟩
    | detached | attached =>
      rw [horigin] at hmakes
      cases r <;> contradiction

/-- Nobody waits for a delivery. -/
theorem History.ne_supervising (h : History setup .start tr s) (honly : SentThroughQueue tr)
    (d : DeliveryId) : s.stage? i ≠ some (.supervising d) := by
  intro hst
  obtain ⟨r, hr⟩ := exists_request? hst
  have hnone := h.broadcast?_eq_none honly hr
  cases h.suits hr hst with
  | supervising hreq => simp [hreq, Request.broadcast?] at hnone

/-- Whoever makes a first broadcast is at work. -/
theorem History.atWork_of_submitting (h : History setup .start tr s)
    (honly : SentThroughQueue tr) (hst : s.stage? i = some (.submitting sub)) : s.AtWork i :=
  ⟨(h.enqueue_of_submitting honly hst).1, .inr ⟨sub, hst⟩⟩

/-- **Whoever is at work has the status lock.** -/
theorem History.ownedBy_of_atWork (h : History setup .start tr s) (honly : SentThroughQueue tr)
    (hi : s.AtWork i) : s.statusLock.OwnedBy (.operation i) := by
  obtain ⟨⟨tx, options, hr⟩, hheld | ⟨sub, hst⟩⟩ := hi
  · exact h.statusGuarded.ownedBy (by rw [hr]; rfl) hheld
  · obtain ⟨-, key, previous, horigin⟩ := h.enqueue_of_submitting honly hst
    refine h.statusGuarded.owned ?_
    rw [holding?_eq hst, Operation.Stage.holding?_submitting horigin]
    simp

/-- **One send at a time is at work.** -/
theorem History.atWork_unique (h : History setup .start tr s) (honly : SentThroughQueue tr)
    (hi : s.AtWork i) (hj : s.AtWork j) : i = j :=
  Party.operation.inj ((h.ownedBy_of_atWork honly hi).unique (h.ownedBy_of_atWork honly hj))

/-- One first broadcast at a time is made. -/
theorem History.submitting_unique (h : History setup .start tr s) (honly : SentThroughQueue tr)
    (hi : s.stage? i = some (.submitting sub)) (hj : s.stage? j = some (.submitting sub')) :
    i = j :=
  h.atWork_unique honly (h.atWork_of_submitting honly hi) (h.atWork_of_submitting honly hj)

/-! ### The last nonce is the one broadcast -/

/-- **A submission that broadcasts has the nonce handed out last.** -/
theorem History.commits_of_broadcasting (h : History setup .start tr s)
    (honly : SentThroughQueue tr) (hst : s.stage? i = some (.submitting sub)) {signed : SignedTx}
    {deadline : Nat} (hs : sub.stage = .broadcasting signed deadline) :
    ∃ cs n, commits tr = cs ++ [(i, n)] := by
  induction h generalizing sub with
  | nil => simp [Service.start, stage?] at hst
  | @snoc tr t u a seen h hstep ih =>
    rw [commits_concat]
    cases submissionSource_of_step? hstep hst with
    | still hst' =>
      obtain ⟨cs, n, hcs⟩ := ih honly.of_append hst' hs
      -- Nobody else is submitting, so that no other nonce can have been handed out.
      have hnone : (Transition.commit? ⟨t, a, seen, u⟩) = none := by
        refine commit?_eq_none fun j n' hcommit => ?_
        obtain ⟨-, sub', hsub', hs'⟩ := hcommit
        obtain rfl := h.submitting_unique honly.of_append hst' hsub'
        obtain rfl := Operation.Stage.submitting.inj (Option.some.inj (hst'.symm.trans hsub'))
        rw [hs] at hs'
        contradiction
      exact ⟨cs, n, by rw [hnone, Option.toList_none, List.append_nil, hcs]⟩
    | opened _ _ hsigned =>
      rw [hs] at hsigned
      contradiction
    | moved _ _ _ hnone => exact absurd hs (hnone signed deadline)
    | @signed sub₀ n signed' hst' hs' ha =>
      have hcommit : (Transition.commit? ⟨t, a, seen, u⟩) = some (i, n) :=
        commit?_eq_some_iff.mpr ⟨⟨signed', ha⟩, sub₀, hst', hs'⟩
      exact ⟨commits tr, n, by rw [hcommit, Option.toList_some]⟩

/-- **Broadcasts are on their way in the order in which their nonces were handed out.** -/
theorem History.commits_in_order (h : History setup .start tr s) (honly : SentThroughQueue tr)
    {e f : Transition κ} (horder : [e, f].Sublist tr) {tx tx' : SignedTx}
    (hi : e.before.broadcasting? setup (.operation i) = some tx)
    (hj : f.before.broadcasting? setup (.operation j) = some tx') (hij : i ≠ j)
    (hmemi : (i, n) ∈ commits tr) (hmemj : (j, n') ∈ commits tr) :
    [(i, n), (j, n')].Sublist (commits tr) := by
  obtain ⟨before, between, after, rfl⟩ := exists_eq_of_pair_sublist horder
  obtain ⟨hf, -, -⟩ := h.around
  obtain ⟨he, -, -⟩ := hf.around
  obtain ⟨sub, deadline, hsti, hsi⟩ := broadcasting?_operation_eq_some_iff.mp hi
  obtain ⟨sub', deadline', hstj, hsj⟩ := broadcasting?_operation_eq_some_iff.mp hj
  obtain ⟨cs, m, hcs⟩ := he.commits_of_broadcasting honly.of_append.of_append hsti hsi
  obtain ⟨cs', m', hcs'⟩ := hf.commits_of_broadcasting honly.of_append hstj hsj
  -- An operation has one nonce only.
  have hone {k : OperationId} {m m' : Nonce}
      (hm : (k, m) ∈ commits (before ++ e :: between ++ f :: after))
      (hm' : (k, m') ∈ commits (before ++ e :: between ++ f :: after)) : m = m' :=
    (Prod.mk.inj (List.inj_on_of_nodup_map h.nodup_commits hm hm' rfl)).2
  have hmi : (i, m) ∈ commits (before ++ e :: between) := by
    rw [commits_append, hcs]
    simp
  have hmj : (j, m') ∈ commits (before ++ e :: between) := by
    rw [hcs']
    simp
  rw [commits_append] at hmemi hmemj hone ⊢
  obtain rfl : n = m := hone hmemi (List.mem_append_left _ hmi)
  obtain rfl : n' = m' := hone hmemj (List.mem_append_left _ hmj)
  have hci : (i, n) ∈ cs' := by
    rw [hcs'] at hmi
    rcases List.mem_append.mp hmi with hmi | hmi
    · exact hmi
    · exact absurd (Prod.mk.inj (List.mem_singleton.mp hmi)).1 hij
  rw [hcs']
  exact ((List.singleton_sublist.mpr hci).append (List.Sublist.refl [(j, n')])).trans
    (List.sublist_append_left _ _)

/-- A first broadcast is over when the next one is made. -/
theorem History.over_of_firstBroadcasts (h : History setup .start tr s)
    (honly : SentThroughQueue tr) {e f : Transition κ} (horder : [e, f].Sublist tr)
    {tx tx' : SignedTx} (hi : (i, tx) ∈ e.firstBroadcasts) (hj : (j, tx') ∈ f.firstBroadcasts) :
    i ≠ j ∧ (f.before.stage? i = some .dropped ∨ ∃ a, f.before.stage? i = some (.ended a)) := by
  obtain ⟨before, between, after, rfl⟩ := exists_eq_of_pair_sublist horder
  obtain ⟨hf, hstepf, -⟩ := h.around
  obtain ⟨he, hstepe, -⟩ := hf.around
  have hcommits {e : Transition κ} {i : OperationId} {tx : SignedTx}
      (hstep : e.before.step? setup e.action = some (e.after, e.seen))
      (hb : (i, tx) ∈ e.firstBroadcasts) : ∃ n, e.before.Commits e.action i n := by
    obtain ⟨o, ho, hb⟩ := List.mem_filterMap.mp hb
    unfold firstBroadcast? at hb
    split at hb
    case h_1 =>
      obtain ⟨rfl, rfl⟩ := Prod.mk.inj (Option.some.inj hb)
      exact commits_of_firstBroadcast hstep ho
    case h_2 => contradiction
  obtain ⟨n, hn⟩ := hcommits hstepe hi
  obtain ⟨n', hn'⟩ := hcommits hstepf hj
  have hmem : (i, n) ∈ commits (before ++ e :: between) := by
    rw [commits_append]
    exact List.mem_append_right _ (List.mem_filterMap.mpr
      ⟨e, List.mem_cons_self, commit?_eq_some_iff.mpr hn⟩)
  obtain ⟨-, sub', hst', hs'⟩ := hn'
  obtain ⟨st, hst, hpast⟩ := hf.pastSignature_of_commits hmem
  have hij : i ≠ j := by
    rintro rfl
    obtain rfl := Option.some.inj (hst.symm.trans hst')
    rw [pastSignature, hs'] at hpast
    contradiction
  refine ⟨hij, ?_⟩
  cases st with
  | submitting sub => exact absurd (hf.submitting_unique honly.of_append hst hst') hij
  | supervising d => exact absurd hst (hf.ne_supervising honly.of_append d)
  | ended a => exact .inr ⟨a, hst⟩
  | dropped => exact .inl hst
  | entering | estimating | replacing | resetting => contradiction

/-! ### In the order of their nonces -/

/-- Between two resets a nonce that is handed out later is larger. -/
theorem History.toNat_lt_of_sublist {pre mid : List (Transition κ)}
    (h : History setup .start pre t) (hmid : History setup t mid s)
    (hpre : ∀ e, pre.getLast? = some e → e.IsReset) (hquiet : ∀ e ∈ mid, ¬ e.IsReset)
    (hroom : Unexhausted mid) (hsub : [(i, n), (j, n')].Sublist (commits mid)) :
    n.toNat < n'.toNat := by
  cases hfirst : (commits mid).head? with
  | none =>
    rw [List.head?_eq_none_iff.mp hfirst] at hsub
    exact absurd (List.eq_nil_of_sublist_nil hsub) (by simp)
  | some first =>
    have hrange := h.range_commits hmid hpre hquiet hroom hfirst
    have hmap := hsub.map (·.2.toNat)
    rw [hrange] at hmap
    have hlt := (List.pairwise_lt_range' (s := first.2.toNat)).sublist hmap
    simpa using hlt

/-- **Sends through the queue are serialized.** In every run in which nobody sends but through the
queue:

* one send at a time is at work, from the moment it has the status lock until its first broadcast
  is answered or it is dropped, and whoever makes a first broadcast is at work;
* when a first broadcast is made, the send behind every earlier one is over;
* what is first broadcast was signed with a nonce handed out in the same step;
* of two first broadcasts with nonces handed out between the same two resets, at whatever moments
  they are on their way, the earlier one has the nonce that was handed out earlier, and the smaller
  one as long as the nonces last. -/
theorem History.serialized (h : History setup .start tr s) (honly : SentThroughQueue tr) :
    (∀ i j, s.AtWork i → s.AtWork j → i = j) ∧
    (∀ i sub, s.stage? i = some (.submitting sub) → s.AtWork i) ∧
    (∀ e f i j tx tx', [e, f].Sublist tr → (i, tx) ∈ e.firstBroadcasts →
      (j, tx') ∈ f.firstBroadcasts →
        i ≠ j ∧ (f.before.stage? i = some .dropped ∨ ∃ a, f.before.stage? i = some (.ended a))) ∧
    (∀ e ∈ tr, ∀ i signed, (i, signed) ∈ e.firstBroadcasts → ∃ n tx,
      e.commit? = some (i, n) ∧ e.before.pending? setup (.operation i) = some (.sign tx) ∧
        tx.nonce = n ∧ e.action = .reply (.operation i) (.signed signed)) ∧
    (∀ pre mid post, tr = pre ++ mid ++ post → (∀ e, pre.getLast? = some e → e.IsReset) →
      (∀ e ∈ mid, ¬ e.IsReset) → ∀ i j n n', (i, n) ∈ commits mid → (j, n') ∈ commits mid →
        ∀ e f tx tx', [e, f].Sublist tr → e.before.broadcasting? setup (.operation i) = some tx →
          f.before.broadcasting? setup (.operation j) = some tx' → i ≠ j →
            [(i, n), (j, n')].Sublist (commits mid) ∧
              (Unexhausted mid → n.toNat < n'.toNat)) := by
  refine ⟨fun i j hi hj => h.atWork_unique honly hi hj,
    fun i sub hst => h.atWork_of_submitting honly hst,
    fun e f i j tx tx' horder hi hj => h.over_of_firstBroadcasts honly horder hi hj, ?_, ?_⟩
  · intro e he i signed hb
    obtain ⟨pre, post, rfl⟩ := List.append_of_mem he
    obtain ⟨-, hstep, -⟩ := h.around
    obtain ⟨o, ho, hb⟩ := List.mem_filterMap.mp hb
    unfold firstBroadcast? at hb
    split at hb
    case h_2 => contradiction
    case h_1 j signed' =>
      obtain ⟨rfl, rfl⟩ := Prod.mk.inj (Option.some.inj hb)
      obtain ⟨n, hn⟩ := commits_of_firstBroadcast hstep ho
      obtain ⟨-, tx, signed'', hpending, hnonce, ha, hseen⟩ := signed_of_commits hstep hn
      obtain rfl : signed' = signed'' := by simpa [hseen] using ho
      exact ⟨n, tx, commit?_eq_some_iff.mpr hn, hpending, hnonce, ha⟩
  · rintro pre mid post htr hpre hquiet i j n n' hi hj e f tx tx' hef hbi hbj hij
    have hsplit : commits tr = commits pre ++ commits mid ++ commits post := by
      rw [htr, commits_append, commits_append]
    have hmem {c : OperationId × Nonce} (hc : c ∈ commits mid) : c ∈ commits tr := by
      rw [hsplit]
      exact List.mem_append_left _ (List.mem_append_right _ hc)
    have horder : [(i, n), (j, n')].Sublist (commits mid) := by
      have hall := h.commits_in_order honly hef hbi hbj hij (hmem hi) (hmem hj)
      rw [hsplit] at hall
      refine sublist_of_forall_mem hall ?_ (by simp [hi, hj])
      rw [← hsplit]
      exact h.nodup_commits.of_map
    refine ⟨horder, fun hroom => ?_⟩
    rw [htr] at h
    obtain ⟨u, hu, -⟩ := h.split
    obtain ⟨v, hv, hvu⟩ := hu.split
    exact hv.toNat_lt_of_sublist hvu hpre hquiet hroom horder

/-- A run in which two sends through the queue take their turns, the first broadcast being
refused. -/
def takenTurnsRun : List (Action Unit) :=
  [.begin (.enqueue sampleTx {}), .begin (.enqueue (transfer 1) {}), .resume 0, .resume 0,
    .reply (.operation 0) (.nonce 5), .reply (.operation 0) (.signed (sampleSigned 5)),
    .reply (.operation 0) (.failed (.rpc "refused")), .resume 1, .resume 1,
    .reply (.operation 1) (.signed (signedTransfer 1 6)), .reply (.operation 1) (.accepted 1)]

/-- In this run the first send is over when the second is broadcast, and the broadcast of the first,
on its way earlier, has the smaller nonce. -/
theorem serialized_takenTurnsRun :
    ∃ (tr : List (Transition Unit)) (s : Service Unit), History sampleSetup .start tr s ∧
      tr.map (·.action) = takenTurnsRun ∧ SentThroughQueue tr ∧
      (∃ e f, [e, f].Sublist tr ∧ (0, sampleSigned 5) ∈ e.firstBroadcasts ∧
        (1, signedTransfer 1 6) ∈ f.firstBroadcasts ∧
        (f.before.stage? 0 = some .dropped ∨ ∃ a, f.before.stage? 0 = some (.ended a))) ∧
      (∃ e f, [e, f].Sublist tr ∧
        e.before.broadcasting? sampleSetup (.operation 0) = some (sampleSigned 5) ∧
        f.before.broadcasting? sampleSetup (.operation 1) = some (signedTransfer 1 6) ∧
        [((0 : OperationId), (5 : Nonce)), (1, 6)].Sublist (commits tr) ∧
        (5 : Nonce).toNat < (6 : Nonce).toNat) := by
  have hrun : (start.trace? sampleSetup takenTurnsRun).map (fun r =>
      decide (r.1[5]?.map Transition.firstBroadcasts = some [(0, sampleSigned 5)] ∧
        r.1[9]?.map Transition.firstBroadcasts = some [(1, signedTransfer 1 6)] ∧
        r.1[6]?.map (fun e => e.before.broadcasting? sampleSetup (.operation 0)) =
          some (some (sampleSigned 5)) ∧
        r.1[10]?.map (fun e => e.before.broadcasting? sampleSetup (.operation 1)) =
          some (some (signedTransfer 1 6)) ∧
        commits r.1 = [(0, 5), (1, 6)] ∧
        ∀ e ∈ r.1, ¬ e.before.Resets e.action)) = some true := by decide
  obtain ⟨tr, s, h, has, hb⟩ := exists_history hrun
  obtain ⟨hasked₀, hasked₁, hway₀, hway₁, hcommits, hquiet⟩ := of_decide_eq_true hb
  have honly : SentThroughQueue tr := by
    intro e he r ha
    have hmem : e.action ∈ takenTurnsRun := by
      rw [← has]
      exact List.mem_map_of_mem he
    rw [ha] at hmem
    simp only [takenTurnsRun, List.mem_cons, Action.begin.injEq, reduceCtorEq, List.not_mem_nil,
      or_false] at hmem
    rcases hmem with rfl | rfl <;> rfl
  obtain ⟨-, -, hover, -, horder⟩ := h.serialized honly
  refine ⟨tr, s, h, has, honly, ?_, ?_⟩
  · obtain ⟨e, he, hi⟩ := Option.map_eq_some_iff.mp hasked₀
    obtain ⟨f, hf, hj⟩ := Option.map_eq_some_iff.mp hasked₁
    have horder := pair_sublist_of_getElem? (k := 3) he hf
    have hmemi : (0, sampleSigned 5) ∈ e.firstBroadcasts := by simp [hi]
    have hmemj : (1, signedTransfer 1 6) ∈ f.firstBroadcasts := by simp [hj]
    exact ⟨e, f, horder, hmemi, hmemj, (hover e f 0 1 _ _ horder hmemi hmemj).2⟩
  · obtain ⟨e, he, hi⟩ := Option.map_eq_some_iff.mp hway₀
    obtain ⟨f, hf, hj⟩ := Option.map_eq_some_iff.mp hway₁
    have hef := pair_sublist_of_getElem? (k := 3) he hf
    obtain ⟨hsub, hlt⟩ := horder [] tr [] (by simp) (by simp) hquiet 0 1 5 6 (by simp [hcommits])
      (by simp [hcommits]) e f _ _ hef hi hj (by simp)
    exact ⟨e, f, hef, hi, hj, hsub, hlt fun i n hmem => by
      rcases List.mem_cons.mp (hcommits ▸ hmem) with heq | hmem
      · obtain ⟨rfl, rfl⟩ := Prod.mk.inj heq
        decide
      · obtain ⟨rfl, rfl⟩ := Prod.mk.inj (List.mem_singleton.mp hmem)
        decide⟩

end Service

end TxDelivery
