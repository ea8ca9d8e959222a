import Mathlib.Data.List.Nodup
import TxDelivery.Proofs.Nonce.Account

/-!
# Nonces used twice

A nonce is used twice if the chain accepts two first broadcasts with it
(`TxDelivery.Service.Reused`). Between two resets this cannot happen, as the nonces are consecutive
there. After a reset the nonce is asked from the chain again, and the chain answers with the number
of transactions mined, whatever it has accepted and not mined yet. Hence **a nonce is used twice
exactly if it comes round again after a reset** (`TxDelivery.Service.ComesRound`): what the chain
answers then is not above it, and enough nonces are handed out since.

The reset itself is the business of an old broadcast: it is due to a nonce found too low, and by the
time it takes effect other operations may have fetched the nonce anew
(`TxDelivery.Service.nonce_reused_lateResetRun`).

## The equivalence

A run is cut at its resets, and on each part the nonces committed are the numbers from the first one
on (`TxDelivery.Service.History.range_commits`). To come round again is to be in the range of a part
without having been committed in that part for the first time; so a nonce that comes round again is
committed again, and a nonce committed twice is committed in two different parts, the second of
which begins with a reset (`TxDelivery.Service.History.comesRound`). Both accepted broadcasts are
tied to commitments by the signer's honesty, and an operation makes one first broadcast only.

## Without others

As long as nobody else uses the account and no caller resets the nonce, no nonce is ever found too
low, and none is used twice. The invariant is that the service has its account for itself
(`TxDelivery.Service.Alone`): there was no reset, nobody waits for one, and no nonce was too low. It
is kept on both sides. A step of the service could only break it with a reply that a nonce was too
low, and the chain has not found any so. The chain could only break it by finding one so, for which
more would have to be mined than the service had accepted with lower nonces, and these are all there
are below it, each broadcast once (`TxDelivery.Service.Alone.accepted_of_mined`).
-/

namespace TxDelivery

variable {κ : Type}

namespace Service

/-- **A nonce is used twice**: two first broadcasts with it are accepted. -/
def Reused (log : List AccountEvent) (n : Nonce) : Prop :=
  ∃ i j tx tx', i ≠ j ∧ .accepted i tx ∈ log ∧ .accepted j tx' ∈ log ∧ tx.tx.nonce = n ∧
    tx'.tx.nonce = n

/-- No nonce committed is the last there is. -/
def Unexhausted (tr : List (Transition κ)) : Prop :=
  ∀ i n, (i, n) ∈ commits tr → n.toNat + 1 < 2 ^ 64

instance (tr : List (Transition κ)) : Decidable (Unexhausted tr) :=
  decidable_of_iff (∀ c ∈ commits tr, c.2.toNat + 1 < 2 ^ 64)
    ⟨fun h i n hmem => h (i, n) hmem, fun h c hmem => h c.1 c.2 hmem⟩

/-- **A nonce comes round again** in the part `mid` of a run that follows on `pre`. -/
structure ComesRound (setup : Setup κ) (pre mid : List (Transition κ)) (n : Nonce) : Prop where
  /-- The part begins right after a reset. -/
  reset : ∃ e, pre.getLast? = some e ∧ e.IsReset
  /-- It holds no other. -/
  quiet : ∀ e ∈ mid, ¬ e.IsReset
  /-- The nonce fetched in it is not above `n`, and is counted past `n`. -/
  counted : ∃ i m, (commits mid).head? = some (i, m) ∧ Fetched setup mid i m ∧
    m.toNat ≤ n.toNat ∧ n.toNat < m.toNat + (commits mid).length

/-! ### Between two resets -/

/-- Consecutive nonces that do not reach the last one do not overflow. -/
theorem toNat_add_le_of_consecutive {m : Nonce} {k : Nat}
    (h : ∀ n ∈ consecutive m k, n.toNat + 1 < 2 ^ 64) : m.toNat + k ≤ 2 ^ 64 := by
  induction k with
  | zero => exact m.toNat_lt.le
  | succ k ih =>
    rw [consecutive_succ] at h
    have hbelow := ih fun n hn => h n (List.mem_append_left _ hn)
    have hlast := h (m + UInt64.ofNat k) (by simp)
    rw [UInt64.toNat_add, UInt64.toNat_ofNat'] at hlast
    rcases hbelow.lt_or_eq with hlt | heq
    · omega
    · have hm := m.toNat_lt
      cases k with
      | zero => omega
      | succ k =>
        -- The nonce before would be the last one there is.
        have hprev := h (m + UInt64.ofNat k) (List.mem_append_left _ (by simp [consecutive_succ]))
        rw [UInt64.toNat_add, UInt64.toNat_ofNat', Nat.mod_eq_of_lt (a := k) (by omega),
          Nat.mod_eq_of_lt (by omega)] at hprev
        omega

/-- A run can be cut at its last reset. -/
theorem exists_since_reset (tr : List (Transition κ)) : ∃ pre mid, tr = pre ++ mid ∧
    (∀ e, pre.getLast? = some e → e.IsReset) ∧ ∀ e ∈ mid, ¬ e.IsReset := by
  induction tr using List.reverseRecOn with
  | nil => exact ⟨[], [], rfl, by simp, by simp⟩
  | append_singleton tr e ih =>
    by_cases he : e.IsReset
    · refine ⟨tr ++ [e], [], by simp, fun e' he' => ?_, by simp⟩
      obtain rfl : e = e' := by simpa using he'
      exact he
    · obtain ⟨pre, mid, rfl, hpre, hmid⟩ := ih
      refine ⟨pre, mid ++ [e], by simp, hpre, fun e' he' => ?_⟩
      rcases List.mem_append.mp he' with he' | he'
      · exact hmid e' he'
      · obtain rfl := List.mem_singleton.mp he'
        exact he

section Run

variable [DecidableEq κ] {setup : Setup κ} {s t : Service κ} {pre mid tr : List (Transition κ)}
  {i : OperationId} {n : Nonce}

/-- **Between two resets** the nonces committed are those from the first one on, as numbers. -/
theorem History.range_commits (h : History setup .start pre t) (hmid : History setup t mid s)
    (hpre : ∀ e, pre.getLast? = some e → e.IsReset) (hquiet : ∀ e ∈ mid, ¬ e.IsReset)
    (hroom : Unexhausted mid) {m : Nonce} (hfirst : (commits mid).head? = some (i, m)) :
    (commits mid).map (·.2.toNat) = List.range' m.toNat (commits mid).length := by
  obtain ⟨hnum, hnat, -⟩ := h.consecutive_commits hmid hpre hquiet hfirst
  refine hnat (toNat_add_le_of_consecutive fun n hn => ?_)
  rw [← hnum] at hn
  obtain ⟨c, hc, rfl⟩ := List.mem_map.mp hn
  exact hroom c.1 c.2 hc

/-- **Between two resets** no nonce is committed twice. -/
theorem History.commits_unique (h : History setup .start pre t) (hmid : History setup t mid s)
    (hpre : ∀ e, pre.getLast? = some e → e.IsReset) (hquiet : ∀ e ∈ mid, ¬ e.IsReset)
    (hroom : Unexhausted mid) {c c' : OperationId × Nonce} (hc : c ∈ commits mid)
    (hc' : c' ∈ commits mid) (heq : c.2 = c'.2) : c = c' := by
  cases hfirst : (commits mid).head? with
  | none =>
    rw [List.head?_eq_none_iff.mp hfirst] at hc
    contradiction
  | some first =>
    have hrange := h.range_commits hmid hpre hquiet hroom hfirst
    have hnodup : ((commits mid).map (·.2.toNat)).Nodup := by
      rw [hrange]
      exact List.nodup_range'
    exact List.inj_on_of_nodup_map hnodup hc hc' (congrArg UInt64.toNat heq)

omit [DecidableEq κ] in
/-- A step that commits a nonce is no reset. -/
theorem not_isReset_of_commit {e : Transition κ} (h : e.commit? = some (i, n)) : ¬ e.IsReset := by
  rintro ⟨j, ha, -⟩
  obtain ⟨⟨signed, ha'⟩, -⟩ := commit?_eq_some_iff.mp h
  simp [ha] at ha'

/-- **An operation commits one nonce only.** -/
theorem History.commits_once (h : History setup .start (pre ++ mid) s)
    (hi : (i, n) ∈ commits pre) (m : Nonce) : (i, m) ∉ commits mid := by
  intro hm
  obtain ⟨e, he, hcommit⟩ := List.mem_filterMap.mp hm
  obtain ⟨before, after, rfl⟩ := List.append_of_mem he
  rw [← List.append_assoc] at h
  obtain ⟨hbefore, -, -⟩ := h.around
  have hmem : (i, n) ∈ commits (pre ++ before) := by
    rw [commits_append]
    exact List.mem_append_left _ hi
  obtain ⟨st, hst, hpast⟩ := hbefore.pastSignature_of_commits hmem
  obtain ⟨-, sub, hsub, hs⟩ := commit?_eq_some_iff.mp hcommit
  obtain rfl := Option.some.inj (hst.symm.trans hsub)
  rw [pastSignature, hs] at hpast
  contradiction

/-- **A nonce that comes round again** is committed again. -/
theorem ComesRound.mem_commits (hround : ComesRound setup pre mid n)
    (h : History setup .start pre t) (hmid : History setup t mid s) (hroom : Unexhausted mid) :
    ∃ i, (i, n) ∈ commits mid := by
  obtain ⟨e, he, hreset⟩ := hround.reset
  obtain ⟨i, m, hfirst, -, hle, hlt⟩ := hround.counted
  have hpre : ∀ e, pre.getLast? = some e → e.IsReset := fun e' he' =>
    Option.some.inj (he.symm.trans he') ▸ hreset
  have hmem : n.toNat ∈ (commits mid).map (·.2.toNat) := by
    rw [h.range_commits hmid hpre hround.quiet hroom hfirst]
    exact List.mem_range'_1.mpr ⟨hle, hlt⟩
  obtain ⟨c, hc, heq⟩ := List.mem_map.mp hmem
  obtain ⟨j, n'⟩ := c
  obtain rfl : n' = n := UInt64.toNat_inj.mp heq
  exact ⟨j, hc⟩

/-- **A nonce that is committed twice comes round again**: the first time it was committed before a
reset, and since then only the second time. -/
theorem History.comesRound {before after : List (Transition κ)} {e : Transition κ}
    {j : OperationId} (h : History setup .start (before ++ e :: after) s)
    (hroom : Unexhausted (before ++ e :: after)) (hi : (i, n) ∈ commits before)
    (hj : e.commit? = some (j, n)) :
    ∃ pre mid, before = pre ++ mid ∧ (i, n) ∈ commits pre ∧ ComesRound setup pre (mid ++ [e]) n ∧
      ∀ k, (k, n) ∈ commits (mid ++ [e]) → k = j := by
  obtain ⟨pre, mid, rfl, hpre, hquiet⟩ := exists_since_reset before
  have hsplit : pre ++ mid ++ e :: after = pre ++ (mid ++ [e]) ++ after := by simp
  rw [hsplit] at h hroom
  obtain ⟨u, hu, -⟩ := h.split
  obtain ⟨v, hv, hvu⟩ := hu.split
  have hquiet' : ∀ e' ∈ mid ++ [e], ¬ e'.IsReset := by
    intro e' he'
    rcases List.mem_append.mp he' with he' | he'
    · exact hquiet e' he'
    · obtain rfl := List.mem_singleton.mp he'
      exact not_isReset_of_commit hj
  have hroom' : Unexhausted (mid ++ [e]) := fun k m hm => hroom k m (by
    rw [commits_append, commits_append]
    exact List.mem_append_left _ (List.mem_append_right _ hm))
  have hlast : (j, n) ∈ commits (mid ++ [e]) := by simp [commits_concat, hj]
  have hunique : ∀ k, (k, n) ∈ commits (mid ++ [e]) → k = j := fun k hk =>
    (Prod.mk.inj (hv.commits_unique hvu hpre hquiet' hroom' hk hlast rfl)).1
  -- In the part since the reset the nonce is committed once, and to another operation.
  have hold : (i, n) ∈ commits pre := by
    rw [commits_append] at hi
    rcases List.mem_append.mp hi with hi | hi
    · exact hi
    · have hmid : (i, n) ∈ commits (mid ++ [e]) := by simp [commits_concat, hi]
      obtain rfl := hunique i hmid
      have hwhole : History setup .start (pre ++ mid ++ [e]) u := by simpa using hu
      have hearlier : (i, n) ∈ commits (pre ++ mid) := by simp [commits_append, hi]
      have hagain : (i, n) ∈ commits [e] := by simp [commits, hj]
      exact absurd hagain (hwhole.commits_once hearlier n)
  refine ⟨pre, mid, rfl, hold, ⟨?_, hquiet', ?_⟩, hunique⟩
  · cases hlast : pre.getLast? with
    | none =>
      rw [List.getLast?_eq_none_iff.mp hlast] at hold
      contradiction
    | some e' => exact ⟨e', rfl, hpre e' hlast⟩
  · cases hfirst : (commits (mid ++ [e])).head? with
    | none =>
      rw [List.head?_eq_none_iff.mp hfirst] at hlast
      contradiction
    | some first =>
      obtain ⟨k, m⟩ := first
      have hmem : n.toNat ∈ (commits (mid ++ [e])).map (·.2.toNat) :=
        List.mem_map.mpr ⟨(j, n), hlast, rfl⟩
      rw [hv.range_commits hvu hpre hquiet' hroom' hfirst] at hmem
      obtain ⟨hle, hlt⟩ := List.mem_range'_1.mp hmem
      exact ⟨k, m, rfl, (hv.consecutive_commits hvu hpre hquiet' hfirst).2.2, hle, hlt⟩

variable {account : Address} {chain : UInt64}

/-- A first broadcast commits its nonce. -/
theorem History.mem_commits_iff (h : History setup s tr t)
    (hsigns : ∀ e ∈ tr, SignsFor setup account chain e) :
    (i, n) ∈ commits tr ↔ ∃ tx, (i, tx) ∈ firstBroadcasts tr ∧ tx.tx.nonce = n := by
  rw [← h.map_firstBroadcasts hsigns, List.mem_map]
  constructor
  · rintro ⟨⟨j, tx⟩, hb, heq⟩
    obtain ⟨rfl, hn⟩ := Prod.mk.inj heq
    exact ⟨tx, hb, hn⟩
  · rintro ⟨tx, hb, rfl⟩
    exact ⟨(i, tx), hb, rfl⟩

/-- The operations nonces are committed for are all different. -/
theorem History.nodup_commits (h : History setup .start tr s) :
    ((commits tr).map (·.1)).Nodup := by
  induction h with
  | nil => exact List.nodup_nil
  | @snoc tr t u a seen h hstep ih =>
    rw [commits_concat]
    cases hcommit : (Transition.commit? ⟨t, a, seen, u⟩) with
    | none => simpa using ih
    | some c =>
      have hlast : c ∈ commits [⟨t, a, seen, u⟩] := by simp [commits, hcommit]
      have hnew : c.1 ∉ (commits tr).map (·.1) := by
        intro hmem
        obtain ⟨c', hc', heq⟩ := List.mem_map.mp hmem
        refine (h.snoc hstep).commits_once (n := c'.2) ?_ c.2 hlast
        rw [← heq]
        exact hc'
      rw [Option.toList_some, List.map_append, List.nodup_append_comm]
      exact List.nodup_cons.mpr ⟨hnew, ih⟩

/-- **An operation makes one first broadcast only.** -/
theorem History.firstBroadcasts_unique (h : History setup .start tr s)
    (hsigns : ∀ e ∈ tr, SignsFor setup account chain e) {tx tx' : SignedTx}
    (hb : (i, tx) ∈ firstBroadcasts tr) (hb' : (i, tx') ∈ firstBroadcasts tr) : tx = tx' := by
  have hnodup : ((firstBroadcasts tr).map (·.1)).Nodup := by
    have hnodup := h.nodup_commits
    rwa [← h.map_firstBroadcasts hsigns, List.map_map] at hnodup
  exact (Prod.mk.inj (List.inj_on_of_nodup_map hnodup hb hb' rfl)).2

end Run

/-! ### Across resets -/

section Account

variable [DecidableEq κ] {setup : Setup κ} {base : Nat} {pre mid post tr : List (Transition κ)}
  {s : Service κ} {log : List AccountEvent} {account : Address} {chain : UInt64} {n : Nonce}

/-- **A nonce that was accepted and comes round again** is used twice, once it is accepted again. -/
theorem AccountHistory.reused_of_comesRound
    (h : AccountHistory setup base (pre ++ mid ++ post) s log)
    (hsigns : ∀ e ∈ pre ++ mid ++ post, SignsFor setup account chain e)
    (hroom : Unexhausted (pre ++ mid ++ post)) (hround : ComesRound setup pre mid n)
    {i : OperationId} {tx : SignedTx} (hb : (i, tx) ∈ firstBroadcasts pre) (hn : tx.tx.nonce = n)
    (haccepted : .accepted i tx ∈ log)
    (hagain : ∀ j tx', (j, tx') ∈ firstBroadcasts mid → tx'.tx.nonce = n →
      .accepted j tx' ∈ log) : Reused log n := by
  obtain ⟨u, hu, -⟩ := h.history.split
  obtain ⟨v, hv, hvu⟩ := hu.split
  have hroommid : Unexhausted mid := fun j m hm => hroom j m (by simp [commits_append, hm])
  have hsignspre : ∀ e ∈ pre, SignsFor setup account chain e := fun e he => hsigns e (by simp [he])
  have hsignsmid : ∀ e ∈ mid, SignsFor setup account chain e := fun e he => hsigns e (by simp [he])
  obtain ⟨j, hj⟩ := hround.mem_commits hv hvu hroommid
  obtain ⟨tx', hb', hn'⟩ := (hvu.mem_commits_iff hsignsmid).mp hj
  have hfirst : (i, n) ∈ commits pre := (hv.mem_commits_iff hsignspre).mpr ⟨tx, hb, hn⟩
  refine ⟨i, j, tx, tx', ?_, haccepted, hagain j tx' hb' hn', hn, hn'⟩
  rintro rfl
  exact hu.commits_once hfirst n hj

/-- **A nonce that is broadcast again comes round again**, if both broadcasts are accepted. -/
theorem AccountHistory.comesRound_of_later {before after : List (Transition κ)} {e : Transition κ}
    (h : AccountHistory setup base (before ++ e :: after) s log)
    (hsigns : ∀ e' ∈ before ++ e :: after, SignsFor setup account chain e')
    (hroom : Unexhausted (before ++ e :: after)) {i j : OperationId} {tx tx' : SignedTx}
    (hb : (i, tx) ∈ firstBroadcasts before) (hb' : (j, tx') ∈ e.firstBroadcasts)
    (hn : tx.tx.nonce = n) (hn' : tx'.tx.nonce = n) (haccepted : .accepted i tx ∈ log)
    (haccepted' : .accepted j tx' ∈ log) :
    ∃ pre mid post, before ++ e :: after = pre ++ mid ++ post ∧ ComesRound setup pre mid n ∧
      (∃ i tx, (i, tx) ∈ firstBroadcasts pre ∧ tx.tx.nonce = n ∧ .accepted i tx ∈ log) ∧
      ∀ i tx, (i, tx) ∈ firstBroadcasts mid → tx.tx.nonce = n → .accepted i tx ∈ log := by
  obtain ⟨hbefore, hstep, -⟩ := h.history.around
  have hi : (i, n) ∈ commits before :=
    (hbefore.mem_commits_iff fun e' he' => hsigns e' (by simp [he'])).mpr ⟨tx, hb, hn⟩
  have hj : e.commit? = some (j, n) := by
    rw [commit?_of_firstBroadcast hstep (hsigns e (by simp)) hb', hn']
  obtain ⟨pre, mid, rfl, hpre, hround, hunique⟩ := h.history.comesRound hroom hi hj
  have hsplit : pre ++ mid ++ e :: after = pre ++ (mid ++ [e]) ++ after := by simp
  rw [hsplit] at h hsigns ⊢
  obtain ⟨u, hu, -⟩ := h.history.split
  obtain ⟨v, hv, hvu⟩ := hu.split
  -- Either part holds one first broadcast with the nonce, and it is the one that was accepted.
  have hsame {k : OperationId} {tx tx' : SignedTx} (hk : (k, tx) ∈ firstBroadcasts pre ∨
      (k, tx) ∈ firstBroadcasts (mid ++ [e])) (haccepted : .accepted k tx' ∈ log) :
      .accepted k tx ∈ log := by
    have hwhole : (k, tx) ∈ firstBroadcasts (pre ++ (mid ++ [e]) ++ after) := by
      rw [firstBroadcasts_append, firstBroadcasts_append]
      exact List.mem_append_left _ (List.mem_append.mpr hk)
    rwa [h.history.firstBroadcasts_unique hsigns hwhole (h.broadcast_of_accepted haccepted)]
  have hsignsPre : ∀ e' ∈ pre, SignsFor setup account chain e' := fun e' he' =>
    hsigns e' (by simp [he'])
  have hsignsMid : ∀ e' ∈ mid ++ [e], SignsFor setup account chain e' := fun e' he' =>
    hsigns e' (List.mem_append_left _ (List.mem_append_right _ he'))
  obtain ⟨tx₀, hb₀, hn₀⟩ := (hv.mem_commits_iff hsignsPre).mp hpre
  refine ⟨pre, mid ++ [e], after, rfl, hround, ⟨i, tx₀, hb₀, hn₀, hsame (.inl hb₀) haccepted⟩,
    fun k tx₁ hk hn₁ => ?_⟩
  obtain rfl := hunique k ((hvu.mem_commits_iff hsignsMid).mpr ⟨tx₁, hk, hn₁⟩)
  exact hsame (.inr hk) haccepted'

/-- **A nonce that is used twice comes round again.** -/
theorem AccountHistory.comesRound_of_reused (h : AccountHistory setup base tr s log)
    (hsigns : ∀ e ∈ tr, SignsFor setup account chain e) (hroom : Unexhausted tr)
    {i j : OperationId} {tx tx' : SignedTx} (hij : i ≠ j) (haccepted : .accepted i tx ∈ log)
    (haccepted' : .accepted j tx' ∈ log) (hn : tx.tx.nonce = n) (hn' : tx'.tx.nonce = n) :
    ∃ pre mid post, tr = pre ++ mid ++ post ∧ ComesRound setup pre mid n ∧
      (∃ i tx, (i, tx) ∈ firstBroadcasts pre ∧ tx.tx.nonce = n ∧ .accepted i tx ∈ log) ∧
      ∀ i tx, (i, tx) ∈ firstBroadcasts mid → tx.tx.nonce = n → .accepted i tx ∈ log := by
  obtain ⟨e, he, hb⟩ := List.mem_flatMap.mp (h.broadcast_of_accepted haccepted)
  obtain ⟨before, after, rfl⟩ := List.append_of_mem he
  have hb' := h.broadcast_of_accepted haccepted'
  rw [firstBroadcasts_append] at hb'
  rcases List.mem_append.mp hb' with hb' | hb'
  · exact h.comesRound_of_later hsigns hroom hb' hb hn' hn haccepted' haccepted
  · rw [firstBroadcasts, List.flatMap_cons] at hb'
    rcases List.mem_append.mp hb' with hb' | hb'
    · -- One step broadcasts for one operation only.
      obtain ⟨-, hstep, -⟩ := h.history.around
      have hsigned := hsigns e (by simp)
      have hcommit := commit?_of_firstBroadcast hstep hsigned hb
      have hcommit' := commit?_of_firstBroadcast hstep hsigned hb'
      exact absurd (Prod.mk.inj (Option.some.inj (hcommit.symm.trans hcommit'))).1 hij
    · obtain ⟨e', he', hlater⟩ := List.mem_flatMap.mp hb'
      obtain ⟨between, after', rfl⟩ := List.append_of_mem he'
      have hsplit : before ++ e :: (between ++ e' :: after') =
          (before ++ e :: between) ++ e' :: after' := by simp
      rw [hsplit] at h hsigns hroom ⊢
      refine h.comesRound_of_later hsigns hroom ?_ hlater hn hn' haccepted haccepted'
      rw [firstBroadcasts_append]
      exact List.mem_append_right _ (List.mem_append_left _ hb)

end Account

/-! ### Without others -/

section Forgetting

variable [DecidableEq κ] {setup : Setup κ} {s t : Service κ} {a : Action κ}
  {seen : List Observation} {i j : OperationId} {st st' : Operation.Stage κ}

open Operation

/-- Who waits to forget the nonce did so before, or begins to because a caller wants it or because
the nonce of its broadcast was too low. -/
def ForgetsSource (setup : Setup κ) (s : Service κ) (j : OperationId) (a : Action κ)
    (st' : Operation.Stage κ) : Prop :=
  s.stage? j = some st' ∨ a = .begin .resetNonce ∨ ∃ e tx,
    a = .reply (.operation j) (.failed e) ∧ e.isNonceTooLow = true ∧
      s.broadcasting? setup (.operation j) = some tx

omit [DecidableEq κ] in
/-- Who does not wait to forget the nonce after its own step is another operation. -/
theorem forgetsSource_of_put {st₀ : Operation.Stage κ} (hst : s.stage? i = some st)
    (ht : t.operations = put s.operations i st₀) (hnew : forgets st₀ = false)
    (hj : t.stage? j = some st') (hf : forgets st' = true) : ForgetsSource setup s j a st' := by
  by_cases hij : i = j
  · subst hij
    obtain rfl := Option.some.inj ((stage?_put_self ht hst).symm.trans hj)
    rw [hnew] at hf
    contradiction
  · exact .inl ((stage?_put_of_ne ht hij).symm.trans hj)

omit [DecidableEq κ] in
/-- An operation that begins does not wait to forget the nonce, unless a caller wants it. -/
theorem forgetsSource_of_append {r : Request κ} {st₀ : Operation.Stage κ}
    (ht : t.operations = s.operations ++ [⟨r, st₀⟩]) (hnew : forgets st₀ = false)
    (hj : t.stage? j = some st') (hf : forgets st' = true) : ForgetsSource setup s j a st' := by
  rw [stage?_of_append ht] at hj
  split at hj
  case isTrue =>
    obtain rfl := Option.some.inj hj
    rw [hnew] at hf
    contradiction
  case isFalse => exact .inl hj

omit [DecidableEq κ] in
/-- A submission that opens does not wait to forget the nonce. -/
theorem forgets_of_opening {lock lock' : FairLock OperationId} {sub : Submission κ}
    (h : Submission.Opening lock i sub lock' seen) : forgets (.submitting sub) = false := by
  cases h with
  | pricing hs | estimating hs | queued hs => simp [forgets, hs]

theorem forgetsSource_of_operationStep (h : OperationStep setup s a (t, seen))
    (hj : t.stage? j = some st') (hf : forgets st' = true) : ForgetsSource setup s j a st' := by
  cases h with
  | submit _ _ hopen => exact forgetsSource_of_append rfl (forgets_of_opening hopen) hj hf
  | enter | estimate | replace => exact forgetsSource_of_append rfl rfl hj hf
  | forget => exact .inr (.inl rfl)
  | enqueue hst _ _ _ _ _ hopen | price hst _ _ _ hopen =>
    exact forgetsSource_of_put hst rfl (forgets_of_opening hopen) hj hf
  | @tooLow i sub signed deadline e hst hs hlow =>
    by_cases hij : i = j
    · subst hij
      exact .inr (.inr ⟨e, signed, rfl, hlow,
        broadcasting?_operation_eq_some_iff.mpr ⟨sub, deadline, hst, hs⟩⟩)
    · exact .inl ((stage?_put_of_ne rfl hij).symm.trans hj)
  | duplicate hst | mark hst | read hst | fetch hst | sign hst | forgotten hst | gas hst
  | nonce hst | signed hst | refuse hst | refuseQueued hst | launchDetached hst
  | launchAttached hst | launchQueued hst | answer hst | escalate hst | drop hst
  | dropWaiting hst => exact forgetsSource_of_put hst rfl rfl hj hf

/-- **Where resets come from.** -/
theorem forgetsSource_of_step? (h : s.step? setup a = some (t, seen))
    (hj : t.stage? j = some st') (hf : forgets st' = true) : ForgetsSource setup s j a st' := by
  have hnot : ∀ outcome, st' ≠ .ended (.delivered outcome) := by
    rintro outcome rfl
    contradiction
  rcases operationStep_or_stage? h hj hnot with h | hst
  · exact forgetsSource_of_operationStep h hj hf
  · exact .inl hst

end Forgetting

/-- **A service that has its account for itself.** -/
structure Alone (base : Nat) (tr : List (Transition κ)) (s : Service κ)
    (log : List AccountEvent) : Prop where
  /-- There was no reset. -/
  quiet : ∀ e ∈ tr, ¬ e.IsReset
  /-- Nobody waits for one. -/
  settled : ∀ i st, s.stage? i = some st → forgets st = false
  /-- No nonce was too low. -/
  tooLow : ∀ i tx, .tooLow i tx ∉ log
  /-- What is mined was accepted before, nonce by nonce. -/
  covered : ∀ k, base ≤ k → k < minedCount base log →
    ∃ i tx, .accepted i tx ∈ log ∧ tx.tx.nonce.toNat = k
  /-- Until a nonce is committed the chain gives the one it started with. -/
  quoted : commits tr = [] → ∀ i n, .quoted i n ∈ log → n.toNat = base
  /-- This one is the first to be committed. -/
  first : ∀ i n, (commits tr).head? = some (i, n) → n.toNat = base

theorem minedCount_concat {base : Nat} {log : List AccountEvent} {ev : AccountEvent} :
    minedCount base (log ++ [ev]) = minedCount base log + if ev.isMined then 1 else 0 := by
  simp [minedCount, List.countP_append, List.countP_singleton, Nat.add_assoc]

section Alone

variable [DecidableEq κ] {setup : Setup κ} {base : Nat} {tr : List (Transition κ)}
  {s t : Service κ} {log : List AccountEvent} {account : Address} {chain : UInt64}
  {a : Action κ} {seen : List Observation} {i : OperationId} {tx : SignedTx} {n : Nonce}

/-- **A step of the service.** -/
theorem Alone.serve (hs : Alone base tr s log) (h : AccountHistory setup base tr s log)
    (hstep : s.step? setup a = some (t, seen)) (htold : ∀ ev ∈ reported? setup s a, ev ∈ log)
    (hbegin : a ≠ .begin .resetNonce) : Alone base (tr ++ [⟨s, a, seen, t⟩]) t log := by
  have hquiet : ∀ e ∈ tr ++ [⟨s, a, seen, t⟩], ¬ e.IsReset := by
    intro e he
    rcases List.mem_append.mp he with he | he
    · exact hs.quiet e he
    · obtain rfl := List.mem_singleton.mp he
      rintro ⟨i, rfl, hi⟩
      obtain ⟨st, hst, hf⟩ := (Option.any_eq_true _ _).mp (resets_resume_iff.mp ⟨i, rfl, hi⟩)
      rw [hs.settled i st hst] at hf
      contradiction
  refine ⟨hquiet, fun j st hst => ?_, hs.tooLow, hs.covered, fun hnone => ?_, fun i n hfirst => ?_⟩
  · cases hf : forgets st with
    | false => rfl
    | true =>
      rcases forgetsSource_of_step? hstep hst hf with hst | ha | ⟨e, tx, rfl, hlow, hb⟩
      · rw [hs.settled j st hst] at hf
        contradiction
      · exact absurd ha hbegin
      · exact absurd (htold (.tooLow j tx) (by simp [reported?, hlow, hb])) (hs.tooLow j tx)
  · rw [commits_concat] at hnone
    exact hs.quoted (List.append_eq_nil_iff.mp hnone).1
  · by_cases hnone : commits tr = []
    · obtain ⟨-, -, before, e, after, htr, -, ha, -⟩ :=
        History.nil.consecutive_commits (h.history.snoc hstep) (by simp) hquiet hfirst
      have htold := (h.serve hstep htold).quoted_of_told (e := e) (by simp [htr]) ha
      exact hs.quoted hnone i n htold
    · refine hs.first i n ?_
      rw [commits_concat, List.head?_append_of_ne_nil _ hnone] at hfirst
      exact hfirst

/-- **No nonce is too low**: those that are mined are nonces of broadcasts accepted before, and
there is no second broadcast with the same nonce. -/
theorem Alone.accepted_of_mined (hs : Alone base tr s log) (h : AccountHistory setup base tr s log)
    (hsigns : ∀ e ∈ tr, SignsFor setup account chain e) (hroom : Unexhausted tr)
    (hb : (i, tx) ∈ firstBroadcasts tr) (hlow : tx.tx.nonce.toNat < minedCount base log) :
    .accepted i tx ∈ log := by
  have hcommits {i : OperationId} {tx : SignedTx} (hb : (i, tx) ∈ firstBroadcasts tr) :
      (i, tx.tx.nonce) ∈ commits tr := (h.history.mem_commits_iff hsigns).mpr ⟨tx, hb, rfl⟩
  have hbase : base ≤ tx.tx.nonce.toNat := by
    have hmem := hcommits hb
    cases hfirst : (commits tr).head? with
    | none =>
      rw [List.head?_eq_none_iff.mp hfirst] at hmem
      contradiction
    | some first =>
      obtain ⟨k, m⟩ := first
      have hrange := History.nil.range_commits h.history (by simp) hs.quiet hroom hfirst
      have hnat : tx.tx.nonce.toNat ∈ (commits tr).map (·.2.toNat) :=
        List.mem_map.mpr ⟨_, hmem, rfl⟩
      rw [hrange, hs.first k m hfirst] at hnat
      exact (List.mem_range'_1.mp hnat).1
  obtain ⟨j, tx', haccepted, hn⟩ := hs.covered _ hbase hlow
  have hb' := h.broadcast_of_accepted haccepted
  have hsame := History.nil.commits_unique h.history (by simp) hs.quiet hroom (hcommits hb)
    (hcommits hb') (UInt64.toNat_inj.mp hn.symm)
  obtain rfl : i = j := (Prod.mk.inj hsame).1
  obtain rfl := h.history.firstBroadcasts_unique hsigns hb hb'
  exact haccepted

/-- Until a nonce is committed nothing is mined. -/
theorem AccountHistory.minedCount_of_commits (h : AccountHistory setup base tr s log)
    (hsigns : ∀ e ∈ tr, SignsFor setup account chain e) (hothers : .minedElsewhere ∉ log)
    (hnone : commits tr = []) : minedCount base log = base := by
  have hzero : log.countP AccountEvent.isMined = 0 := by
    refine List.countP_eq_zero.mpr fun ev hev hmined => ?_
    cases ev with
    | mined i tx =>
      have hb := h.broadcast_of_accepted (h.accepted_of_mined hev)
      have hmem := (h.history.mem_commits_iff hsigns).mpr ⟨tx, hb, rfl⟩
      rw [hnone] at hmem
      contradiction
    | minedElsewhere => exact hothers hev
    | quoted | accepted | tooLow => contradiction
  rw [minedCount, hzero, Nat.add_zero]

/-- **Something happens on the chain.** -/
theorem Alone.happen {ev : AccountEvent} (hs : Alone base tr s log)
    (h : AccountHistory setup base tr s log) (hmay : ev.May setup base tr s log)
    (hsigns : ∀ e ∈ tr, SignsFor setup account chain e) (hroom : Unexhausted tr)
    (hothers : .minedElsewhere ∉ log ++ [ev]) : Alone base tr s (log ++ [ev]) := by
  have hothers' : .minedElsewhere ∉ log := fun hmem => hothers (List.mem_append_left _ hmem)
  refine ⟨hs.quiet, hs.settled, fun i tx hmem => ?_, fun k hk hlt => ?_, fun hnone i n hmem => ?_,
    hs.first⟩
  · rcases List.mem_append.mp hmem with hmem | hmem
    · exact hs.tooLow i tx hmem
    · obtain rfl := List.mem_singleton.mp hmem
      obtain ⟨hb, hruled, hlow⟩ := hmay
      exact hruled (.inl (hs.accepted_of_mined h hsigns hroom hb hlow))
  · have hold (hlt : k < minedCount base log) :
        ∃ i tx, .accepted i tx ∈ log ++ [ev] ∧ tx.tx.nonce.toNat = k := by
      obtain ⟨i, tx, hmem, hn⟩ := hs.covered k hk hlt
      exact ⟨i, tx, List.mem_append_left _ hmem, hn⟩
    rw [minedCount_concat] at hlt
    cases ev with
    | mined i tx =>
      rcases Nat.lt_succ_iff_lt_or_eq.mp hlt with hlt | rfl
      · exact hold hlt
      · exact ⟨i, tx, List.mem_append_left _ hmay.1, hmay.2⟩
    | minedElsewhere => simp at hothers
    | quoted | accepted | tooLow => exact hold hlt
  · rcases List.mem_append.mp hmem with hmem | hmem
    · exact hs.quoted hnone i n hmem
    · obtain rfl := List.mem_singleton.mp hmem
      rw [hmay.2]
      exact h.minedCount_of_commits hsigns hothers' hnone

/-- **As long as nobody else uses the account and no caller resets the nonce** the service has its
account for itself. -/
theorem AccountHistory.alone (h : AccountHistory setup base tr s log)
    (hsigns : ∀ e ∈ tr, SignsFor setup account chain e) (hroom : Unexhausted tr)
    (hothers : .minedElsewhere ∉ log) (hbegin : ∀ e ∈ tr, e.action ≠ .begin .resetNonce) :
    Alone base tr s log := by
  induction h with
  | nil =>
    refine ⟨by simp, fun i st hst => by simp [start, stage?] at hst, by simp, fun k hk hlt => ?_,
      by simp, fun i n hfirst => by simp [commits] at hfirst⟩
    simp only [minedCount, List.countP_nil] at hlt
    omega
  | @serve tr s t log a seen h hstep htold ih =>
    have hroom' : Unexhausted tr := fun i n hmem => hroom i n (by simp [commits_append, hmem])
    have hs := ih (fun e he => hsigns e (List.mem_append_left _ he)) hroom' hothers
      fun e he => hbegin e (List.mem_append_left _ he)
    exact hs.serve h hstep htold (hbegin ⟨s, a, seen, t⟩ (by simp))
  | happen h hmay ih =>
    have hs := ih hsigns hroom (fun hmem => hothers (List.mem_append_left _ hmem)) hbegin
    exact hs.happen h hmay hsigns hroom hothers

/-- **A nonce is used twice exactly if it comes round again after a reset.** Let the service run on
a chain that answers with the number of transactions mined and finds a nonce too low exactly if it
is below that number; let the signer sign what it is given, and let the nonces not run out. Then:

* two operations get first broadcasts with the nonce `n` accepted if and only if the run has a part
  that begins right after a reset and holds no other, such that the nonce was broadcast and accepted
  before; what the chain answered in this part is not above `n`, and the nonces handed out in it
  reach `n`; and who broadcasts with `n` in it is accepted;
* as long as nobody else uses the account and no caller asks for a reset, no nonce is used twice,
  none is found too low, and there is no reset. -/
theorem AccountHistory.reused_iff_comesRound (h : AccountHistory setup base tr s log)
    (hsigns : ∀ e ∈ tr, SignsFor setup account chain e) (hroom : Unexhausted tr) :
    (∀ n, Reused log n ↔ ∃ pre mid post, tr = pre ++ mid ++ post ∧ ComesRound setup pre mid n ∧
      (∃ i tx, (i, tx) ∈ firstBroadcasts pre ∧ tx.tx.nonce = n ∧ .accepted i tx ∈ log) ∧
      ∀ i tx, (i, tx) ∈ firstBroadcasts mid → tx.tx.nonce = n → .accepted i tx ∈ log) ∧
    (.minedElsewhere ∉ log → (∀ e ∈ tr, e.action ≠ .begin .resetNonce) →
      (∀ n, ¬ Reused log n) ∧ (∀ i tx, .tooLow i tx ∉ log) ∧ ∀ e ∈ tr, ¬ e.IsReset) := by
  have hround : ∀ n, Reused log n ↔ ∃ pre mid post, tr = pre ++ mid ++ post ∧
      ComesRound setup pre mid n ∧
      (∃ i tx, (i, tx) ∈ firstBroadcasts pre ∧ tx.tx.nonce = n ∧ .accepted i tx ∈ log) ∧
      ∀ i tx, (i, tx) ∈ firstBroadcasts mid → tx.tx.nonce = n → .accepted i tx ∈ log := by
    intro n
    constructor
    · rintro ⟨i, j, tx, tx', hij, haccepted, haccepted', hn, hn'⟩
      exact h.comesRound_of_reused hsigns hroom hij haccepted haccepted' hn hn'
    · rintro ⟨pre, mid, post, rfl, hround, ⟨i, tx, hb, hn, haccepted⟩, hagain⟩
      exact h.reused_of_comesRound hsigns hroom hround hb hn haccepted hagain
  refine ⟨hround, fun hothers hbegin => ?_⟩
  have halone := h.alone hsigns hroom hothers hbegin
  refine ⟨fun n hreused => ?_, halone.tooLow, halone.quiet⟩
  obtain ⟨pre, mid, post, rfl, ⟨⟨e, he, hreset⟩, -, -⟩, -⟩ := (hround n).mp hreused
  have hmem := List.mem_of_getLast? he
  exact halone.quiet e (by simp [hmem]) hreset

end Alone

/-! ### Two runs -/

/-- An operation fetches the nonce and broadcasts with it. -/
def fetches (i : OperationId) (v : Amount) (n : Nonce) : List (Action Unit ⊕ AccountEvent) :=
  [.inl (.begin (.send (transfer v) {})), .inl (.resume i), .inr (.quoted i n),
    .inl (.reply (.operation i) (.nonce n)),
    .inl (.reply (.operation i) (.signed (signedTransfer v n)))]

/-- An operation takes the next nonce and broadcasts with it. -/
def follows (i : OperationId) (v : Amount) (n : Nonce) : List (Action Unit ⊕ AccountEvent) :=
  [.inl (.begin (.send (transfer v) {})), .inl (.resume i),
    .inl (.reply (.operation i) (.signed (signedTransfer v n)))]

/-- The broadcast of an operation is accepted. -/
def succeeds (i : OperationId) (v : Amount) (n : Nonce) : List (Action Unit ⊕ AccountEvent) :=
  [.inr (.accepted i (signedTransfer v n)), .inl (.reply (.operation i) (.accepted v))]

/-- An operation learns that its nonce is too low, and resets it. -/
def fails (i : OperationId) : List (Action Unit ⊕ AccountEvent) :=
  [.inl (.reply (.operation i) (.failed (.nonceTooLow ""))), .inl (.resume i)]

/-- A run without others: the first transaction is mined while the second is on its way. -/
def undisturbedRun : List (Action Unit ⊕ AccountEvent) :=
  fetches 0 100 0 ++ follows 1 101 1 ++ succeeds 0 100 0 ++ [.inr (.mined 0 (signedTransfer 100 0))]
    ++ succeeds 1 101 1 ++ follows 2 102 2 ++ succeeds 2 102 2

/-- In the run without others no nonce is used twice. -/
theorem reused_iff_comesRound_undisturbedRun :
    ∃ tr s log, AccountHistory sampleSetup 0 tr s log ∧
      commits tr = [(0, 0), (1, 1), (2, 2)] ∧ ∀ n, ¬ Reused log n := by
  have hrun : (accountRun? sampleSetup 0 undisturbedRun).map (fun r => (commits r.1,
      decide (Unexhausted r.1 ∧ .minedElsewhere ∉ r.2.2 ∧
        ∀ e ∈ r.1, SignsFor sampleSetup 7 0 e ∧ e.action ≠ .begin .resetNonce))) =
      some ([(0, 0), (1, 1), (2, 2)], true) := by
    decide
  obtain ⟨tr, s, log, h, hb⟩ := exists_accountHistory hrun
  obtain ⟨hcommits, hall⟩ := Prod.mk.inj hb
  obtain ⟨hroom, hothers, hall⟩ := of_decide_eq_true hall
  have hreused := h.reused_iff_comesRound (fun e he => (hall e he).1) hroom
  exact ⟨tr, s, log, h, hcommits, (hreused.2 hothers fun e he => (hall e he).2).1⟩

/-- **A late reset**: the nonces of two sends are found too low, as others have used them. One of
the two learns of it and resets the nonce, a third send fetches the next nonce anew and is accepted,
and only then the other one learns of it and resets the nonce again. Until something is mined the
chain gives the same nonce to a fourth send. -/
def lateResetRun : List (Action Unit ⊕ AccountEvent) :=
  fetches 0 100 0 ++ follows 1 101 1
    ++ [.inr .minedElsewhere, .inr .minedElsewhere, .inr (.tooLow 0 (signedTransfer 100 0)),
      .inr (.tooLow 1 (signedTransfer 101 1))]
    ++ fails 0 ++ fetches 2 102 2 ++ succeeds 2 102 2
    ++ fails 1 ++ fetches 3 103 2 ++ succeeds 3 103 2

/-- Whether callers begin sends only. -/
def beginsSend : Action κ → Bool
  | .begin r => r.broadcast?.isSome
  | _ => true

/-- **A nonce is used twice** after a late reset, though callers only send: two different
transactions with the nonce 2 are accepted. -/
theorem nonce_reused_lateResetRun :
    ∃ tr s log, AccountHistory sampleSetup 0 tr s log ∧
      (∀ e ∈ tr, SignsFor sampleSetup 7 0 e ∧ beginsSend e.action = true) ∧ Unexhausted tr ∧
      .accepted 2 (signedTransfer 102 2) ∈ log ∧ .accepted 3 (signedTransfer 103 2) ∈ log ∧
      signedTransfer 102 2 ≠ signedTransfer 103 2 ∧ Reused log 2 := by
  have hrun : (accountRun? sampleSetup 0 lateResetRun).map (fun r =>
      decide ((∀ e ∈ r.1, SignsFor sampleSetup 7 0 e ∧ beginsSend e.action = true) ∧
        Unexhausted r.1 ∧ .accepted 2 (signedTransfer 102 2) ∈ r.2.2 ∧
        .accepted 3 (signedTransfer 103 2) ∈ r.2.2)) = some true := by
    decide
  obtain ⟨tr, s, log, h, hall⟩ := exists_accountHistory hrun
  obtain ⟨hall, hroom, hfirst, hsecond⟩ := of_decide_eq_true hall
  exact ⟨tr, s, log, h, hall, hroom, hfirst, hsecond, by decide,
    ⟨2, 3, _, _, by decide, hfirst, hsecond, rfl, rfl⟩⟩

end Service

end TxDelivery
