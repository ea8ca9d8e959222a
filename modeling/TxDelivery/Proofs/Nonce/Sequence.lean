import Mathlib.Algebra.Group.Nat.Defs
import TxDelivery.Proofs.Delivery.Life
import TxDelivery.Proofs.Nonce.Guard

/-!
# The sequence of nonces

The nonces that are committed in a run (`TxDelivery.Service.commits`), cut at the resets. **Between
two resets they are consecutive**, and the first of them is what the chain answered to the
submission that committed it (`TxDelivery.Service.Numbered`).

A nonce is committed when the signature with it is there, not when it is taken. Of those who have
taken one some never come so far: the chain does not answer, the signer fails, a caller drops the
send. They leave no gap, for the next one who has the lock takes the same nonce. This is what makes
commitments, and not the nonces asked for or signed with, the sequence to look at.

## The invariant

It looks at the run since the last reset. As long as nothing is committed the nonce is unknown, and
whoever is signed with a nonce got it from the chain since then
(`TxDelivery.Service.Numbered.step_of_nothing`); once something is committed the last nonce is
known, and the next one is one more (`TxDelivery.Service.Numbered.step_of_counting`). The lock comes
in at two points. A signature commits the nonce after the last because it was computed from the
last, which nobody has changed since; and at a reset nobody is at work on the nonce, so that a part
of a run begins with nothing known and nobody about to commit
(`TxDelivery.Service.fresh_of_resets`).

Nonces are words, and one more than the largest is zero. Consecutive is therefore said of words
first (`TxDelivery.Service.consecutive`), without a condition, and of numbers if there is room for
them (`TxDelivery.Service.toNat_consecutive`).

`TxDelivery.Service.History.nonces_in_sequence` has this beside what else is to be known of a
commitment: that it was signed for with that nonce and is broadcast, that a send which fails before
its signature commits nothing, before or after, and that supervisors neither ask for nonces nor
commit any.
-/

namespace TxDelivery

variable {κ : Type}

namespace Service

/-- **The nonce that a step commits**, with the operation it is committed for. -/
def Transition.commit? (e : Transition κ) : Option (OperationId × Nonce) :=
  match e.action with
  | .reply (.operation i) (.signed _) =>
    match e.before.stage? i with
    | some (.submitting sub) =>
      match sub.stage with
      | .signing n => some (i, n)
      | _ => none
    | _ => none
  | _ => none

/-- **The nonces committed in a run**, in order. -/
def commits (tr : List (Transition κ)) : List (OperationId × Nonce) :=
  tr.filterMap Transition.commit?

/-- Whether a step resets the nonce. -/
def Transition.IsReset (e : Transition κ) : Prop := e.before.Resets e.action

/-- The `k` nonces from `m` on. -/
def consecutive (m : Nonce) (k : Nat) : List Nonce :=
  (List.range k).map fun j => m + UInt64.ofNat j

/-- An operation asked the chain for the nonce. -/
def Asked (setup : Setup κ) (tr : List (Transition κ)) (i : OperationId) : Prop :=
  ∃ before e after, tr = before ++ e :: after ∧
    .called (.operation i) (.nonce setup.address) ∈ e.seen

/-- An operation asked the chain for the nonce and got an answer, before any nonce was committed. -/
def Fetched (setup : Setup κ) (tr : List (Transition κ)) (i : OperationId) (n : Nonce) : Prop :=
  ∃ before e after, tr = before ++ e :: after ∧ Asked setup before i ∧
    e.action = .reply (.operation i) (.nonce n) ∧ commits (before ++ [e]) = []

theorem commits_append {tr tr' : List (Transition κ)} :
    commits (tr ++ tr') = commits tr ++ commits tr' :=
  List.filterMap_append

/-- What is committed is committed by a signature. -/
theorem commit?_eq_some_iff {e : Transition κ} {i : OperationId} {n : Nonce} :
    e.commit? = some (i, n) ↔ e.before.Commits e.action i n := by
  constructor
  · intro h
    unfold Transition.commit? at h
    split at h
    case h_1 j signed ha =>
      split at h
      case h_1 sub hst =>
        split at h
        case h_1 n' hs =>
          obtain ⟨rfl, rfl⟩ : j = i ∧ n' = n := by simpa using h
          exact ⟨⟨signed, ha⟩, sub, hst, hs⟩
        case h_2 => contradiction
      case h_2 => contradiction
    case h_2 => contradiction
  · rintro ⟨⟨signed, ha⟩, sub, hst, hs⟩
    simp only [Transition.commit?, ha, hst, hs]

theorem commit?_eq_none {e : Transition κ} (h : ∀ i n, ¬ e.before.Commits e.action i n) :
    e.commit? = none := by
  cases hc : e.commit? with
  | none => rfl
  | some c => exact absurd (commit?_eq_some_iff.mp hc) (h c.1 c.2)

theorem consecutive_succ (m : Nonce) (k : Nat) :
    consecutive m (k + 1) = consecutive m k ++ [m + UInt64.ofNat k] := by
  simp [consecutive, List.range_succ]

/-- Without an overflow the nonces are consecutive as numbers. -/
theorem toNat_consecutive {m : Nonce} {k : Nat} (h : m.toNat + k ≤ 2 ^ 64) :
    (consecutive m k).map UInt64.toNat = List.range' m.toNat k := by
  rw [List.range'_eq_map_range, consecutive, List.map_map]
  refine List.map_congr_left fun j hj => ?_
  have hlt := List.mem_range.mp hj
  simp only [Function.comp_apply, UInt64.toNat_add, UInt64.toNat_ofNat']
  rw [Nat.mod_eq_of_lt (a := j) (by omega), Nat.mod_eq_of_lt (by omega)]

/-- What was asked was asked. -/
theorem Asked.append {setup : Setup κ} {tr tr' : List (Transition κ)} {i : OperationId}
    (h : Asked setup tr i) : Asked setup (tr ++ tr') i := by
  obtain ⟨before, e, after, rfl, hseen⟩ := h
  exact ⟨before, e, after ++ tr', by simp, hseen⟩

theorem Fetched.append {setup : Setup κ} {tr tr' : List (Transition κ)} {i : OperationId}
    {n : Nonce} (h : Fetched setup tr i n) : Fetched setup (tr ++ tr') i n := by
  obtain ⟨before, e, after, rfl, hrest⟩ := h
  exact ⟨before, e, after ++ tr', by simp, hrest⟩

/-- Nothing is known of the nonce, and nobody is at work on it. -/
structure Fresh (s : Service κ) : Prop where
  /-- The nonce is unknown. -/
  nonce : s.nonce = .unknown
  /-- Nobody asks for it or is signed with it. -/
  idle : ∀ i sub, s.stage? i = some (.submitting sub) → sub.stage.holdsNonce = false

/-- **The nonces committed since the last reset.** -/
inductive Numbered (setup : Setup κ) (tr : List (Transition κ)) (s : Service κ) : Prop where
  /-- There are none yet. -/
  | nothing (hcommits : commits tr = []) (hnonce : s.nonce = .unknown)
      (hasked : ∀ i sub, s.stage? i = some (.submitting sub) → sub.stage = .fetching →
        Asked setup tr i)
      (hfetched : ∀ i sub n, s.stage? i = some (.submitting sub) → sub.stage = .signing n →
        Fetched setup tr i n)
  /-- There are some: they are consecutive, and the first was fetched. -/
  | counting {i : OperationId} {m : Nonce} {k : Nat}
      (hcommits : (commits tr).map (·.2) = consecutive m (k + 1))
      (hfirst : (commits tr).head? = some (i, m)) (hfetched : Fetched setup tr i m)
      (hnonce : s.nonce = .known (m + UInt64.ofNat k))

variable [DecidableEq κ] {setup : Setup κ} {s t : Service κ} {tr : List (Transition κ)}
  {a : Action κ} {seen : List Observation}

omit [DecidableEq κ] in
theorem commits_concat (e : Transition κ) :
    commits (tr ++ [e]) = commits tr ++ e.commit?.toList := by
  rw [commits_append]
  cases h : e.commit? <;> simp [commits, h]

omit [DecidableEq κ] in
/-- A step that commits nothing and changes nothing about the nonce, once counting has begun. -/
theorem Numbered.of_counting {e : Transition κ} {i : OperationId} {m : Nonce} {k : Nat}
    (hcommits : (commits tr).map (·.2) = consecutive m (k + 1))
    (hfirst : (commits tr).head? = some (i, m)) (hfetched : Fetched setup tr i m)
    (hnonce : t.nonce = .known (m + UInt64.ofNat k)) (hnone : e.commit? = none) :
    Numbered setup (tr ++ [e]) t := by
  have hsame : commits (tr ++ [e]) = commits tr := by
    rw [commits_concat, hnone, Option.toList_none, List.append_nil]
  exact .counting (hsame ▸ hcommits) (hsame ▸ hfirst) hfetched.append hnonce

omit [DecidableEq κ] in
/-- Nothing but a signature commits a nonce. -/
theorem not_commits_of_action {b : Action κ} (ha : a = b)
    (hb : ∀ i signed, b ≠ .reply (.operation i) (.signed signed)) (i : OperationId) (n : Nonce) :
    ¬ s.Commits a i n := by
  rintro ⟨⟨signed, ha'⟩, -⟩
  exact hb i signed (ha ▸ ha')

/-- **Until the first nonce is committed** it is fetched, and then signed with. -/
theorem Numbered.step_of_nothing (h : s.step? setup a = some (t, seen)) (hreset : ¬ s.Resets a)
    (hcommits : commits tr = []) (hnonce : s.nonce = .unknown)
    (hasked : ∀ i sub, s.stage? i = some (.submitting sub) → sub.stage = .fetching →
      Asked setup tr i)
    (hfetched : ∀ i sub n, s.stage? i = some (.submitting sub) → sub.stage = .signing n →
      Fetched setup tr i n) : Numbered setup (tr ++ [⟨s, a, seen, t⟩]) t := by
  have hsame (hcommit : ∀ i n, ¬ s.Commits a i n) : commits (tr ++ [⟨s, a, seen, t⟩]) = [] := by
    rw [commits_concat, hcommits, commit?_eq_none hcommit]
    rfl
  -- Of the submission that goes on the stage afterwards is known, of the others that it stays.
  have hgone {i : OperationId} {sub sub' : Submission κ}
      (ht : t.stage? i = some (.submitting sub)) (ht' : t.stage? i = some (.submitting sub')) :
      sub = sub' := Operation.Stage.submitting.inj (Option.some.inj (ht.symm.trans ht'))
  cases nonceMove_of_step? h with
  | still hn hcommit _ _ hold =>
    refine .nothing (hsame hcommit) (hn.trans hnonce) (fun i sub hst hstage => ?_)
      fun i sub n hst hstage => ?_
    · exact (hasked i sub (hold i sub hst (by rw [hstage]; rfl)).1 hstage).append
    · exact (hfetched i sub n (hold i sub hst (by rw [hstage]; rfl)).1 hstage).append
  | @fetch i sub ha _ _ _ _ hn _ hseen ht hothers =>
    refine .nothing (hsame (not_commits_of_action ha (by simp))) (hn.trans hnonce)
      (fun j sub' hst hstage => ?_) fun j sub' n hst hstage => ?_
    · by_cases hij : i = j
      · subst hij
        exact ⟨tr, _, [], rfl, by simp [hseen]⟩
      · exact (hasked j sub' ((hothers j hij).symm.trans hst) hstage).append
    · by_cases hij : i = j
      · subst hij
        obtain rfl := hgone ht hst
        contradiction
      · exact (hfetched j sub' n ((hothers j hij).symm.trans hst) hstage).append
  | take _ _ _ _ hknown =>
    rw [hnonce] at hknown
    contradiction
  | @answered i sub n ha hst hstage hn _ _ ht hothers =>
    have hcommit := not_commits_of_action (s := s) ha (by simp)
    refine .nothing (hsame hcommit) (hn.trans hnonce) (fun j sub' hst' hstage' => ?_)
      fun j sub' n' hst' hstage' => ?_
    · by_cases hij : i = j
      · subst hij
        obtain rfl := hgone ht hst'
        contradiction
      · exact (hasked j sub' ((hothers j hij).symm.trans hst') hstage').append
    · by_cases hij : i = j
      · subst hij
        obtain rfl := hgone ht hst'
        obtain rfl : n = n' := by simpa using hstage'
        exact ⟨tr, _, [], rfl, hasked i sub hst hstage, ha, hsame hcommit⟩
      · exact (hfetched j sub' n' ((hothers j hij).symm.trans hst') hstage').append
  | @commit i sub n signed ha hst hstage hn _ ht hothers =>
    have hcommit : Transition.commit? ⟨s, a, seen, t⟩ = some (i, n) :=
      commit?_eq_some_iff.mpr ⟨⟨signed, ha⟩, sub, hst, hstage⟩
    have hlist : commits (tr ++ [⟨s, a, seen, t⟩]) = [(i, n)] := by
      rw [commits_concat, hcommits, hcommit]
      rfl
    refine .counting (k := 0) (m := n) (i := i) ?_ ?_ (hfetched i sub n hst hstage).append ?_
    · simp [hlist, consecutive]
    · rw [hlist]
      rfl
    · simpa using hn
  | reset hreset' => exact absurd hreset' hreset

/-- **Once a nonce is committed** the next one is the one after it. -/
theorem Numbered.step_of_counting (hs : s.NonceGuarded) (h : s.step? setup a = some (t, seen))
    (hreset : ¬ s.Resets a) {i₀ : OperationId} {m : Nonce} {k : Nat}
    (hcommits : (commits tr).map (·.2) = consecutive m (k + 1))
    (hfirst : (commits tr).head? = some (i₀, m)) (hfetched : Fetched setup tr i₀ m)
    (hnonce : s.nonce = .known (m + UInt64.ofNat k)) :
    Numbered setup (tr ++ [⟨s, a, seen, t⟩]) t := by
  cases nonceMove_of_step? h with
  | still hn hcommit =>
    exact .of_counting hcommits hfirst hfetched (hn.trans hnonce) (commit?_eq_none hcommit)
  | fetch ha _ _ _ _ hn | take ha _ _ _ _ hn | answered ha _ _ hn =>
    exact .of_counting hcommits hfirst hfetched (hn.trans hnonce)
      (commit?_eq_none (not_commits_of_action ha (by simp)))
  | @commit i sub n signed ha hst hstage hn _ ht hothers =>
    have hcommit : Transition.commit? ⟨s, a, seen, t⟩ = some (i, n) :=
      commit?_eq_some_iff.mpr ⟨⟨signed, ha⟩, sub, hst, hstage⟩
    -- Whoever is signed for took its nonce from the last one, which is known.
    have hnext : n = m + UInt64.ofNat (k + 1) := by
      have hguard := hs.guard i sub hst
      rw [hstage] at hguard
      rcases hguard.2 with hunknown | ⟨last, hlast, hn'⟩
      · rw [hnonce] at hunknown
        contradiction
      · rw [hnonce] at hlast
        obtain rfl : m + UInt64.ofNat k = last := by simpa using hlast
        rw [hn', UInt64.ofNat_add, UInt64.add_assoc]
        rfl
    have hlist : commits (tr ++ [⟨s, a, seen, t⟩]) = commits tr ++ [(i, n)] := by
      rw [commits_concat, hcommit]
      rfl
    refine .counting (k := k + 1) (m := m) (i := i₀) ?_ ?_ hfetched.append ?_
    · rw [hlist, List.map_append, hcommits, consecutive_succ m (k + 1), hnext]
      rfl
    · rw [hlist, List.head?_append, hfirst]
      rfl
    · rw [hn, hnext]
  | reset hreset' => exact absurd hreset' hreset

/-- **The nonces stay consecutive** in a step that is no reset. -/
theorem Numbered.step (hs : s.NonceGuarded) (hnum : Numbered setup tr s)
    (h : s.step? setup a = some (t, seen)) (hreset : ¬ s.Resets a) :
    Numbered setup (tr ++ [⟨s, a, seen, t⟩]) t := by
  cases hnum with
  | nothing hcommits hnonce hasked hfetched =>
    exact .step_of_nothing h hreset hcommits hnonce hasked hfetched
  | counting hcommits hfirst hfetched hnonce =>
    exact .step_of_counting hs h hreset hcommits hfirst hfetched hnonce

/-! ### From one reset to the next -/

omit [DecidableEq κ] in
theorem fresh_start : (start : Service κ).Fresh :=
  ⟨rfl, fun i sub hst => by simp [start, stage?] at hst⟩

/-- **A reset makes everything fresh**: the operation that resets has the lock, so that nobody else
is at work on the nonce. -/
theorem fresh_of_resets (hs : s.NonceGuarded) (h : s.step? setup a = some (t, seen))
    (hreset : s.Resets a) : t.Fresh := by
  cases nonceMove_of_step? h with
  | still _ _ hnever => exact absurd hreset hnever
  | @reset i _ _ hheld hn _ ht hothers =>
    obtain ⟨answer, ht⟩ := ht
    refine ⟨hn, fun j sub hj => ?_⟩
    refine hs.idle_of_owner (hs.ownedBy_of_heldBy hheld) (fun sub' hsub' => ?_) hothers hj
    simp [ht] at hsub'
  | fetch ha hst hs' | take ha hst hs' =>
    obtain ⟨j, ha', hj⟩ := hreset
    obtain rfl : _ = j := by simpa using ha.symm.trans ha'
    rcases hj with hj | ⟨sub, e, hj, hstage⟩
    · exact absurd (hst.symm.trans hj) (by simp)
    · obtain rfl := Operation.Stage.submitting.inj (Option.some.inj (hst.symm.trans hj))
      rw [hs'] at hstage
      contradiction
  | answered ha | commit ha =>
    obtain ⟨j, ha', -⟩ := hreset
    rw [ha] at ha'
    contradiction

/-- **Since the last reset** the nonces are consecutive. -/
theorem History.numbered (h : History setup s tr t) (hs : s.NonceGuarded) (hfresh : s.Fresh)
    (hresets : ∀ e ∈ tr, ¬ e.IsReset) : Numbered setup tr t ∧ t.NonceGuarded := by
  induction h with
  | nil =>
    refine ⟨.nothing rfl hfresh.nonce (fun i sub hst hstage => ?_) fun i sub n hst hstage => ?_, hs⟩
    · have hidle := hfresh.idle i sub hst
      rw [hstage] at hidle
      contradiction
    · have hidle := hfresh.idle i sub hst
      rw [hstage] at hidle
      contradiction
  | snoc h hstep ih =>
    obtain ⟨hnum, hguarded⟩ := ih fun e he => hresets e (List.mem_append_left _ he)
    have hlast := hresets _ (List.mem_append_right _ (List.mem_singleton_self _))
    exact ⟨hnum.step hguarded hstep hlast, hguarded.step hstep⟩

/-! ### Submissions that fail -/

/-- Whether an operation is past its signature: it was signed for, or it is over. -/
def pastSignature : Operation.Stage κ → Bool
  | .submitting sub => sub.stage.isSigned
  | .supervising _ | .ended _ | .dropped => true
  | .entering | .estimating | .replacing _ | .resetting => false

/-- What is past its signature stays so. -/
theorem pastSignature_of_step? (hs : s.Owned) (h : s.step? setup a = some (t, seen))
    {i : OperationId} {st : Operation.Stage κ} (hst : s.stage? i = some st)
    (hpast : pastSignature st = true) :
    ∃ st', t.stage? i = some st' ∧ pastSignature st' = true := by
  cases st with
  | submitting sub =>
    cases hs.submissionMove h hst with
    | submitting ht _ _ hsigned => exact ⟨_, ht, hsigned hpast⟩
    | failed ht | dropped ht | sent _ ht | waits _ ht | enqueued _ ht => exact ⟨_, ht, rfl⟩
  | supervising d =>
    cases operationMove_of_step? h (j := i) with
    | still ht => exact ⟨_, ht.trans hst, rfl⟩
    | begun hj =>
      rw [hj, stage?_length] at hst
      contradiction
    | moved _ hst' hactive =>
      obtain rfl := Option.some.inj (hst'.symm.trans hst)
      contradiction
    | waits _ hst' => exact absurd (hst'.symm.trans hst) (by simp)
    | delivered _ _ _ _ ht => exact ⟨_, by rw [ht, hst]; rfl, rfl⟩
    | dropped _ _ _ _ ht => exact ⟨_, ht, rfl⟩
  | ended answer => exact ⟨_, stage?_of_ended hs h hst rfl (by simp), rfl⟩
  | dropped => exact ⟨_, stage?_of_ended hs h hst rfl (by simp), rfl⟩
  | entering | estimating | replacing | resetting => contradiction

/-- A step that commits a nonce, seen from the operation it is committed for. -/
theorem broadcasting_of_commits {i : OperationId} {n : Nonce}
    (h : s.step? setup a = some (t, seen)) (hcommit : s.Commits a i n) :
    t.nonce = .known n ∧ ∃ sub signed deadline, t.stage? i = some (.submitting sub) ∧
      sub.stage = .broadcasting signed deadline ∧ a = .reply (.operation i) (.signed signed) ∧
      seen = [.called (.operation i) (.broadcast signed)] := by
  cases nonceMove_of_step? h with
  | still _ hnever => exact absurd hcommit (hnever i n)
  | fetch ha | take ha | answered ha | reset _ ha =>
    obtain ⟨⟨signed, ha'⟩, -⟩ := hcommit
    rw [ha] at ha'
    simp at ha'
  | @commit j sub n' signed ha hst hs hn hseen ht =>
    obtain ⟨⟨signed', ha'⟩, sub', hst', hs'⟩ := hcommit
    obtain ⟨rfl, rfl⟩ : j = i ∧ signed = signed' := by simpa using ha.symm.trans ha'
    obtain rfl := Operation.Stage.submitting.inj (Option.some.inj (hst.symm.trans hst'))
    obtain rfl : n' = n := by simpa using hs.symm.trans hs'
    obtain ⟨deadline, ht⟩ := ht
    exact ⟨hn, _, signed, deadline, ht, rfl, ha, hseen⟩

/-- **For whom a nonce was committed** is past the signature. -/
theorem History.pastSignature_of_commits (h : History setup .start tr s) {i : OperationId}
    {n : Nonce} (hmem : (i, n) ∈ commits tr) :
    ∃ st, s.stage? i = some st ∧ pastSignature st = true := by
  induction h with
  | nil => exact absurd hmem List.not_mem_nil
  | @snoc tr t u a seen h hstep ih =>
    rw [commits_concat] at hmem
    rcases List.mem_append.mp hmem with hmem | hmem
    · obtain ⟨st, hst, hpast⟩ := ih hmem
      exact pastSignature_of_step? h.owned hstep hst hpast
    · have hcommit := commit?_eq_some_iff.mp (Option.mem_toList.mp hmem)
      obtain ⟨-, sub, signed, deadline, ht, hstage, -⟩ := broadcasting_of_commits hstep hcommit
      exact ⟨_, ht, by rw [pastSignature, hstage]; rfl⟩

/-- An operation that is over commits nothing any more. -/
theorem History.not_mem_commits (h : History setup s tr t) (hs : s.Owned) {i : OperationId}
    {st : Operation.Stage κ} (hst : s.stage? i = some st) (hactive : st.isActive = false)
    (hwait : ∀ d, st ≠ .supervising d) (n : Nonce) : (i, n) ∉ commits tr := by
  intro hmem
  obtain ⟨e, he, hcommit⟩ := List.mem_filterMap.mp hmem
  obtain ⟨-, sub, hsub, -⟩ := commit?_eq_some_iff.mp hcommit
  obtain ⟨-, hkept⟩ := h.stage?_eq_of_ended hs hst hactive hwait
  obtain rfl := Option.some.inj ((hkept e he).symm.trans hsub)
  contradiction

/-- Whether a step ends a send: its caller drops it, or a call it made fails. -/
def Transition.Fails (e : Transition κ) (i : OperationId) : Prop :=
  e.action = .drop i ∨ ∃ err, e.action = .reply (.operation i) (.failed err)

/-- A send that fails before its signature is over. -/
theorem over_of_fails {i : OperationId} {st : Operation.Stage κ}
    (h : s.step? setup a = some (t, seen))
    (hfails : a = .drop i ∨ ∃ err, a = .reply (.operation i) (.failed err))
    (hst : s.stage? i = some st) (hsend : st = .entering ∨ ∃ sub, st = .submitting sub)
    (hpast : pastSignature st = false) :
    ∃ st', t.stage? i = some st' ∧ st'.isActive = false ∧ ∀ d, st' ≠ .supervising d := by
  have hsame {i' : OperationId} {st' : Operation.Stage κ} (hst' : s.stage? i' = some st')
      (hi : i' = i) : st' = st := by
    subst hi
    exact Option.some.inj (hst'.symm.trans hst)
  rcases hfails with rfl | ⟨err, rfl⟩
  · have hdrop : OperationStep setup s (.drop i) (t, seen) := operationStep_of_drop? h
    cases hdrop with
    | drop => exact ⟨.dropped, stage?_put_self rfl hst, rfl, by simp⟩
    | dropWaiting => exact ⟨.dropped, stage?_put_self rfl hst, rfl, by simp⟩
    | refuse _ _ href | refuseQueued _ _ href => cases href
  · cases operationStep_of_replyOperation? h with
    | refuse hst' _ href | refuseQueued hst' _ href =>
      cases href <;> exact ⟨_, stage?_put_self rfl hst', rfl, by simp⟩
    | tooLow hst' hs =>
      rw [← hsame hst' rfl, pastSignature, hs] at hpast
      contradiction
    | answer hst' hs =>
      have heq := hsame hst' rfl
      rcases hsend with rfl | ⟨sub, rfl⟩ <;> simp [heq] at hs
    | escalate hst' =>
      have heq := hsame hst' rfl
      rcases hsend with rfl | ⟨sub, rfl⟩ <;> simp at heq

/-- A part of a run that begins at the start or right after a reset begins fresh. -/
theorem History.fresh (h : History setup .start tr s)
    (hlast : ∀ e, tr.getLast? = some e → e.IsReset) : s.Fresh := by
  cases h with
  | nil => exact fresh_start
  | snoc h hstep =>
    have hreset := hlast _ List.getLast?_concat
    exact fresh_of_resets h.nonceGuarded hstep hreset

/-- What is known of the nonce changes with a commitment or a reset only. -/
theorem nonce_of_step? {e : Transition κ}
    (h : e.before.step? setup e.action = some (e.after, e.seen)) (hcommit : e.commit? = none)
    (hreset : ¬ e.IsReset) : e.after.nonce = e.before.nonce := by
  cases nonceMove_of_step? h with
  | still hn | fetch _ _ _ _ _ hn | take _ _ _ _ _ hn | answered _ _ _ hn => exact hn
  | @commit i sub n signed ha hst hs =>
    have hsome := commit?_eq_some_iff.mpr ⟨⟨signed, ha⟩, sub, hst, hs⟩
    exact absurd (hcommit.symm.trans hsome) (by simp)
  | reset hreset' => exact absurd hreset' hreset

omit [DecidableEq κ] in
/-- What is neither a signature nor a lock commits nothing and resets nothing. -/
theorem no_commit_of_action {e : Transition κ}
    (hsigned : ∀ i signed, e.action ≠ .reply (.operation i) (.signed signed))
    (hresume : ∀ i, e.action ≠ .resume i) : e.commit? = none ∧ ¬ e.IsReset := by
  constructor
  · refine commit?_eq_none ?_
    rintro i n ⟨⟨signed, ha⟩, -⟩
    exact hsigned i signed ha
  · rintro ⟨i, ha, -⟩
    exact hresume i ha

omit [DecidableEq κ] in
/-- A step that ends a send commits nothing and resets nothing. -/
theorem Transition.Fails.quiet {e : Transition κ} {i : OperationId} (h : e.Fails i) :
    e.commit? = none ∧ ¬ e.IsReset := by
  refine no_commit_of_action (fun j signed ha => ?_) fun j ha => ?_
  · rcases h with h | ⟨err, h⟩ <;> simp [h] at ha
  · rcases h with h | ⟨err, h⟩ <;> simp [h] at ha

/-- **A send that fails before its signature** commits nothing, before or after. -/
theorem History.not_mem_commits_of_fails {pre post : List (Transition κ)} {e : Transition κ}
    (h : History setup .start (pre ++ e :: post) s) {i : OperationId} {st : Operation.Stage κ}
    (hfails : e.Fails i) (hst : e.before.stage? i = some st)
    (hsend : st = .entering ∨ ∃ sub, st = .submitting sub) (hpast : pastSignature st = false)
    (n : Nonce) : (i, n) ∉ commits (pre ++ e :: post) := by
  obtain ⟨hpre, hstep, hpost⟩ := h.around
  have hnone : e.commit? = none := hfails.quiet.1
  obtain ⟨st', hst', hactive, hwait⟩ := over_of_fails hstep hfails hst hsend hpast
  have hsplit : commits (pre ++ e :: post) = commits pre ++ commits post := by
    have happend : pre ++ e :: post = (pre ++ [e]) ++ post := by simp
    rw [happend, commits_append, commits_concat, hnone, Option.toList_none, List.append_nil]
  rw [hsplit]
  intro hmem
  rcases List.mem_append.mp hmem with hmem | hmem
  · obtain ⟨st₀, hst₀, hpast₀⟩ := hpre.pastSignature_of_commits hmem
    obtain rfl := Option.some.inj (hst₀.symm.trans hst)
    rw [hpast] at hpast₀
    contradiction
  · exact hpost.not_mem_commits (hpre.owned.step hstep) hst' hactive hwait n hmem

/-- **In a part of a run without a reset**, which begins at the start or right after one, the nonces
committed are consecutive, and the first was fetched. -/
theorem History.consecutive_commits {pre mid : List (Transition κ)} (h : History setup .start pre t)
    (hmid : History setup t mid s) (hpre : ∀ e, pre.getLast? = some e → e.IsReset)
    (hresets : ∀ e ∈ mid, ¬ e.IsReset) {i : OperationId} {m : Nonce}
    (hfirst : (commits mid).head? = some (i, m)) :
    (commits mid).map (·.2) = consecutive m (commits mid).length ∧
      (m.toNat + (commits mid).length ≤ 2 ^ 64 →
        (commits mid).map (·.2.toNat) = List.range' m.toNat (commits mid).length) ∧
      Fetched setup mid i m := by
  obtain ⟨hnum, -⟩ := hmid.numbered h.nonceGuarded (h.fresh hpre) hresets
  cases hnum with
  | nothing hcommits =>
    rw [hcommits] at hfirst
    contradiction
  | @counting i' m' k hcommits hfirst' hfetched =>
    obtain ⟨rfl, rfl⟩ : i' = i ∧ m' = m := by simpa using hfirst'.symm.trans hfirst
    have hlen : (commits mid).length = k + 1 := by
      simpa [consecutive] using congrArg List.length hcommits
    rw [hlen]
    refine ⟨hcommits, fun hlt => ?_, hfetched⟩
    rw [← toNat_consecutive hlt, ← hcommits, List.map_map]
    rfl

/-- **Who asks for the nonce** is a submission that has the nonce lock, while it is unknown. -/
theorem fetches_of_asked {party : Party} {account : Address}
    (h : s.step? setup a = some (t, seen)) (hmem : .called party (.nonce account) ∈ seen) :
    ∃ i sub, party = .operation i ∧ s.stage? i = some (.submitting sub) ∧ sub.stage = .queued ∧
      s.nonceLock.heldBy i = true ∧ s.nonce = .unknown := by
  cases nonceMove_of_step? h with
  | still _ _ _ hnever => exact absurd hmem (hnever party account)
  | @fetch i sub _ hst hs hheld hnonce _ _ hseen =>
    obtain ⟨rfl, -⟩ : party = .operation i ∧ account = setup.address := by simpa [hseen] using hmem
    exact ⟨i, sub, rfl, hst, hs, hheld, hnonce⟩
  | take _ _ _ _ _ _ _ hseen | answered _ _ _ _ _ hseen | commit _ _ _ _ hseen
  | reset _ _ _ _ hseen => simp [hseen] at hmem

/-- **What is committed** was signed for with this nonce, and is broadcast. -/
theorem signed_of_commits {i : OperationId} {n : Nonce} (h : s.step? setup a = some (t, seen))
    (hcommit : s.Commits a i n) : t.nonce = .known n ∧
      ∃ tx signed, s.pending? setup (.operation i) = some (.sign tx) ∧ tx.nonce = n ∧
        a = .reply (.operation i) (.signed signed) ∧
        seen = [.called (.operation i) (.broadcast signed)] := by
  obtain ⟨-, sub, hst, hs⟩ := id hcommit
  obtain ⟨hn, -, signed, -, -, -, ha, hseen⟩ := broadcasting_of_commits h hcommit
  exact ⟨hn, { sub.tx with nonce := n }, signed, pending?_of_signing hst hs, rfl, ha, hseen⟩

/-- **Nonces are handed out in sequence.** Whatever the order of steps in a run:

* in a part of it that begins at the start or right after a reset and holds no further reset, the
  nonces committed are consecutive, and without an overflow consecutive as numbers; the first of
  them is the answer of the chain to the submission that committed it, which asked for it in this
  part and before anything was committed;
* who asks the chain for the nonce is a submission that has the nonce lock while the nonce is
  unknown; there is never more than one that waits for the answer, and it keeps the lock while the
  nonce stays unknown;
* a commitment makes its nonce the last one known; it is the nonce of the transaction the signer was
  asked to sign, and what the signer made of that is broadcast;
* a reset makes the nonce unknown, and no other step changes what is known of it;
* a send that fails or is dropped before its signature commits nothing, neither before nor after,
  and leaves the nonce as it was;
* supervisors and listeners commit nothing and leave the nonce and its lock as they are. -/
theorem History.nonces_in_sequence (h : History setup .start tr s) :
    (∀ pre mid post, tr = pre ++ mid ++ post → (∀ e, pre.getLast? = some e → e.IsReset) →
      (∀ e ∈ mid, ¬ e.IsReset) → ∀ i m, (commits mid).head? = some (i, m) →
        (commits mid).map (·.2) = consecutive m (commits mid).length ∧
        (m.toNat + (commits mid).length ≤ 2 ^ 64 →
          (commits mid).map (·.2.toNat) = List.range' m.toNat (commits mid).length) ∧
        Fetched setup mid i m) ∧
    (∀ e ∈ tr, ∀ party account, .called party (.nonce account) ∈ e.seen →
      ∃ i sub, party = .operation i ∧ e.before.stage? i = some (.submitting sub) ∧
        sub.stage = .queued ∧ e.before.nonceLock.heldBy i = true ∧ e.before.nonce = .unknown) ∧
    (∀ i sub, s.stage? i = some (.submitting sub) → sub.stage = .fetching →
      s.nonceLock.heldBy i = true ∧ s.nonce = .unknown ∧
        ∀ j sub', s.stage? j = some (.submitting sub') → sub'.stage = .fetching → j = i) ∧
    (∀ e ∈ tr, ∀ i n, e.commit? = some (i, n) → e.after.nonce = .known n ∧
      ∃ tx signed, e.before.pending? setup (.operation i) = some (.sign tx) ∧ tx.nonce = n ∧
        e.action = .reply (.operation i) (.signed signed) ∧
        e.seen = [.called (.operation i) (.broadcast signed)]) ∧
    (∀ e ∈ tr, e.IsReset → e.after.nonce = .unknown) ∧
    (∀ e ∈ tr, e.commit? = none → ¬ e.IsReset → e.after.nonce = e.before.nonce) ∧
    (∀ e ∈ tr, ∀ i st, e.Fails i → e.before.stage? i = some st →
      (st = .entering ∨ ∃ sub, st = .submitting sub) → pastSignature st = false →
        e.after.nonce = e.before.nonce ∧ ∀ n, (i, n) ∉ commits tr) ∧
    ∀ e ∈ tr, e.action.isOfDelivery = true → e.commit? = none ∧
      e.after.nonce = e.before.nonce ∧ e.after.nonceLock = e.before.nonceLock := by
  have haround : ∀ e ∈ tr, ∃ pre post, tr = pre ++ e :: post ∧ History setup .start pre e.before ∧
      e.before.step? setup e.action = some (e.after, e.seen) ∧ History setup e.after post s := by
    intro e he
    obtain ⟨pre, post, rfl⟩ := List.append_of_mem he
    exact ⟨pre, post, rfl, h.around⟩
  have hguarded := h.nonceGuarded
  refine ⟨?_, ?_, ?_, ?_, ?_, ?_, ?_, ?_⟩
  · rintro pre mid post rfl hpre hmid i m hfirst
    obtain ⟨u, hu, -⟩ := h.split
    obtain ⟨v, hv, hvu⟩ := hu.split
    exact hv.consecutive_commits hvu hpre hmid hfirst
  · intro e he party account hmem
    obtain ⟨pre, post, -, -, hstep, -⟩ := haround e he
    exact fetches_of_asked hstep hmem
  · intro i sub hst hstage
    have hguard := hguarded.guard i sub hst
    rw [hstage] at hguard
    refine ⟨hguard.1.heldBy, hguard.2, fun j sub' hst' hstage' => ?_⟩
    have hguard' := hguarded.guard j sub' hst'
    rw [hstage'] at hguard'
    exact hguard'.1.unique hguard.1
  · intro e he i n hcommit
    obtain ⟨pre, post, -, -, hstep, -⟩ := haround e he
    exact signed_of_commits hstep (commit?_eq_some_iff.mp hcommit)
  · intro e he hreset
    obtain ⟨pre, post, -, hpre, hstep, -⟩ := haround e he
    exact (fresh_of_resets hpre.nonceGuarded hstep hreset).nonce
  · intro e he hcommit hreset
    obtain ⟨pre, post, -, -, hstep, -⟩ := haround e he
    exact nonce_of_step? hstep hcommit hreset
  · intro e he i st hfails hst hsend hpast
    obtain ⟨pre, post, rfl, -, hstep, -⟩ := haround e he
    exact ⟨nonce_of_step? hstep hfails.quiet.1 hfails.quiet.2,
      h.not_mem_commits_of_fails hfails hst hsend hpast⟩
  · intro e he ha
    obtain ⟨pre, post, -, -, hstep, -⟩ := haround e he
    have hquiet : e.commit? = none ∧ ¬ e.IsReset := by
      refine no_commit_of_action (fun j signed ha' => ?_) fun j ha' => ?_
      · simp [ha', Action.isOfDelivery] at ha
      · simp [ha', Action.isOfDelivery] at ha
    exact ⟨hquiet.1, nonce_of_isOfDelivery hstep ha⟩

/-- A run in which two sends get their nonces and a third one after a reset. -/
def threeSendsRun : List (Action Unit) :=
  [.begin (.send sampleTx {}), .begin (.send sampleTx {}), .resume 0,
    .reply (.operation 0) (.nonce 4), .reply (.operation 0) (.signed (sampleSigned 4)), .resume 1,
    .reply (.operation 1) (.signed (sampleSigned 5)), .begin .resetNonce, .resume 2,
    .begin (.send sampleTx {}), .resume 3, .reply (.operation 3) (.nonce 9),
    .reply (.operation 3) (.signed (sampleSigned 9))]

/-- Before the reset the nonces are 4 and 5. -/
theorem nonces_in_sequence_threeSendsRun :
    ∃ tr s, History sampleSetup .start tr s ∧ tr.map (·.action) = threeSendsRun ∧
      (commits (tr.take 7)).map (·.2) = consecutive 4 2 := by
  have hrun : (start.trace? sampleSetup threeSendsRun).map (fun r =>
      (commits (r.1.take 7), (r.1.take 7).all fun e => !decide (e.before.Resets e.action))) =
      some ([(0, 4), (1, 5)], true) := by decide
  obtain ⟨tr, s, h, has, hb⟩ := exists_history hrun
  obtain ⟨hcommits, hresets⟩ := Prod.mk.inj hb
  refine ⟨tr, s, h, has, ?_⟩
  have hnever : ∀ e ∈ tr.take 7, ¬ e.IsReset := fun e he => by
    simpa [Transition.IsReset] using List.all_eq_true.mp hresets e he
  have hseq := h.nonces_in_sequence.1 [] (tr.take 7) (tr.drop 7) (by simp) (by simp) hnever 0 4
    (by rw [hcommits]; rfl)
  rw [hcommits] at hseq ⊢
  exact hseq.1

end Service

end TxDelivery
