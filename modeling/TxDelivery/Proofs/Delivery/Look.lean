import TxDelivery.Proofs.Delivery.Evidence
import TxDelivery.Proofs.Delivery.Round

/-!
# What a look finds

Whenever its timer goes off a listener looks at the variants in its ring. What the chain has to say
of one of them is a `TxDelivery.Listener.Finding`, and whether a finding is final does not depend on
the other variant. **A look finds the first variant that is final**, in the order of the ring, and
asks about none behind it; an error, a failed execution or a shallow receipt of one variant says
nothing about the other (`TxDelivery.Service.look_exact`).

What a look should come to is said without its steps, by functions on the list of findings: what is
asked and told (`TxDelivery.Listener.lookTold`), and what is left of the listener at the end
(`TxDelivery.Listener.verdict`). They are `List.takeWhile` and `List.find?`, and everything that is
to be known of a look is read off them, such as that a higher chain or a smaller depth leaves a
finding final (`TxDelivery.Listener.Finding.Final.mono`).

## One look after the other, and among others

A look consists of several steps, and the rest of the service goes on in between. The result is
therefore stated twice.

* For the steps of a look one after another, in which nothing changes but this one listener. This
  says that such a look is possible, for any findings whatever. It follows the variants of the ring
  one by one (`TxDelivery.Service.exists_history_look`), and one variant takes one step or two
  (`TxDelivery.Service.exists_history_finding`).
* For any history in which a look has begun and come to its end. This says that there is no other
  kind of look. The stage of the listener says how much of the look is behind it
  (`TxDelivery.Listener.Looking`): the variants passed were not final, what was told is what there
  is to tell of them, and the ones still to come make up the rest of the ring.

In the second the findings are not given but found: each of the chain's replies is half of one, and
the list grows with the dialogue.
-/

namespace TxDelivery

/-! ### Findings -/

namespace Listener

/-- **What the chain has to say of one variant**: its answer to the query for the receipt, and its
answer to the query for the height, which follows only on a receipt. -/
structure Finding where
  /-- The receipt, if the variant was mined, or why it is not known. -/
  receipt : Except ChainError (Option Receipt)
  /-- The height of the chain, or why it is not known. -/
  head : Except ChainError UInt64

namespace Finding

variable {depth depth' : UInt64} {f : Finding} {tx : SignedTx}

/-- **Whether a finding is final**: there is a receipt, of an execution that succeeded, and a height
that is the receipt's block and the depth on top of it, the sum stopping at the largest height. -/
def Final (depth : UInt64) (f : Finding) : Prop :=
  ∃ receipt head, f.receipt = .ok (some receipt) ∧ receipt.succeeded = true ∧ f.head = .ok head ∧
    min (receipt.block.toNat + depth.toNat) (UInt64.size - 1) ≤ head.toNat

/-- A finding is final if its receipt is, at its height. -/
theorem final_iff {receipt : Receipt} {head : UInt64} :
    Final depth ⟨.ok (some receipt), .ok head⟩ ↔ receipt.isConfirmed depth head = true := by
  rw [Receipt.isConfirmed_iff]
  constructor
  · rintro ⟨receipt', head', hreceipt, hsucceeded, hhead, hdeep⟩
    obtain rfl : receipt = receipt' := by simpa using hreceipt
    obtain rfl : head = head' := by simpa using hhead
    exact ⟨hsucceeded, hdeep⟩
  · rintro ⟨hsucceeded, hdeep⟩
    exact ⟨receipt, head, rfl, hsucceeded, rfl, hdeep⟩

/-- Without a receipt and a height nothing is final. -/
theorem not_final_of_receipt (h : ∀ receipt, f.receipt ≠ .ok (some receipt)) : ¬ f.Final depth :=
  fun ⟨receipt, _, hreceipt, _⟩ => h receipt hreceipt

theorem not_final_of_head (h : ∀ head, f.head ≠ .ok head) : ¬ f.Final depth :=
  fun ⟨_, head, _, _, hhead, _⟩ => h head hhead

/-- **A higher chain and a smaller depth** leave a finding final. -/
theorem Final.mono {receipt : Receipt} {head head' : UInt64}
    (h : Final depth ⟨.ok (some receipt), .ok head⟩) (hdepth : depth' ≤ depth)
    (hhead : head ≤ head') : Final depth' ⟨.ok (some receipt), .ok head'⟩ := by
  rw [final_iff, Receipt.isConfirmed_iff] at h ⊢
  have hdepth := UInt64.le_iff_toNat_le.mp hdepth
  have hhead := UInt64.le_iff_toNat_le.mp hhead
  exact ⟨h.1, by omega⟩

instance (depth : UInt64) : DecidablePred (Final depth)
  | ⟨.ok (some receipt), .ok head⟩ =>
    decidable_of_iff (receipt.isConfirmed depth head = true) final_iff.symm
  | ⟨.ok (some _), .error _⟩ => isFalse (not_final_of_head (by simp))
  | ⟨.ok none, _⟩ => isFalse (not_final_of_receipt (by simp))
  | ⟨.error _, _⟩ => isFalse (not_final_of_receipt (by simp))

/-- The reply to the query for the receipt. -/
def receiptReply (f : Finding) : Reply :=
  match f.receipt with
  | .ok receipt => .receipt receipt
  | .error e => .failed e

/-- The reply to the query for the height. -/
def headReply (f : Finding) : Reply :=
  match f.head with
  | .ok head => .head head
  | .error e => .failed e

/-- Whether there is a receipt. -/
def isMined (f : Finding) : Bool :=
  match f.receipt with
  | .ok (some _) => true
  | .ok none | .error _ => false

/-- **What is asked and told of one variant**: its receipt, and the height if there is one. -/
def told (tx : SignedTx) (f : Finding) : List (Call × Reply) :=
  (.receipt tx.hash, f.receiptReply) :: if f.isMined then [(.head, f.headReply)] else []

/-- A final finding has a receipt. -/
theorem Final.isMined (h : f.Final depth) : f.isMined = true := by
  obtain ⟨receipt, -, hreceipt, -⟩ := h
  simp [Finding.isMined, hreceipt]

theorem isMined_eq_true_iff : f.isMined = true ↔ ∃ receipt, f.receipt = .ok (some receipt) := by
  rw [Finding.isMined]
  split <;> simp_all

end Finding

/-! ### The steps of a look -/

variable {l l' : Listener} {depth : UInt64} {ring : List SignedTx} {tx : SignedTx}
  {rest : List SignedTx} {f : Finding}

/-- The findings that a look asks for: all up to the first that is final. -/
def lookedAt (depth : UInt64) (looked : List (SignedTx × Finding)) : List (SignedTx × Finding) :=
  looked.takeWhile (fun p => ¬ p.2.Final depth) ++
    (looked.find? fun p => p.2.Final depth).toList

/-- **What is asked and told in a look.** -/
def lookTold (depth : UInt64) (looked : List (SignedTx × Finding)) : List (Call × Reply) :=
  (lookedAt depth looked).flatMap fun p => p.2.told p.1

/-- What is left of a listener when a look is over. -/
def verdict (depth : UInt64) (looked : List (SignedTx × Finding)) : Stage :=
  match looked.find? fun p => p.2.Final depth with
  | some (tx, _) => .returned (some tx)
  | none => .waiting

theorem lookTold_cons (looked : List (SignedTx × Finding)) :
    lookTold depth ((tx, f) :: looked) =
      f.told tx ++ if f.Final depth then [] else lookTold depth looked := by
  by_cases hf : f.Final depth <;> simp [lookTold, lookedAt, hf]

theorem verdict_cons (looked : List (SignedTx × Finding)) :
    verdict depth ((tx, f) :: looked) =
      if f.Final depth then .returned (some tx) else verdict depth looked := by
  by_cases hf : f.Final depth <;> simp [verdict, hf]

/-- **A listener returns the first variant whose finding is final.** -/
theorem verdict_eq_returned_iff {looked : List (SignedTx × Finding)} :
    verdict depth looked = .returned (some tx) ↔ ∃ before f after,
      looked = before ++ (tx, f) :: after ∧ f.Final depth ∧
        ∀ p ∈ before, ¬ p.2.Final depth := by
  have hfind : verdict depth looked = .returned (some tx) ↔
      ∃ f, looked.find? (fun p => p.2.Final depth) = some (tx, f) := by
    rw [verdict]
    cases looked.find? fun p => p.2.Final depth <;> simp [Prod.ext_iff, eq_comm]
  simp only [hfind, List.find?_eq_some_iff_append, decide_eq_true_eq, Bool.not_eq_true',
    decide_eq_false_iff_not]
  constructor
  · rintro ⟨f, hf, before, after, rfl, hbefore⟩
    exact ⟨before, f, after, rfl, hf, hbefore⟩
  · rintro ⟨before, f, after, rfl, hf, hbefore⟩
    exact ⟨f, hf, before, after, rfl, hbefore⟩

/-- With no finding final a listener goes on waiting. -/
theorem verdict_of_not_final {looked : List (SignedTx × Finding)}
    (h : ∀ p ∈ looked, ¬ p.2.Final depth) : verdict depth looked = .waiting := by
  have hfind : looked.find? (fun p => p.2.Final depth) = none := by simpa using h
  rw [verdict, hfind]

/-- **All findings that are not final are asked for**, and then those behind them. -/
theorem lookTold_append {passed : List (SignedTx × Finding)}
    (h : ∀ p ∈ passed, ¬ p.2.Final depth) (looked : List (SignedTx × Finding)) :
    lookTold depth (passed ++ looked) =
      (passed.flatMap fun p => p.2.told p.1) ++ lookTold depth looked := by
  induction passed with
  | nil => rfl
  | cons p passed ih =>
    obtain ⟨hp, hpassed⟩ := List.forall_mem_cons.mp h
    rw [List.cons_append, lookTold_cons, if_neg hp, ih hpassed, List.flatMap_cons,
      List.append_assoc]

/-- A receipt leads on to the height. -/
theorem advance?_receiptReply (depth : UInt64) {receipt : Receipt}
    (hs : l.stage = .querying tx rest) (hreceipt : f.receipt = .ok (some receipt)) :
    ∃ log, l.advance? depth f.receiptReply =
      some ({ l with stage := .weighing tx receipt rest }, log) :=
  ⟨[], by simp only [advance?, hs, Finding.receiptReply, hreceipt]⟩

/-- Without a receipt the next variant is looked at. -/
theorem advance?_of_isMined_eq_false (depth : UInt64) (hs : l.stage = .querying tx rest)
    (hmined : f.isMined = false) :
    ∃ log, l.advance? depth f.receiptReply = some ({ l with stage := examine rest }, log) := by
  obtain ⟨_ | (_ | receipt), head⟩ := f
  · exact ⟨[.receiptCheckFailed], by simp only [advance?, hs, Finding.receiptReply]⟩
  · exact ⟨[.receiptMissing], by simp only [advance?, hs, Finding.receiptReply]⟩
  · simp [Finding.isMined] at hmined

/-- The reply to the query for the height decides. -/
theorem advance?_headReply (depth : UInt64) {receipt : Receipt}
    (hs : l.stage = .weighing tx receipt rest) (hreceipt : f.receipt = .ok (some receipt)) :
    ∃ log, l.advance? depth f.headReply = some
      ({ l with stage := if f.Final depth then .returned (some tx) else examine rest }, log) := by
  obtain ⟨found, head⟩ := f
  obtain rfl : found = .ok (some receipt) := hreceipt
  cases head with
  | error e =>
    have hf : ¬ Finding.Final depth ⟨.ok (some receipt), .error e⟩ :=
      Finding.not_final_of_head (by simp)
    exact ⟨[.receiptCheckFailed], by simp only [advance?, hs, Finding.headReply, hf, if_false]⟩
  | ok head =>
    simp only [advance?, hs, Finding.headReply, Finding.final_iff]
    cases hsucceeded : receipt.succeeded with
    | false => exact ⟨[.reverted], by simp [Receipt.isConfirmed, hsucceeded]⟩
    | true =>
      cases hconfirmed : receipt.isConfirmed depth head with
      | true => exact ⟨[], by simp⟩
      | false => exact ⟨[.receiptShallow], by simp⟩

/-! ### A look among other steps -/

/-- **What a look has come to**: the variants passed were not final, what was told is what there is
to tell of them and of the variant looked at, and when all is over the verdict is there. -/
inductive Looking (depth : UInt64) (ring : List SignedTx) :
    List (Call × Reply) → Stage → Prop where
  /-- A receipt is asked for. -/
  | querying {passed : List (SignedTx × Finding)} {tx : SignedTx} {rest : List SignedTx}
      (hring : ring = passed.map Prod.fst ++ tx :: rest)
      (hpassed : ∀ p ∈ passed, ¬ p.2.Final depth) :
      Looking depth ring (passed.flatMap fun p => p.2.told p.1) (.querying tx rest)
  /-- The height is asked for. -/
  | weighing {passed : List (SignedTx × Finding)} {tx : SignedTx} {receipt : Receipt}
      {rest : List SignedTx} (hring : ring = passed.map Prod.fst ++ tx :: rest)
      (hpassed : ∀ p ∈ passed, ¬ p.2.Final depth) :
      Looking depth ring ((passed.flatMap fun p => p.2.told p.1) ++
        [(.receipt tx.hash, .receipt (some receipt))]) (.weighing tx receipt rest)
  /-- The look is over. -/
  | done {looked : List (SignedTx × Finding)} (hring : ring = looked.map Prod.fst) :
      Looking depth ring (lookTold depth looked) (verdict depth looked)
  /-- The look is over, and the deadline passed. -/
  | lapsed {looked : List (SignedTx × Finding)} (hring : ring = looked.map Prod.fst)
      (hverdict : verdict depth looked = .waiting) :
      Looking depth ring (lookTold depth looked) (.returned none)
  /-- The listener was stopped, or broke down. -/
  | stopped {told : List (Call × Reply)} : Looking depth ring told .stopped

namespace Looking

variable {told : List (Call × Reply)}

/-- The next variant has its turn, if there is one. -/
theorem examine (passed : List (SignedTx × Finding)) (hring : ring = passed.map Prod.fst ++ rest)
    (hpassed : ∀ p ∈ passed, ¬ p.2.Final depth) :
    Looking depth ring (passed.flatMap fun p => p.2.told p.1) (Listener.examine rest) := by
  cases rest with
  | cons tx rest => exact .querying hring hpassed
  | nil =>
    have hover : Looking depth ring (lookTold depth passed) (verdict depth passed) :=
      .done (by simpa using hring)
    have htold := lookTold_append hpassed []
    rw [List.append_nil] at htold
    rw [htold, verdict_of_not_final hpassed] at hover
    simpa [lookTold, lookedAt, Listener.examine] using hover

/-- One variant more was not final. -/
theorem pass {passed : List (SignedTx × Finding)}
    (hring : ring = passed.map Prod.fst ++ tx :: rest)
    (hpassed : ∀ p ∈ passed, ¬ p.2.Final depth) (hf : ¬ f.Final depth) :
    Looking depth ring ((passed.flatMap fun p => p.2.told p.1) ++ f.told tx)
      (Listener.examine rest) := by
  have hnext : Looking depth ring ((passed ++ [(tx, f)]).flatMap fun p => p.2.told p.1)
      (Listener.examine rest) := by
    refine .examine _ (by simpa using hring) fun p hp => ?_
    rcases List.mem_append.mp hp with hp | hp
    · exact hpassed p hp
    · obtain rfl := List.mem_singleton.mp hp
      exact hf
  simpa using hnext

/-- One variant was final: those behind it are not asked about. -/
theorem find {passed : List (SignedTx × Finding)}
    (hring : ring = passed.map Prod.fst ++ tx :: rest)
    (hpassed : ∀ p ∈ passed, ¬ p.2.Final depth) (hf : f.Final depth) :
    Looking depth ring ((passed.flatMap fun p => p.2.told p.1) ++ f.told tx)
      (.returned (some tx)) := by
  have hover : Looking depth ring
      (lookTold depth (passed ++ (tx, f) :: rest.map fun tx => (tx, f)))
      (verdict depth (passed ++ (tx, f) :: rest.map fun tx => (tx, f))) :=
    .done (by simp [hring, Function.comp_def])
  rw [verdict_eq_returned_iff.mpr ⟨_, f, _, rfl, hf, hpassed⟩, lookTold_append hpassed,
    lookTold_cons, if_pos hf, List.append_nil] at hover
  exact hover

/-- A listener that is stopped is stopped, unless it has returned. -/
theorem stop (h : Looking depth ring told l.stage) : Looking depth ring told l.stop.stage := by
  unfold Listener.stop
  split
  · exact h
  · exact .stopped

/-- **A look goes on with a reply.** -/
theorem advance {call : Call} {reply : Reply} {log : List LogEvent}
    (h : Looking depth ring told l.stage) (hcall : l.call? = some call)
    (hl : l.advance? depth reply = some (l', log)) :
    Looking depth ring (told ++ [(call, reply)]) l'.stage := by
  generalize hs : l.stage = stage at h
  cases h with
  | @querying passed tx rest hring hpassed =>
    obtain rfl : .receipt tx.hash = call := by simpa [call?, hs] using hcall
    unfold advance? at hl
    rw [hs] at hl
    split at hl
    case h_1 tx' rest' receipt hstage =>
      obtain ⟨rfl, rfl⟩ := Stage.querying.inj hstage
      rw [← (Prod.mk.inj (Option.some.inj hl)).1]
      exact .weighing hring hpassed
    case h_2 tx' rest' hstage =>
      obtain ⟨rfl, rfl⟩ := Stage.querying.inj hstage
      rw [← (Prod.mk.inj (Option.some.inj hl)).1]
      exact pass (f := ⟨.ok none, .ok 0⟩) hring hpassed (Finding.not_final_of_receipt (by simp))
    case h_3 tx' rest' err hstage =>
      obtain ⟨rfl, rfl⟩ := Stage.querying.inj hstage
      rw [← (Prod.mk.inj (Option.some.inj hl)).1]
      exact pass (f := ⟨.error err, .ok 0⟩) hring hpassed (Finding.not_final_of_receipt (by simp))
    all_goals contradiction
  | @weighing passed tx receipt rest hring hpassed =>
    obtain rfl : .head = call := by simpa [call?, hs] using hcall
    -- Whatever the reply to the query for the height, it makes a finding of the receipt.
    have hdecided {f : Finding} (hreceipt : f.receipt = .ok (some receipt))
        (hhead : f.headReply = reply) :
        Looking depth ring ((passed.flatMap fun p => p.2.told p.1) ++
          [(.receipt tx.hash, .receipt (some receipt))] ++ [(.head, reply)]) l'.stage := by
      obtain ⟨log', hl'⟩ := advance?_headReply depth hs hreceipt
      have htold : f.told tx =
          [(.receipt tx.hash, .receipt (some receipt))] ++ [(.head, reply)] := by
        simp [Finding.told, Finding.receiptReply, Finding.isMined, hreceipt, hhead]
      rw [hhead, hl] at hl'
      rw [(Prod.mk.inj (Option.some.inj hl')).1, List.append_assoc, ← htold]
      by_cases hf : f.Final depth
      · simpa [hf] using find hring hpassed hf
      · simpa [hf] using pass hring hpassed hf
    cases reply with
    | head head => exact hdecided (f := ⟨.ok (some receipt), .ok head⟩) rfl rfl
    | failed err => exact hdecided (f := ⟨.ok (some receipt), .error err⟩) rfl rfl
    | _ => simp [advance?, hs] at hl
  | @done looked hring =>
    rw [verdict] at hs
    split at hs <;> simp [advance?, hs] at hl
  | lapsed | stopped => simp [advance?, hs] at hl

/-- **When a look is over its verdict is there**, and exactly the findings up to the first final one
were asked for. -/
theorem exists_of_call?_eq_none (h : Looking depth ring told l.stage) (hcall : l.call? = none)
    (hstopped : l.stage ≠ .stopped) :
    ∃ looked : List (SignedTx × Finding), looked.map Prod.fst = ring ∧
      told = lookTold depth looked ∧
      ∀ tx, l.stage = .returned (some tx) ↔ verdict depth looked = .returned (some tx) := by
  generalize hs : l.stage = stage at h
  cases h with
  | querying | weighing => simp [call?, hs] at hcall
  | stopped => exact absurd hs hstopped
  | @done looked hring => exact ⟨looked, hring.symm, rfl, fun tx => Iff.rfl⟩
  | @lapsed looked hring hverdict => exact ⟨looked, hring.symm, rfl, by simp [hverdict]⟩

end Looking

end Listener

/-- A delivery whose listener is at another stage. -/
def Delivery.atStage (x : Delivery) (stage : Listener.Stage) : Delivery :=
  { x with listener := { x.listener with stage := stage } }

namespace Service

open Listener

variable {κ : Type} [DecidableEq κ] {setup : Setup κ} {s t : Service κ}
  {tr pre post : List (Transition κ)} {d : DeliveryId} {x y : Delivery} {a : Action κ}
  {seen : List Observation} {e : Transition κ} {l : Listener} {tx : SignedTx}
  {rest : List SignedTx} {f : Finding} {reply : Reply} {log : List LogEvent}

/-! ### The steps of a look, one after another -/

omit [DecidableEq κ] in
/-- Setting a delivery twice. -/
theorem setDelivery_setDelivery (x y : Delivery) :
    (s.setDelivery d x).setDelivery d y = s.setDelivery d y := by
  simp only [setDelivery, List.set_set]

omit [DecidableEq κ] in
theorem deliveries_setDelivery (hx : s.deliveries[d]? = some x) (y : Delivery) :
    (s.setDelivery d y).deliveries[d]? = some y :=
  List.getElem?_set_self (List.getElem?_eq_some_iff.mp hx).1

omit [DecidableEq κ] in
theorem setDelivery_self (hx : s.deliveries[d]? = some x) : s.setDelivery d x = s := by
  obtain ⟨hlt, rfl⟩ := List.getElem?_eq_some_iff.mp hx
  rw [setDelivery, List.set_getElem_self hlt]

omit [DecidableEq κ] in
/-- What a listener asks in a step of its own. -/
theorem calls_listener {calls : List Call} (h : e.seen = log.map .logged ++
    calls.map (.called (.listener d))) : e.calls (.listener d) = calls := by
  rw [Transition.calls, h, List.filterMap_append, List.filterMap_map, List.filterMap_map]
  simp [Function.comp_def, Observation.call?]

/-- **A listener goes on with a reply**: nothing else changes, and what it asks next is seen. -/
theorem exists_step_answer {z : Delivery} (hx : s.deliveries[d]? = some x)
    (hl : x.listener.advance? setup.config.confirmHeight reply = some (z.listener, log))
    (hz : z = { x with listener := z.listener }) :
    ∃ e : Transition κ, History setup s [e] (s.setDelivery d z) ∧
      e.action = .reply (.listener d) reply ∧ e.calls (.listener d) = z.listener.call?.toList := by
  have hstep : s.step? setup (.reply (.listener d) reply) = some (s.setDelivery d z,
      log.map .logged ++ z.listener.call?.toList.map (.called (.listener d))) := by
    rw [hz]
    simp [step?, act?, reply?, replyListener?, hx, hl, setListener]
  exact ⟨_, .single hstep, rfl, calls_listener rfl⟩

/-- **A listener serves a tick**: nothing else changes, and what it asks first is seen. -/
theorem exists_step_poll (setup : Setup κ) (hx : s.deliveries[d]? = some x)
    (hl : x.listener.poll? s.now = some l) :
    ∃ e : Transition κ, History setup s [e] (s.setDelivery d { x with listener := l }) ∧
      e.action = .poll d ∧ e.calls (.listener d) = l.call?.toList := by
  have hstep : s.step? setup (.poll d) = some (s.setDelivery d { x with listener := l },
      ([] : List LogEvent).map .logged ++ l.call?.toList.map (.called (.listener d))) := by
    simp [step?, act?, poll?, hx, hl, setListener]
  exact ⟨_, .single hstep, rfl, calls_listener rfl⟩

/-- **One variant is looked at**: what there is to ask about it is asked, and then the listener has
returned it or goes on to the next. -/
theorem exists_history_finding (setup : Setup κ) (hx : s.deliveries[d]? = some x)
    (hs : x.listener.stage = .querying tx rest) (f : Finding) :
    ∃ tr x', History setup s tr (s.setDelivery d x') ∧
      x' = x.atStage
        (if f.Final setup.config.confirmHeight then .returned (some tx) else examine rest) ∧
      tr.map (·.action) = (f.told tx).map (fun p => .reply (.listener d) p.2) ∧
      x.listener.call?.toList ++ callsOf (.listener d) tr =
        (f.told tx).map Prod.fst ++ x'.listener.call?.toList := by
  have hask : x.listener.call? = some (.receipt tx.hash) := by simp only [Listener.call?, hs]
  cases hmined : f.isMined with
  | false =>
    -- Without a receipt the height is not asked for.
    have hf : ¬ f.Final setup.config.confirmHeight := fun hf => by simp [hf.isMined] at hmined
    obtain ⟨log, hl⟩ := advance?_of_isMined_eq_false setup.config.confirmHeight hs hmined
    obtain ⟨e, h, ha, hcalls⟩ := exists_step_answer (z := x.atStage _) hx hl rfl
    refine ⟨[e], _, h, by rw [if_neg hf], by simp [ha, Finding.told, hmined], ?_⟩
    simp [callsOf, hcalls, hask, Finding.told, hmined]
  | true =>
    obtain ⟨receipt, hreceipt⟩ := Finding.isMined_eq_true_iff.mp hmined
    obtain ⟨log, hl⟩ := advance?_receiptReply setup.config.confirmHeight hs hreceipt
    obtain ⟨e, h, ha, hcalls⟩ := exists_step_answer (z := x.atStage _) hx hl rfl
    obtain ⟨log', hl'⟩ := advance?_headReply setup.config.confirmHeight (f := f)
      (l := (x.atStage (.weighing tx receipt rest)).listener) rfl hreceipt
    obtain ⟨e', h', ha', hcalls'⟩ := exists_step_answer (z := x.atStage _)
      (deliveries_setDelivery hx _) hl' rfl
    rw [setDelivery_setDelivery] at h'
    refine ⟨[e] ++ [e'], _, h.append h', rfl, by simp [ha, ha', Finding.told, hmined], ?_⟩
    have hhead : (x.atStage (.weighing tx receipt rest)).listener.call? = some .head := rfl
    simp [callsOf, hcalls, hcalls', hask, hhead, Finding.told, hmined]

/-- **A look from its first variant on**, for any findings: what is asked is told by them, and their
verdict is all that comes of it. -/
theorem exists_history_look (setup : Setup κ) (looked : List (SignedTx × Finding))
    (hx : s.deliveries[d]? = some x)
    (hs : x.listener.stage = examine (looked.map Prod.fst)) :
    ∃ tr, History setup s tr
        (s.setDelivery d (x.atStage (verdict setup.config.confirmHeight looked))) ∧
      tr.map (·.action) = (lookTold setup.config.confirmHeight looked).map
        (fun p => .reply (.listener d) p.2) ∧
      x.listener.call?.toList ++ callsOf (.listener d) tr =
        (lookTold setup.config.confirmHeight looked).map Prod.fst := by
  induction looked generalizing s x with
  | nil =>
    have hwaiting : x.listener.stage = .waiting := hs
    have hself : x.atStage (verdict setup.config.confirmHeight []) = x := by
      change x.atStage .waiting = x
      rw [← hwaiting]
      rfl
    refine ⟨[], ?_, rfl, ?_⟩
    · rw [hself, setDelivery_self hx]
      exact .nil
    · simp [Listener.call?, hwaiting, callsOf, lookTold, lookedAt]
  | cons p looked ih =>
    obtain ⟨tx, f⟩ := p
    obtain ⟨tr, x', h, rfl, hactions, hcalls⟩ := exists_history_finding setup hx hs f
    rw [verdict_cons, lookTold_cons]
    by_cases hf : f.Final setup.config.confirmHeight
    · rw [if_pos hf] at h hcalls ⊢
      rw [if_pos hf, List.append_nil]
      exact ⟨tr, h, hactions, hcalls.trans (List.append_nil _)⟩
    · rw [if_neg hf] at h hcalls ⊢
      rw [if_neg hf]
      obtain ⟨tr', h', hactions', hcalls'⟩ := ih
        (deliveries_setDelivery hx (x.atStage (examine (looked.map Prod.fst)))) rfl
      rw [setDelivery_setDelivery] at h'
      refine ⟨tr ++ tr', h.append h', ?_, ?_⟩
      · rw [List.map_append, hactions, hactions', List.map_append]
      · rw [callsOf_append, ← List.append_assoc, hcalls, List.append_assoc, hcalls',
          List.map_append]

/-! ### A look in a history -/

omit [DecidableEq κ] in
/-- **A delivery that proceeds goes on with its look**, unless the next one begins. -/
theorem looking_of_proceeds {ring : List SignedTx} {told : List (Call × Reply)} {m' : Metrics}
    (hx : s.deliveries[d]? = some x) (h : x.Proceeds setup s.now d s.metrics a y m' seen)
    (ha : a ≠ .poll d) (htold : dialogue setup (.listener d) tr = some told)
    (hlooking : Looking setup.config.confirmHeight ring told x.listener.stage) :
    ∃ told', dialogue setup (.listener d) (tr ++ [⟨s, a, seen, t⟩]) = some told' ∧
      Looking setup.config.confirmHeight ring told' y.listener.stage := by
  have hother (hticks : a.ticks? ≠ some (.listener d)) (hreply : ∀ r, a ≠ .reply (.listener d) r)
      (hstage : y.listener.stage = x.listener.stage) :
      ∃ told', dialogue setup (.listener d) (tr ++ [⟨s, a, seen, t⟩]) = some told' ∧
        Looking setup.config.confirmHeight ring told' y.listener.stage := by
    rw [dialogue_of_other hticks hreply, htold, hstage]
    exact ⟨told, rfl, hlooking⟩
  cases h with
  | tick | note | noteStopped | ask | keep | broadcast | retry | adopt | reject =>
    exact hother (by simp [Action.ticks?]) (by simp) rfl
  | receive hl =>
    obtain ⟨-, -, -, hwaiting, hwaiting'⟩ := Listener.of_receive? hl
    exact hother (by simp [Action.ticks?]) (by simp) (hwaiting'.trans hwaiting.symm)
  | poll => exact absurd rfl ha
  | lapse hl =>
    -- The listener was waiting, its look was over.
    obtain ⟨hdue, hl⟩ := Option.ite_none_right_eq_some.mp hl
    have hwaiting : x.listener.stage = .waiting := by
      simpa [Listener.isWaiting] using (Bool.and_eq_true_iff.mp hdue).1
    rw [dialogue_of_other (by simp [Action.ticks?]) (by simp), ← Option.some.inj hl]
    refine ⟨told, htold, ?_⟩
    generalize hs : x.listener.stage = stage at hlooking
    cases hlooking with
    | done hring => exact .lapsed hring (hs.symm.trans hwaiting)
    | querying | weighing | lapsed | stopped => rw [hwaiting] at hs; contradiction
  | crash =>
    rw [dialogue_of_other (by simp [Action.ticks?]) (by simp)]
    exact ⟨told, htold, hlooking.stop⟩
  | @answer l log reply hl =>
    obtain ⟨call, hcall⟩ := Listener.exists_call?_of_advance? hl
    have hpending : s.pending? setup (.listener d) = some call := by
      simp only [pending?, hx, Option.bind_eq_bind, Option.bind_some, hcall]
    exact ⟨_, dialogue_of_reply rfl hpending htold, hlooking.advance hcall hl⟩

/-- **From a tick of the listener to the next its dialogue is that of one look**, at the variants
that the ring held at the tick. -/
theorem History.looking (h : History setup .start (pre ++ e :: post) s) (hpoll : e.action = .poll d)
    (hlast : ∀ e' ∈ post, e'.action ≠ .poll d) (hy : e.before.deliveries[d]? = some y) :
    ∃ x told, s.deliveries[d]? = some x ∧
      dialogue setup (.listener d) (pre ++ e :: post) = some told ∧
      Looking setup.config.confirmHeight y.listener.recent.toList told x.listener.stage := by
  induction post using List.reverseRecOn generalizing s with
  | nil =>
    obtain ⟨-, hstep, rfl⟩ := h.of_snoc
    obtain ⟨before, a, seen, after⟩ := e
    obtain rfl : a = .poll d := hpoll
    cases deliveryTurn_of_step? hstep d with
    | other ha | launched ha | abandoned ha => exact absurd rfl ha
    | ended _ hends => cases hends
    | @proceeded x x' m' hx hproceeds ht =>
      obtain rfl := Option.some.inj (hy.symm.trans hx)
      cases hproceeds with
      | @poll l hl =>
        obtain ⟨-, hl⟩ := Option.ite_none_right_eq_some.mp hl
        refine ⟨_, [], ht, dialogue_of_ticks rfl, ?_⟩
        rw [← Option.some.inj hl]
        exact Looking.examine [] rfl (by simp)
  | append_singleton post e' ih =>
    have hcut : pre ++ e :: (post ++ [e']) = pre ++ e :: post ++ [e'] := by simp
    rw [hcut] at h ⊢
    obtain ⟨hpre, hstep, rfl⟩ := h.of_snoc
    obtain ⟨x, told, hx, htold, hlooking⟩ :=
      ih hpre fun e'' he'' => hlast e'' (List.mem_append_left _ he'')
    have ha : e'.action ≠ .poll d := hlast e' (by simp)
    have hsame {z : Delivery} (hz : e'.before.deliveries[d]? = some z) : z = x :=
      Option.some.inj (hz.symm.trans hx)
    cases deliveryTurn_of_step? hstep d with
    | other hd ht =>
      rw [(dialogue_of_delivery?_ne hd).2]
      exact ⟨x, told, ht.trans hx, htold, hlooking⟩
    | launched _ hd =>
      rw [hd] at hx
      simp at hx
    | abandoned hd hz ht =>
      obtain rfl := hsame hz
      rw [(dialogue_of_delivery?_ne hd).2]
      exact ⟨_, told, ht, htold, hlooking.stop⟩
    | ended hz hends ht =>
      obtain rfl := hsame hz
      have hother : dialogue setup (.listener d) (pre ++ e :: post ++ [e']) =
          dialogue setup (.listener d) (pre ++ e :: post) := by
        obtain ⟨before, a, seen, after⟩ := e'
        cases hends <;> exact dialogue_of_other (by simp [Action.ticks?]) (by simp)
      rw [hother]
      exact ⟨_, told, ht, htold, hlooking.stop⟩
    | proceeded hz hproceeds ht =>
      obtain rfl := hsame hz
      obtain ⟨told', htold', hlooking'⟩ := looking_of_proceeds (t := e'.after) hz hproceeds ha htold
        hlooking
      exact ⟨_, told', ht, htold', hlooking'⟩

/-- What is asked in a look: the receipts, and the height wherever there is one. -/
theorem map_fst_lookTold (depth : UInt64) (looked : List (SignedTx × Finding)) :
    (lookTold depth looked).map Prod.fst = (lookedAt depth looked).flatMap fun p =>
      .receipt p.1.hash :: if p.2.isMined then [.head] else [] := by
  rw [lookTold, List.map_flatMap]
  refine congrArg (List.flatMap · _) (funext fun p => ?_)
  cases hmined : p.2.isMined <;> simp [Finding.told, hmined]

/-- **A look is exact.** Let a listener serve a tick, with any variants in its ring, and let the
chain have any finding for each of them.

* The listener asks for the receipt of one variant after another, in the order of the ring, and for
  the height wherever there is a receipt, up to the first variant whose finding is final, and for
  nothing behind it. This variant is returned; if there is none the listener goes on waiting.
  Nothing else of the service changes.
* Whatever else happens in between: once a look has come to its end it has gone this way, for the
  findings it was told.
* So a variant is returned exactly if its finding is final and those before it are not, whatever the
  other findings are.
* What is final at one height and depth is final at every larger height and smaller depth. -/
theorem look_exact (setup : Setup κ) (d : DeliveryId) :
    (∀ (s : Service κ) (x : Delivery) (l : Listener) (looked : List (SignedTx × Finding)),
      s.deliveries[d]? = some x → x.listener.poll? s.now = some l →
      looked.map Prod.fst = x.listener.recent.toList →
      ∃ tr, History setup s tr (s.setDelivery d { x with
          listener := { l with stage := verdict setup.config.confirmHeight looked } }) ∧
        tr.map (·.action) = .poll d :: (lookTold setup.config.confirmHeight looked).map
          (fun p => .reply (.listener d) p.2) ∧
        callsOf (.listener d) tr = (lookedAt setup.config.confirmHeight looked).flatMap fun p =>
          .receipt p.1.hash :: if p.2.isMined then [.head] else []) ∧
    (∀ (pre post : List (Transition κ)) (e : Transition κ) (s : Service κ) (y x : Delivery),
      History setup .start (pre ++ e :: post) s → e.action = .poll d →
      (∀ e' ∈ post, e'.action ≠ .poll d) → e.before.deliveries[d]? = some y →
      s.deliveries[d]? = some x → x.listener.call? = none → x.listener.stage ≠ .stopped →
      ∃ looked : List (SignedTx × Finding), looked.map Prod.fst = y.listener.recent.toList ∧
        dialogue setup (.listener d) (pre ++ e :: post) =
          some (lookTold setup.config.confirmHeight looked) ∧
        ∀ tx, x.listener.stage = .returned (some tx) ↔
          verdict setup.config.confirmHeight looked = .returned (some tx)) ∧
    (∀ (depth : UInt64) (looked : List (SignedTx × Finding)) (tx : SignedTx),
      verdict depth looked = .returned (some tx) ↔ ∃ before f after,
        looked = before ++ (tx, f) :: after ∧ f.Final depth ∧ ∀ p ∈ before, ¬ p.2.Final depth) ∧
    ∀ (depth depth' head head' : UInt64) (receipt : Receipt),
      Finding.Final depth ⟨.ok (some receipt), .ok head⟩ → depth' ≤ depth → head ≤ head' →
      Finding.Final depth' ⟨.ok (some receipt), .ok head'⟩ := by
  refine ⟨fun s x l looked hx hl hring => ?_,
    fun pre post e s y x h hpoll hlast hy hx hcall hstopped => ?_,
    fun depth looked tx => verdict_eq_returned_iff,
    fun depth depth' head head' receipt h hdepth hhead => h.mono hdepth hhead⟩
  · obtain ⟨e, hfirst, ha, hask⟩ := exists_step_poll setup hx hl
    have hs : l.stage = examine (looked.map Prod.fst) := by
      obtain ⟨-, hl⟩ := Option.ite_none_right_eq_some.mp hl
      rw [← Option.some.inj hl, hring]
    obtain ⟨tr, h, hactions, hcalls⟩ := exists_history_look setup looked
      (deliveries_setDelivery hx { x with listener := l }) hs
    rw [setDelivery_setDelivery] at h
    refine ⟨[e] ++ tr, hfirst.append h, by simp [ha, hactions], ?_⟩
    have hsingle : callsOf (.listener d) [e] = l.call?.toList := by simp [callsOf, hask]
    rw [callsOf_append, hsingle, ← map_fst_lookTold, ← hcalls]
  · obtain ⟨z, told, hz, htold, hlooking⟩ := h.looking hpoll hlast hy
    obtain rfl := Option.some.inj (hz.symm.trans hx)
    obtain ⟨looked, hring, rfl, hverdict⟩ := hlooking.exists_of_call?_eq_none hcall hstopped
    exact ⟨looked, hring, htold, hverdict⟩

/-- The findings of a look at a transaction that is mined not deep enough, and at its replacement,
which is. -/
def replacementFinal : List (SignedTx × Finding) :=
  [(sampleSigned 4, ⟨.ok (some ⟨4, 10, true⟩), .ok 9⟩),
    (sampleReplacement, ⟨.ok (some ⟨20, 10, true⟩), .ok 13⟩)]

/-- In the run in which a transaction is replaced, a look that finds the replacement final asks for
four things and returns it, and so does any history that ends with this look. -/
theorem look_exact_replacedRun :
    ∃ (tr look : List (Transition Unit)) (s t : Service Unit),
      History sampleSetup .start (tr ++ look) t ∧ History sampleSetup .start tr s ∧
      tr.map (·.action) = replacedRun ++ [.wait 5000] ∧
      callsOf (.listener 0) look = [.receipt 4, .head, .receipt 20, .head] ∧
      t.deliveries[0]?.map (·.listener.stage) = some (.returned (some sampleReplacement)) ∧
      (∃ looked : List (SignedTx × Finding),
        looked.map Prod.fst = [sampleSigned 4, sampleReplacement] ∧
        dialogue sampleSetup (.listener 0) (tr ++ look) = some (lookTold 3 looked) ∧
        verdict 3 looked = .returned (some sampleReplacement)) ∧
      Finding.Final 3 ⟨.ok (some ⟨20, 10, true⟩), .ok 13⟩ ∧
      Finding.Final 2 ⟨.ok (some ⟨20, 10, true⟩), .ok 14⟩ := by
  have hrun : (start.trace? sampleSetup (replacedRun ++ [.wait 5000])).map
      (fun r => r.2.deliveries[0]?.map fun x =>
        (x.listener.recent.toList, (x.listener.poll? r.2.now).isSome)) =
      some (some ([sampleSigned 4, sampleReplacement], true)) := by
    decide
  obtain ⟨tr, s, h, has, hread⟩ := exists_history hrun
  obtain ⟨x, hx, hread⟩ := Option.map_eq_some_iff.mp hread
  obtain ⟨hring, hpoll⟩ := Prod.mk.inj hread
  obtain ⟨l, hl⟩ := Option.isSome_iff_exists.mp hpoll
  obtain ⟨hlook, hcourse, hfirst, hmono⟩ := look_exact sampleSetup 0
  obtain ⟨look, hhistory, hactions, hcalls⟩ := hlook s x l replacementFinal hx hl hring.symm
  have hverdict : verdict 3 replacementFinal = .returned (some sampleReplacement) :=
    (hfirst 3 replacementFinal sampleReplacement).mpr
      ⟨[(sampleSigned 4, ⟨.ok (some ⟨4, 10, true⟩), .ok 9⟩)], _, [], rfl, by decide, by decide⟩
  obtain ⟨e, post, rfl, he, hpost⟩ := List.map_eq_cons_iff.mp hactions
  have hafter := deliveries_setDelivery hx
    { x with listener := { l with stage := verdict 3 replacementFinal } }
  have hlast : ∀ e' ∈ post, e'.action ≠ .poll 0 := by
    intro e' he' ha
    have hmem : e'.action ∈ post.map (·.action) := List.mem_map_of_mem he'
    rw [hpost, ha] at hmem
    revert hmem
    decide
  obtain ⟨looked, hlooked, hdialogue, hreturned⟩ := hcourse tr post e _ x _ (h.append hhistory) he
    hlast (hhistory.of_cons.1 ▸ hx) hafter (by rw [hverdict]; rfl) (by rw [hverdict]; simp)
  have hfinal : Finding.Final 3 ⟨.ok (some ⟨20, 10, true⟩), .ok 13⟩ := by decide
  refine ⟨tr, e :: post, s, _, h.append hhistory, h, has, ?_, ?_, ⟨looked, ?_, hdialogue, ?_⟩,
    hfinal, hmono 3 2 13 14 _ hfinal (by decide) (by decide)⟩
  · exact hcalls.trans (by decide)
  · refine (congrArg (Option.map (·.listener.stage)) hafter).trans ?_
    rw [Option.map_some, hverdict]
  · exact hlooked.trans hring
  · exact (hreturned sampleReplacement).mp hverdict

end Service

end TxDelivery
