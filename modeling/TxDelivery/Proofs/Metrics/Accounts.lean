import Mathlib.Algebra.BigOperators.Group.List.Lemmas
import Mathlib.Algebra.GroupWithZero.Nat
import Mathlib.Logic.Relation
import TxDelivery.Service.Metrics

/-!
# Accounts

What a service counts, beside what there is to count (`TxDelivery.Accounts`): the transactions the
node accepted, the outcomes that were published, the deliveries that are under way or were dropped,
the resets of the nonce and the sends through the queue that were completed. The accounts change by
postings, each of which enters one thing on both sides (`TxDelivery.Accounts.Posting`), so that
**accounts that balance stay balanced whatever is posted**
(`TxDelivery.Accounts.Balanced.posted`).

It is the bookkeeper's argument. Nothing in this file knows of a service, or of when which posting
is made; that a step of the service amounts to postings is a matter of its own. In exchange the
balance is checked once for each kind of posting and not once for each kind of step, and a step that
does two things at once makes two postings. Postings compose, in any number
(`TxDelivery.Accounts.Posted`).

Not all of what balances is a number of things. The gauge holds the price of the last replacement
accepted, which a posting of a replacement writes on both sides and all others leave.

## Families

Counters are summed over families, as an operator would do it who sees them all: each counter that
was touched counts once (`TxDelivery.Metrics.total`). Such a sum is how often one of the family was
counted (`TxDelivery.Metrics.total_eq`). With this a posting changes a sum by one or by nothing,
whatever else the family has in it; so the counters of failures, which are as many as there are
kinds of them, add up to the failures published.
-/

namespace TxDelivery

/-! ### Families of counters -/

/-- Removing the later copies of everything leaves no copies. -/
theorem nodup_eraseDups {α : Type} [DecidableEq α] (l : List α) : l.eraseDups.Nodup := by
  induction hn : l.length using Nat.strongRecOn generalizing l with
  | ind n ih =>
    cases l with
    | nil => simp
    | cons a l =>
      have hshort : (l.filter fun b => !b == a).length < n := by
        rw [← hn, List.length_cons]
        exact Nat.lt_succ_of_le (List.length_filter_le _ _)
      rw [List.eraseDups_cons, List.nodup_cons]
      exact ⟨by simp, ih _ hshort _ rfl⟩

namespace Counter

/-- The counters of outcomes. -/
def isOutcome : Counter → Bool
  | outcome _ => true
  | _ => false

/-- The counters of failures. -/
def isFailure : Counter → Bool
  | outcome kind => kind ≠ "confirmed"
  | _ => false

/-- The counters of sends through the queue. -/
def isQueueSend : Counter → Bool
  | queueSend _ => true
  | _ => false

end Counter

namespace Metrics

/-- **The sum over a family of counters.** -/
def total (m : Metrics) (family : Counter → Bool) : Nat :=
  ((m.touched.filter family).map m.count).sum

/-- The sum over a family is how often one of it was counted. -/
theorem total_eq (m : Metrics) (family : Counter → Bool) :
    m.total family = m.increments.countP family := by
  have hperm : m.touched.Perm m.increments.dedup :=
    (List.perm_ext_iff_of_nodup (nodup_eraseDups _) (List.nodup_dedup _)).mpr (by simp)
  rw [← List.sum_map_count_dedup_filter_eq_countP]
  exact ((hperm.filter family).map m.count).sum_eq

@[simp] theorem total_increment (m : Metrics) (c : Counter) (family : Counter → Bool) :
    (m.increment c).total family = m.total family + if family c then 1 else 0 := by
  rw [total_eq, total_eq, increment, List.countP_cons]

@[simp] theorem total_recordPrice (m : Metrics) (p : GasPrice) (family : Counter → Bool) :
    (m.recordPrice p).total family = m.total family := rfl

@[simp] theorem gasPrice_increment (m : Metrics) (c : Counter) :
    (m.increment c).gasPrice = m.gasPrice := rfl

@[simp] theorem gasPrice_recordPrice (m : Metrics) (p : GasPrice) :
    (m.recordPrice p).gasPrice = some p := rfl

end Metrics

/-- No failure is counted as a confirmation. -/
theorem DeliveryError.kind_ne_confirmed (e : DeliveryError) : e.kind ≠ "confirmed" := by
  cases e <;> simp [kind]

/-! ### Postings -/

/-- **The accounts of a service**: its metrics, and what there is to count. -/
@[ext] structure Accounts where
  /-- What was counted. -/
  metrics : Metrics
  /-- How many transactions the node accepted. -/
  accepted : Nat
  /-- The price of the last replacement among them. -/
  price : Option GasPrice
  /-- How many confirmations were published. -/
  confirmed : Nat
  /-- How many failures were published. -/
  failed : Nat
  /-- How many deliveries are under way. -/
  running : Nat
  /-- How many deliveries were dropped with their caller. -/
  dropped : Nat
  /-- How many resets of the nonce were completed. -/
  resets : Nat
  /-- How many sends through the queue were completed. -/
  sends : Nat

namespace Accounts

/-- **What is posted.** -/
inductive Posting (a : Accounts) : Accounts → Prop where
  /-- A first broadcast is accepted, and its delivery starts. -/
  | launched :
      Posting a { a with
        metrics := a.metrics.increment (.initialBroadcast true)
        accepted := a.accepted + 1
        running := a.running + 1 }
  /-- A first broadcast is refused. -/
  | refused : Posting a { a with metrics := a.metrics.increment (.initialBroadcast false) }
  /-- A replacement is accepted. -/
  | replaced {p : GasPrice} :
      Posting a { a with
        metrics := (a.metrics.increment (.rebroadcast true)).recordPrice p
        accepted := a.accepted + 1
        price := some p }
  /-- A replacement is refused. -/
  | rejected : Posting a { a with metrics := a.metrics.increment (.rebroadcast false) }
  /-- A delivery is confirmed. -/
  | confirmed {running : Nat} (hrunning : a.running = running + 1) :
      Posting a { a with
        metrics := a.metrics.increment (.outcome "confirmed")
        confirmed := a.confirmed + 1
        running := running }
  /-- A delivery is given up. -/
  | failed {running : Nat} {e : DeliveryError} (hrunning : a.running = running + 1) :
      Posting a { a with
        metrics := a.metrics.increment (.outcome e.kind)
        failed := a.failed + 1
        running := running }
  /-- A delivery is dropped with its caller. -/
  | abandoned {running : Nat} (hrunning : a.running = running + 1) :
      Posting a { a with running := running, dropped := a.dropped + 1 }
  /-- The nonce is reset. -/
  | reset :
      Posting a { a with metrics := a.metrics.increment .nonceReset, resets := a.resets + 1 }
  /-- A send through the queue is completed. -/
  | sent {decision : QueueDecision} :
      Posting a { a with
        metrics := a.metrics.increment (.queueSend decision)
        sends := a.sends + 1 }

/-- Some things are posted, one after another. -/
abbrev Posted : Accounts → Accounts → Prop := Relation.ReflTransGen Posting

/-- **The accounts balance.** -/
structure Balanced (a : Accounts) : Prop where
  /-- Every accepted transaction is a broadcast that succeeded. -/
  broadcasts :
    a.metrics.count (.initialBroadcast true) + a.metrics.count (.rebroadcast true) = a.accepted
  /-- Every accepted first broadcast has its outcome, is under way, or was dropped. -/
  deliveries :
    a.metrics.count (.initialBroadcast true) =
      a.metrics.total Counter.isOutcome + a.running + a.dropped
  /-- Confirmations are counted as such. -/
  confirmations : a.metrics.count (.outcome "confirmed") = a.confirmed
  /-- Failures are counted by their kinds. -/
  failures : a.metrics.total Counter.isFailure = a.failed
  /-- Resets are counted. -/
  resets : a.metrics.count .nonceReset = a.resets
  /-- Sends through the queue are counted by what became of them. -/
  sends : a.metrics.total Counter.isQueueSend = a.sends
  /-- The gauge shows the price of the last replacement. -/
  price : a.metrics.gasPrice = a.price

variable {a b : Accounts}

/-- **A posting keeps the balance.** -/
theorem Balanced.posting (ha : a.Balanced) (h : a.Posting b) : b.Balanced := by
  obtain ⟨hbroadcasts, hdeliveries, hconfirmations, hfailures, hresets, hsends, hprice⟩ := ha
  cases h with
  | @failed running e hrunning =>
    have hkind := e.kind_ne_confirmed
    constructor <;>
      simp [Counter.isOutcome, Counter.isFailure, Counter.isQueueSend, hkind, hprice] <;> omega
  | _ =>
    constructor <;>
      simp [Counter.isOutcome, Counter.isFailure, Counter.isQueueSend, hprice] <;> omega

/-- **Accounts that balance stay balanced** whatever is posted. -/
theorem Balanced.posted (ha : a.Balanced) (h : Posted a b) : b.Balanced := by
  induction h with
  | refl => exact ha
  | tail _ hposting ih => exact ih.posting hposting

end Accounts

end TxDelivery
