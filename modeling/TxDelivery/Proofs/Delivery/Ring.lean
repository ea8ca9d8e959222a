import Mathlib.Data.List.DropRight
import TxDelivery.Proofs.Delivery.Evidence

/-!
# The ring of a listener

A listener keeps what it receives in a ring of two places, the new taking the place of the older.
That these two are the last two received (`TxDelivery.RecentTxs.toList_foldl_push_perm`) is a matter
of the ring alone. What they are to the supervisor is a matter of two parties and the channel
between them, and holds at every moment of a run: **what was received and what still waits in the
channel is what the node accepted**, the supervisor's current variant last
(`TxDelivery.Service.History.variants_agree`). So the listener is never behind by more than the
channel holds, and never ahead.

A variant is put where the older one stood, so the newest is in the first place after every other
push and in the second in between. Which of the two it is depends on how many were pushed
(`TxDelivery.RecentTxs.foldl_push`, an induction that takes the pushes from the last); a listener
does not care, and the statement is one of permutations.

The equation of the run is an invariant that this file takes from the life of a delivery. A variant
that is accepted enters on both sides at once, on the right as accepted and on the left behind the
channel; a variant that is received leaves the channel for the received and keeps its place in
between; nothing else touches either side. A listener that has stopped receives nothing any more and
the channel keeps what is in it, so the equation holds of deliveries that are over as well.

That nothing is watched that the node did not accept
(`TxDelivery.Service.History.mem_variants_of_listener`) covers the three places in which a listener
has variants: the channel, the ring, and the look that it is at.
-/

namespace TxDelivery

/-- **The ring holds the last two variants pushed**, in one order or the other. -/
theorem RecentTxs.toList_foldl_push_perm (txs : List SignedTx) :
    (txs.foldl push empty).toList.Perm (txs.rtake 2) := by
  have htake (l : List SignedTx) : l.take 2 = l[0]?.toList ++ l[1]?.toList := by
    rcases l with _ | ⟨a, _ | ⟨b, l⟩⟩ <;> simp
  have hlast : (txs.rtake 2).Perm (txs.reverse[0]?.toList ++ txs.reverse[1]?.toList) := by
    rw [List.rtake_eq_reverse_take_reverse, ← htake]
    exact List.reverse_perm _
  rw [foldl_push]
  split
  · exact List.perm_append_comm.trans hlast.symm
  · exact hlast.symm

namespace Service

variable {κ : Type} [DecidableEq κ] {setup : Setup κ} {s : Service κ} {tr : List (Transition κ)}
  {d : DeliveryId} {x : Delivery}

omit [DecidableEq κ] in
/-- A variant of a delivery was accepted by the node when it was broadcast. -/
theorem exists_accepted_of_mem_variants {tx : SignedTx} (h : tx ∈ variants setup d tr) :
    ∃ e ∈ tr, ∃ who hash, e.action = .reply who (.accepted hash) ∧
      e.before.broadcasting? setup who = some tx := by
  obtain ⟨e, he, haccepted⟩ := List.mem_filterMap.mp h
  obtain ⟨i, hash, ha, -, hb⟩ | ⟨hash, ha, hb⟩ := accepted?_eq_some_iff.mp haccepted
  · exact ⟨e, he, .operation i, hash, ha, hb⟩
  · exact ⟨e, he, .supervisor d, hash, ha, hb⟩

/-- **Whatever a listener has of variants was accepted**: what waits in the channel, what is in the
ring, and what it looks at. -/
theorem History.mem_variants_of_listener (h : History setup .start tr s)
    (hx : s.deliveries[d]? = some x) {tx : SignedTx} (htx : tx ∈ x.listener.variants) :
    tx ∈ variants setup d tr := by
  have hwatch := (h.watched d).since x hx
  have hring (htx : tx ∈ x.listener.recent.toList) : tx ∈ variants setup d tr :=
    hwatch.mem_variants
      (List.mem_reverse.mp (List.mem_of_mem_take (hwatch.mem_recent.mp htx)))
  rcases Listener.mem_variants.mp htx with htx | htx | htx
  · rw [hwatch.all]
    exact List.mem_append_right _ htx
  · exact hring htx
  · exact hring (h.delivery Delivery.looked_invariant hx tx htx)

/-- **Listener and supervisor agree on the variants** of a delivery, in every reachable state:

* what the listener has received, and behind it what is in the channel, is what the node accepted,
  in this order, and the last of it is the supervisor's current variant;
* the ring holds the last two of those received, as many as there are, and each once;
* so whenever the channel is empty the listener watches the current variant, and the one that it
  superseded, if there is one;
* and nothing is watched, or on its way to be, that the node did not accept when it was
  broadcast. -/
theorem History.variants_agree (h : History setup .start tr s) (hx : s.deliveries[d]? = some x) :
    received d tr ++ x.listener.channel = variants setup d tr ∧
    (variants setup d tr).getLast? = some x.current ∧
    x.listener.recent.toList.Perm ((received d tr).rtake 2) ∧
    (x.listener.channel = [] →
      (∀ older previous, variants setup d tr = older ++ [previous, x.current] →
        x.listener.recent.toList.Perm [previous, x.current]) ∧
      (variants setup d tr = [x.current] → x.listener.recent.toList = [x.current])) ∧
    ∀ tx ∈ x.listener.variants, ∃ e ∈ tr, ∃ who hash,
      e.action = .reply who (.accepted hash) ∧ e.before.broadcasting? setup who = some tx := by
  have hwatch := (h.watched d).since x hx
  have hring : x.listener.recent.toList.Perm ((received d tr).rtake 2) := by
    rw [hwatch.recent]
    exact RecentTxs.toList_foldl_push_perm _
  refine ⟨hwatch.all.symm, hwatch.current, hring, fun hchannel => ?_, fun tx htx => ?_⟩
  · have hall : received d tr = variants setup d tr := by
      rw [hwatch.all, hchannel, List.append_nil]
    rw [hall] at hring
    refine ⟨fun older previous hvariants => ?_, fun hvariants => ?_⟩
    · rw [hvariants] at hring
      simpa [List.rtake] using hring
    · rw [hvariants] at hring
      exact List.perm_singleton.mp hring
  · exact exists_accepted_of_mem_variants (h.mem_variants_of_listener hx htx)

/-- The sample transaction signed with nonce 4 at the highest price. -/
def sampleSecond : SignedTx :=
  ⟨{ sampleTx with sender := 7, nonce := 4, gasPrice := 30 }, 30, [30]⟩

/-- A run in which the first replacement of a transaction is refused and the second accepted. -/
def refusedThenReplacedRun : List (Action Unit) :=
  [.begin (.send sampleTx {}), .resume 0, .reply (.operation 0) (.nonce 4),
    .reply (.operation 0) (.signed (sampleSigned 4)), .reply (.operation 0) (.accepted 4),
    .receive 0, .wait 10000, .poll 0, .reply (.listener 0) (.receipt none), .wait 10000, .poll 0,
    .reply (.listener 0) (.receipt none), .wait 5000, .tick 0, .reply (.supervisor 0) (.price 20),
    .reply (.supervisor 0) (.signed sampleReplacement),
    .reply (.supervisor 0) (.failed (.underpriced "")), .wait 5000, .poll 0,
    .reply (.listener 0) (.receipt none), .wait 10000, .poll 0,
    .reply (.listener 0) (.failed (.timeout 10)), .wait 10000, .tick 0,
    .reply (.supervisor 0) (.price 30), .reply (.supervisor 0) (.signed sampleSecond),
    .reply (.supervisor 0) (.accepted 30), .receive 0]

/-- In this run listener and supervisor agree on two variants; the refused one is not watched. -/
theorem variants_agree_refusedThenReplacedRun :
    ∃ (tr : List (Transition Unit)) (s : Service Unit) (x : Delivery),
      History sampleSetup .start tr s ∧ tr.map (·.action) = refusedThenReplacedRun ∧
      s.deliveries[0]? = some x ∧ x.isWaiting = true ∧ x.listener.isWaiting = true ∧
      variants sampleSetup 0 tr = [sampleSigned 4, sampleSecond] ∧
      received 0 tr ++ x.listener.channel = [sampleSigned 4, sampleSecond] ∧
      x.listener.recent.toList.Perm [sampleSigned 4, sampleSecond] := by
  have hrun : (start.trace? sampleSetup refusedThenReplacedRun).map
      (fun r => (variants sampleSetup 0 r.1, r.2.deliveries[0]?.map fun x =>
        (x.isWaiting, x.current, x.listener.isWaiting, x.listener.channel))) =
      some ([sampleSigned 4, sampleSecond], some (true, sampleSecond, true, [])) := by
    decide
  obtain ⟨tr, s, h, has, hread⟩ := exists_history hrun
  obtain ⟨hvariants, hdelivery⟩ := Prod.mk.inj hread
  obtain ⟨x, hx, hread⟩ := Option.map_eq_some_iff.mp hdelivery
  simp only [Prod.mk.injEq] at hread
  obtain ⟨hstage, hcurrent, hlistener, hchannel⟩ := hread
  obtain ⟨hall, -, -, hring, -⟩ := h.variants_agree hx
  refine ⟨tr, s, x, h, has, hx, hstage, hlistener, hvariants, hall.trans hvariants, ?_⟩
  have hperm := (hring hchannel).1 [] (sampleSigned 4) (by rw [hcurrent]; exact hvariants)
  rwa [hcurrent] at hperm

end Service

end TxDelivery
