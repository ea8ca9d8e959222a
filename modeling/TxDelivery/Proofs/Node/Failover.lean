import TxDelivery.Node.Client

/-!
# Which node decides

A client asks its nodes in order. A node that fails or stays silent passes the question on; **the
first one that answers or says no decides**, and no node after it is asked
(`TxDelivery.Client.decided_by_first`). If every node passed the question on, the result tells
whether all of them stayed silent.

A client is fixed by the texts of the addresses alone: an address in second place or later that
cannot be used is left out, and the others keep their order (`TxDelivery.Client.fst_of_connect`).
What the nodes say of their chain while it connects is logged and decides nothing.

What carries the rest is that **nodes that pass a question on leave nothing behind** but their
number, their log entries, and whether all of them stayed silent (`TxDelivery.failover_append`).
That is an induction on the nodes in front, generalized over the silence so far. Each of the
outcomes is then one more step behind such nodes:

* an answer (`TxDelivery.failover_append_answer`);
* a refusal, by the cause that its words tell (`TxDelivery.failover_append_refusal`);
* the end of the nodes (`TxDelivery.failover_of_passesOn`).

That no other node is asked is said without a trace of requests. The result comes with how many
nodes were asked, and if two networks agree on so many of the first nodes, the results are the same
(`TxDelivery.failover_congr`). So it makes no difference how any other node would have replied, and
a node that makes no difference has not been asked.
-/

namespace TxDelivery

variable {α : Type}

namespace NodeReply

/-- Whether a node passes a question on to the next one. -/
def passesOn : NodeReply α → Bool
  | answer _ | refusal _ => false
  | failure | silence => true

/-- Whether a node stayed silent. -/
def isSilence : NodeReply α → Bool
  | silence => true
  | answer _ | refusal _ | failure => false

/-- What is logged of a node that passes a question on. -/
def passedOn? : NodeReply α → Option LogEvent
  | failure => some .nodeFailed
  | silence => some .nodeTimedOut
  | answer _ | refusal _ => none

end NodeReply

variable {purpose : String} {seconds : Nat} {silent : Bool} {before after : List (NodeReply α)}

/-- **Nodes that pass a question on leave it to those after them.** -/
theorem failover_append (hbefore : ∀ r ∈ before, r.passesOn = true) :
    failover purpose seconds silent (before ++ after) =
      let rest := failover purpose seconds (silent && before.all NodeReply.isSilence) after
      ⟨rest.result, before.length + rest.asked,
        before.filterMap NodeReply.passedOn? ++ rest.log⟩ := by
  induction before generalizing silent with
  | nil => simp
  | cons r before ih =>
    have hrest (silent : Bool) :=
      @ih silent fun r' hr' => hbefore r' (List.mem_cons_of_mem _ hr')
    have hr : r.passesOn = true := hbefore r List.mem_cons_self
    cases r with
    | answer | refusal => contradiction
    | failure | silence =>
      simp [failover, hrest, Consultation.after, NodeReply.passedOn?, NodeReply.isSilence,
        Nat.add_assoc, Nat.add_comm]

/-- A node that answers decides. -/
theorem failover_append_answer {a : α} (hbefore : ∀ r ∈ before, r.passesOn = true) :
    failover purpose seconds silent (before ++ .answer a :: after) =
      ⟨.ok a, before.length + 1, before.filterMap NodeReply.passedOn?⟩ := by
  simp [failover_append hbefore, failover]

/-- A node that says no decides. -/
theorem failover_append_refusal {message : String} (hbefore : ∀ r ∈ before, r.passesOn = true) :
    failover purpose seconds silent (before ++ .refusal message :: after) =
      ⟨.error (.ofNodeMessage message), before.length + 1,
        before.filterMap NodeReply.passedOn?⟩ := by
  simp [failover_append hbefore, failover]

/-- If every node passes the question on, all that counts is whether all of them stayed silent. -/
theorem failover_of_passesOn {replies : List (NodeReply α)}
    (hreplies : ∀ r ∈ replies, r.passesOn = true) :
    failover purpose seconds true replies =
      ⟨.error (if replies.all NodeReply.isSilence then .timeout seconds
          else .rpc ("All RPC providers failed to " ++ purpose)),
        replies.length, replies.filterMap NodeReply.passedOn?⟩ := by
  have h : failover purpose seconds true (replies ++ []) = _ := failover_append hreplies
  simpa [failover] using h

/-- No more nodes are asked than there are. -/
theorem asked_failover_le (replies : List (NodeReply α)) :
    (failover purpose seconds silent replies).asked ≤ replies.length := by
  induction replies generalizing silent with
  | nil => exact Nat.le_refl 0
  | cons r replies ih =>
    cases r with
    | answer | refusal => exact Nat.succ_le_succ (Nat.zero_le _)
    | failure | silence => exact Nat.succ_le_succ ih

/-- **What the nodes that are not asked would have replied makes no difference.** -/
theorem failover_congr {replies replies' : List (NodeReply α)}
    (hlength : replies'.length = replies.length)
    (h : replies'.take (failover purpose seconds silent replies).asked =
      replies.take (failover purpose seconds silent replies).asked) :
    failover purpose seconds silent replies' = failover purpose seconds silent replies := by
  induction replies generalizing silent replies' with
  | nil =>
    obtain rfl := List.eq_nil_of_length_eq_zero hlength
    rfl
  | cons r replies ih =>
    cases replies' with
    | nil => simp at hlength
    | cons r' replies' =>
      cases r with
      | answer | refusal =>
        obtain ⟨rfl, -⟩ := List.cons.inj h
        rfl
      | failure | silence =>
        obtain ⟨rfl, htake⟩ := List.cons.inj h
        simp only [failover]
        rw [ih (Nat.succ.inj hlength) htake]

namespace Client

variable {config : ChainConfig}

/-- The usable addresses to fall back on keep their order. -/
theorem fst_fallbacks (texts : List String) :
    (fallbacks texts).1 = texts.filterMap fun text => (Url.parse text).toOption := by
  induction texts with
  | nil => rfl
  | cons text texts ih =>
    cases h : Url.parse text with
    | error e => simp [fallbacks, h, ih, Except.toOption]
    | ok url => simp [fallbacks, h, ih, Except.toOption]

/-- **A client has the first node and, in order, those to fall back on whose addresses are usable.**
Nothing else decides whether there is a client. -/
theorem fst_of_connect {network : Network} {client : Client} {log : List LogEvent}
    (h : connect config network = .ok (client, log)) :
    ∃ primary, Url.parse config.rpcUrl = .ok primary ∧ client = ⟨config, primary ::
      config.failoverUrls.filterMap fun text => (Url.parse text).toOption⟩ := by
  cases hurl : Url.parse config.rpcUrl with
  | error e => simp [connect, ofConfig, hurl, bind, Except.bind, throw, throwThe,
      MonadExceptOf.throw] at h
  | ok primary =>
    refine ⟨primary, rfl, ?_⟩
    simp only [connect, ofConfig, hurl, bind, Except.bind, pure, Except.pure,
      Except.ok.injEq, Prod.mk.injEq] at h
    rw [← h.1, fst_fallbacks]

/-- A client is made of any configuration whose first node has a usable address. -/
theorem exists_connect {primary : Url} (network : Network)
    (h : Url.parse config.rpcUrl = .ok primary) : ∃ r, connect config network = .ok r := by
  simp only [connect, ofConfig, h, bind, Except.bind, pure, Except.pure]
  exact ⟨_, rfl⟩

/-- Networks that agree on the first nodes give the same first replies. -/
theorem take_replies_congr {client : Client} {network network' : Network} {n : Nat}
    (query : NodeQuery) (decode : Json → Option α)
    (h : ∀ place < n, network' place = network place) :
    (client.replies network' query decode).take n =
      (client.replies network query decode).take n := by
  refine List.ext_getElem? fun place => ?_
  rw [List.getElem?_take, List.getElem?_take]
  split
  case isTrue hlt => simp only [replies, List.getElem?_mapIdx, h place hlt]
  case isFalse => rfl

/-- **The first node that answers or says no decides.** There is a client exactly if the address of
the first node is usable, whatever the other addresses are and whatever the nodes say of their
chain; it has the first node and, in order, those to fall back on whose addresses are usable.

Whatever it asks, and whatever each node makes of that,

* the answer of a node, all nodes before it passing the question on, is the result;
* so is the refusal of a node, by the cause that its words tell;
* if all nodes stay silent, that is the result, and if all pass the question on but some do not by
  staying silent, the result is that they failed.

The nodes up to the one that decides are asked, one after another, and no other: how any other node
would reply makes no difference. The log names those that passed the question on. -/
theorem decided_by_first (config : ChainConfig) (network : Network) :
    ((∃ r, connect config network = .ok r) ↔ ∃ primary, Url.parse config.rpcUrl = .ok primary) ∧
    ∀ (client : Client) (log : List LogEvent), connect config network = .ok (client, log) →
      (∃ primary, Url.parse config.rpcUrl = .ok primary ∧ client = ⟨config, primary ::
        config.failoverUrls.filterMap fun text => (Url.parse text).toOption⟩) ∧
      ∀ {α : Type} (network : Network) (query : NodeQuery) (decode : Json → Option α),
        let replies := client.replies network query decode
        let inquiry := client.ask network query decode
        (∀ (before after : List (NodeReply α)) (a : α), replies = before ++ .answer a :: after →
          (∀ r ∈ before, r.passesOn = true) →
          inquiry = ⟨.ok a, before.length + 1, before.filterMap NodeReply.passedOn?⟩) ∧
        (∀ (before after : List (NodeReply α)) (message : String),
          replies = before ++ .refusal message :: after →
          (∀ r ∈ before, r.passesOn = true) →
          inquiry = ⟨.error (.ofNodeMessage message), before.length + 1,
            before.filterMap NodeReply.passedOn?⟩) ∧
        ((∀ r ∈ replies, r = .silence) →
          inquiry = ⟨.error (.timeout config.rpcTimeoutSecs.toNat), client.nodes.length,
            replies.filterMap NodeReply.passedOn?⟩) ∧
        ((∀ r ∈ replies, r.passesOn = true) → .failure ∈ replies →
          inquiry = ⟨.error (.rpc ("All RPC providers failed to " ++ query.purpose)),
            client.nodes.length, replies.filterMap NodeReply.passedOn?⟩) ∧
        inquiry.asked ≤ client.nodes.length ∧
        ∀ network' : Network, (∀ place < inquiry.asked, network' place = network place) →
          client.ask network' query decode = inquiry := by
  refine ⟨⟨?_, fun ⟨primary, hurl⟩ => exists_connect network hurl⟩, fun client log hclient => ?_⟩
  · rintro ⟨⟨client, log⟩, hclient⟩
    obtain ⟨primary, hurl, -⟩ := fst_of_connect hclient
    exact ⟨primary, hurl⟩
  · obtain ⟨primary, hurl, rfl⟩ := fst_of_connect hclient
    refine ⟨⟨primary, hurl, rfl⟩, fun {α} network query decode => ?_⟩
    intro replies inquiry
    have hlength : replies.length = _ := List.length_mapIdx
    refine ⟨?_, ?_, ?_, ?_, ?_, ?_⟩
    · intro before after a hreplies hbefore
      exact (congrArg (failover _ _ true) hreplies).trans (failover_append_answer hbefore)
    · intro before after message hreplies hbefore
      exact (congrArg (failover _ _ true) hreplies).trans (failover_append_refusal hbefore)
    · intro hsilent
      have hall : replies.all NodeReply.isSilence = true :=
        List.all_eq_true.mpr fun r hr => hsilent r hr ▸ rfl
      have hpasses : failover query.purpose config.rpcTimeoutSecs.toNat true replies = _ :=
        failover_of_passesOn fun r hr => (congrArg NodeReply.passesOn (hsilent r hr)).trans rfl
      rwa [hall, if_pos rfl, hlength] at hpasses
    · intro hpasses hfailure
      have hnot : ¬ replies.all NodeReply.isSilence = true := fun hall =>
        absurd (List.all_eq_true.mp hall _ hfailure) (by simp [NodeReply.isSilence])
      have hfailed : failover query.purpose config.rpcTimeoutSecs.toNat true replies = _ :=
        failover_of_passesOn hpasses
      rwa [if_neg hnot, hlength] at hfailed
    · exact hlength ▸ asked_failover_le replies
    · intro network' hagree
      refine failover_congr ?_ (take_replies_congr query decode hagree)
      simp only [Client.replies, List.length_mapIdx]

/-- Two usable nodes with an unusable one between them. -/
def sampleChain : ChainConfig := { rpcUrl := "http://a", failoverUrls := ["b", "http://c"] }

/-- The node with a name. -/
def sampleNode (name : String) : Url := ⟨"http", some (.name name), none, ""⟩

/-- A network whose first node is silent, and whose other nodes say no. -/
def refusingNetwork : Network
  | 0, _, _ => .silence
  | _, _, _ => .response 200 "\x7b\"error\":\x7b\"message\":\"nonce too low\"\x7d\x7d"

/-- Here the second usable node decides. -/
theorem decided_by_first_refusingNetwork :
    ∃ client log, connect sampleChain .unreachable = .ok (client, log) ∧
      client.nodes = [sampleNode "a", sampleNode "c"] ∧
      client.gasPrice refusingNetwork =
        ⟨.error (.ofNodeMessage "nonce too low"), 2, [.nodeTimedOut]⟩ := by
  have hurls : (Url.parse sampleChain.rpcUrl).toOption = some (sampleNode "a") ∧
      (sampleChain.failoverUrls.filterMap fun text => (Url.parse text).toOption) =
        [sampleNode "c"] := by decide +kernel
  have hurl : Url.parse sampleChain.rpcUrl = .ok (sampleNode "a") := by
    cases h : Url.parse sampleChain.rpcUrl with
    | error e => simp [h, Except.toOption] at hurls
    | ok url => simpa [h, Except.toOption] using hurls.1
  have hreplies : replies ⟨sampleChain, [sampleNode "a", sampleNode "c"]⟩ refusingNetwork .gasPrice
      NodeValue.price? = [.silence] ++ .refusal "nonce too low" :: [] := by decide +kernel
  obtain ⟨hconnect, hdecided⟩ := decided_by_first sampleChain .unreachable
  obtain ⟨⟨client, log⟩, hclient⟩ := hconnect.mpr ⟨_, hurl⟩
  obtain ⟨⟨primary, hprimary, rfl⟩, hask⟩ := hdecided client log hclient
  obtain rfl := Except.ok.inj (hurl.symm.trans hprimary)
  rw [hurls.2] at hclient hask
  obtain ⟨-, hrefused, -⟩ := hask refusingNetwork .gasPrice NodeValue.price?
  exact ⟨_, log, hclient, rfl,
    hrefused [.silence] [] "nonce too low" hreplies (by simp [NodeReply.passesOn])⟩

end Client

end TxDelivery
