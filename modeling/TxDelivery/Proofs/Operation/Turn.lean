import TxDelivery.Proofs.Delivery.Dialogue
import TxDelivery.Proofs.Delivery.OneOutcome
import TxDelivery.Proofs.Lock.Deadlock

/-!
# Whose step it is

In every step of a service one party goes on at most (`TxDelivery.Service.party?`): the operation
that begins, the party that gets a reply, or the one that acts on its own or breaks down. **Whatever
is asked, published or counted in a step is this party's doing.** A step is done for an operation if
its party acts for the operation (`TxDelivery.Service.ActsFor`): the operation itself, or one of the
two parties of the delivery it waits for.

Who goes on is read off the action and the state before, and not off what happened. It says in
advance whose doing the step will be, and the three results are that nothing else comes of it:

* a call that is seen is asked by this party (`TxDelivery.Service.party?_of_called`);
* an outcome that is published is that of its delivery, and the party is the supervisor
  (`TxDelivery.Service.party?_of_published`);
* nothing is counted unless there is such a party (`TxDelivery.Service.party?_of_metrics`).

Together they say that an operation which is dropped falls silent, once it is known that none of the
parties that act for it goes on any more. That it does not is no matter of this file; here a step is
looked at by itself, along the tables of steps, and no run is spoken of.

A bookkeeper acts for no operation. It marks the keys of outcomes, which are everybody's, and it is
not told apart whether somebody waited for one.
-/

namespace TxDelivery

namespace Service

variable {κ : Type}

/-- **The party that goes on** with an action. -/
def party? (s : Service κ) : Action κ → Option Party
  | .begin _ => some (.operation s.operations.length)
  | .reply who _ => some who
  | .crash d => some (.listener d)
  | a => a.actor?

/-- **The party that goes on in a step.** -/
def Transition.party? (e : Transition κ) : Option Party := e.before.party? e.action

/-- **The parties that act for an operation**: itself, and the supervisor and the listener of the
delivery it waits for. -/
def ActsFor (s : Service κ) (i : OperationId) : Party → Prop
  | .operation j => j = i
  | .supervisor d | .listener d => ∃ x, s.deliveries[d]? = some x ∧ x.owner = some i
  | .bookkeeper _ => False

variable {setup : Setup κ} {s t : Service κ} {a : Action κ} {seen : List Observation}
  {i : OperationId} {d : DeliveryId} {who : Party} {call : Call}

/-- A supervisor or a listener goes on in the steps of its delivery. -/
theorem delivery?_of_party? (h : s.party? a = some who)
    (hwho : who = .supervisor d ∨ who = .listener d) : a.delivery? = some d := by
  rcases hwho with rfl | rfl <;> cases a <;>
    simp_all [party?, Action.actor?, Action.delivery?]

/-- A delivery ends by its supervisor. -/
theorem party?_of_ends {x : Delivery} {outcome : Outcome} {now : Nat}
    (h : x.Ends setup now d a outcome) : s.party? a = some (.supervisor d) := by
  cases h <;> rfl

/-- A delivery proceeds by its supervisor or its listener. -/
theorem party?_of_proceeds {x x' : Delivery} {now : Nat} {m m' : Metrics}
    (h : x.Proceeds setup now d m a x' m' seen) :
    s.party? a = some (.supervisor d) ∨ s.party? a = some (.listener d) := by
  cases h with
  | receive | poll | lapse | crash | answer => exact .inr rfl
  | _ => exact .inl rfl

/-- What is asked for a delivery is asked by the party that goes on. -/
theorem party?_of_called_of_proceeds {x x' : Delivery} {now : Nat} {m m' : Metrics}
    (h : x.Proceeds setup now d m a x' m' seen) (hcall : .called who call ∈ seen) :
    s.party? a = some who := by
  have hlistener {l : Listener}
      (hcall : .called who call ∈ l.call?.toList.map (Observation.called (.listener d))) :
      who = .listener d := by
    obtain ⟨call', -, heq⟩ := List.mem_map.mp hcall
    exact (Observation.called.inj heq).1.symm
  cases h with
  | tick | ask | broadcast =>
    obtain ⟨rfl, -⟩ := Observation.called.inj (List.mem_singleton.mp hcall)
    rfl
  | note | noteStopped | keep | retry | adopt | reject | crash => simp at hcall
  | receive | poll =>
    rw [hlistener hcall]
    rfl
  | lapse =>
    rw [hlistener ((List.mem_cons.mp hcall).resolve_left (by simp))]
    rfl
  | answer =>
    rw [hlistener ((List.mem_append.mp hcall).resolve_left (by simp))]
    rfl

/-- What a submission asks when it opens it asks itself. -/
theorem eq_of_called_of_opening {lock lock' : FairLock OperationId} {sub : Submission κ}
    (h : Submission.Opening lock i sub lock' seen) (hcall : .called who call ∈ seen) :
    who = .operation i := by
  cases h <;> simp_all

variable [DecidableEq κ]

/-- **Who asks something goes on.** -/
theorem party?_of_called (h : s.step? setup a = some (t, seen))
    (hcall : .called who call ∈ seen) : s.party? a = some who := by
  cases step_of_step? h with
  | operation h =>
    cases h with
    | submit _ _ hopen | price _ _ _ _ hopen =>
      rw [eq_of_called_of_opening hopen hcall]
      rfl
    | enqueue _ _ _ _ _ _ hopen =>
      have hcall' := (List.mem_append.mp hcall).resolve_left (by split <;> simp)
      rw [eq_of_called_of_opening hopen hcall']
      rfl
    | estimate | replace | fetch | sign | nonce | signed | escalate =>
      obtain ⟨rfl, -⟩ := Observation.called.inj (List.mem_singleton.mp hcall)
      rfl
    | refuse _ _ href | refuseQueued _ _ href => cases href <;> simp at hcall
    | _ => simp at hcall
  | delivery h =>
    cases h with
    | proceed _ hproceeds => exact party?_of_called_of_proceeds hproceeds hcall
    | conclude => simp at hcall
  | bookkeeper h => cases h <;> simp at hcall
  | outside h => cases h <;> simp at hcall

/-- **An outcome is published by the supervisor of its delivery.** -/
theorem party?_of_published {outcome : Outcome} (h : s.step? setup a = some (t, seen))
    (hmem : .published d outcome ∈ seen) : s.party? a = some (.supervisor d) := by
  obtain ⟨⟨x, -, hends⟩, -⟩ := ends_of_published h hmem
  exact party?_of_ends hends

/-- **What is counted is counted by whoever goes on.** -/
theorem party?_of_metrics (h : s.step? setup a = some (t, seen)) (hne : t.metrics ≠ s.metrics) :
    ∃ who, s.party? a = some who := by
  cases step_of_step? h with
  | operation h =>
    cases h with
    | drop | dropWaiting => exact absurd rfl hne
    | refuse _ _ href | refuseQueued _ _ href =>
      rcases href.action with rfl | ⟨reply, rfl⟩ <;> exact ⟨_, rfl⟩
    | _ => exact ⟨_, rfl⟩
  | delivery h =>
    cases h with
    | conclude _ hends => exact ⟨_, party?_of_ends hends⟩
    | proceed _ hproceeds =>
      rcases party?_of_proceeds (s := s) hproceeds with hparty | hparty <;> exact ⟨_, hparty⟩
  | bookkeeper h =>
    cases h with
    | start => exact absurd rfl hne
    | _ => exact ⟨_, rfl⟩
  | outside h => cases h <;> exact absurd rfl hne

end Service

end TxDelivery
