import TxDelivery.Service.Step

/-!
# Stages and requests of operations

The operations of a service are a list that only grows, in which a step puts one operation into a
new stage (`TxDelivery.Operation.put`). They are looked at through their places:
`TxDelivery.Service.stage?` is how far an operation has come, `TxDelivery.Service.request?` what it
is about, and the lemmas here say how both change.

The list could be compared with what it was before, element by element. But every statement about
operations is about one of them, or two, and asks for its stage and nothing else. So what is said of
a step is only that the list of operations is the old one with one put into a stage, or with one
more at its end; the two functions turn such an equation into what became of any place. There are
two cases each, this place or another, and a proof that has to do with another operation finds it
unchanged (`TxDelivery.Service.stage?_put_of_ne`).

The equation is about the lists, and leaves open what else a step does. This is why the lemmas take
it as a premise instead of being about a state with a new list of operations: they apply to any step
whose table has this field, however the others are changed.

A request never changes when an operation is put into a stage
(`TxDelivery.Service.request?_of_put`), so that a stage and a request which are known at different
moments belong together. An operation that has a stage has a request, and the other way round.
-/

namespace TxDelivery

/-- A list with one more element at its end. -/
theorem getElem?_append_singleton {α : Type} (l : List α) (a : α) (j : Nat) :
    (l ++ [a])[j]? = if j = l.length then some a else l[j]? := by
  rcases Nat.lt_trichotomy j l.length with h | h | h
  · rw [List.getElem?_append_left h, if_neg (Nat.ne_of_lt h)]
  · rw [if_pos h, h, List.getElem?_concat_length]
  · have hout : (l ++ [a]).length ≤ j := by
      rw [List.length_append]
      exact h
    rw [if_neg (Nat.ne_of_gt h), List.getElem?_eq_none (Nat.le_of_lt h),
      List.getElem?_eq_none hout]

variable {κ : Type}

namespace Operation

/-- The operations with one of them put into a stage. -/
def put (ops : List (Operation κ)) (i : OperationId) (st : Stage κ) : List (Operation κ) :=
  ops.modify i fun o => { o with stage := st }

/-- Putting the last operation into a stage. -/
theorem put_append_singleton (ops : List (Operation κ)) (r : Request κ) (st st' : Stage κ) :
    put (ops ++ [⟨r, st⟩]) ops.length st' = ops ++ [⟨r, st'⟩] := by
  refine List.ext_getElem? fun j => ?_
  rw [put, List.getElem?_modify, getElem?_append_singleton, getElem?_append_singleton]
  by_cases hj : j = ops.length
  · simp [hj]
  · simp [hj, Ne.symm hj]

end Operation

namespace Service

variable {s t : Service κ} {i j : OperationId} {st st' : Operation.Stage κ} {r : Request κ}

/-- How far an operation has come. -/
def stage? (s : Service κ) (i : OperationId) : Option (Operation.Stage κ) :=
  s.operations[i]?.map (·.stage)

/-- What an operation is about. -/
def request? (s : Service κ) (i : OperationId) : Option (Request κ) :=
  s.operations[i]?.map (·.request)

theorem lt_length_of_stage? (h : s.stage? i = some st) : i < s.operations.length := by
  obtain ⟨o, ho, -⟩ := Option.map_eq_some_iff.mp h
  exact (List.getElem?_eq_some_iff.mp ho).1

theorem stage?_length : s.stage? s.operations.length = none := by
  simp [stage?]

/-- An operation with its stage also has a request. -/
theorem exists_request? (h : s.stage? i = some st) : ∃ r, s.request? i = some r := by
  obtain ⟨o, ho, -⟩ := Option.map_eq_some_iff.mp h
  exact ⟨o.request, by simp [request?, ho]⟩

/-- A submission that is signed asks for the signature of its transaction with the nonce. -/
theorem pending?_of_signing {setup : Setup κ} {sub : Submission κ} {n : Nonce}
    (hst : s.stage? i = some (.submitting sub)) (hs : sub.stage = .signing n) :
    s.pending? setup (.operation i) = some (.sign { sub.tx with nonce := n }) := by
  obtain ⟨o, ho, hos⟩ := Option.map_eq_some_iff.mp hst
  simp [pending?, ho, hos, hs]

/-! ### One operation goes on -/

theorem stage?_of_put (ht : t.operations = Operation.put s.operations i st) (j : OperationId) :
    t.stage? j = if i = j then (s.stage? j).map fun _ => st else s.stage? j := by
  simp only [stage?, ht, Operation.put, List.getElem?_modify]
  cases s.operations[j]? with
  | none => simp
  | some o => by_cases h : i = j <;> simp [h]

/-- The operation that is put into a stage is in it. -/
theorem stage?_put_self (ht : t.operations = Operation.put s.operations i st)
    (h : s.stage? i = some st') : t.stage? i = some st := by
  simp [stage?_of_put ht, h]

/-- The others stay where they are. -/
theorem stage?_put_of_ne (ht : t.operations = Operation.put s.operations i st) (h : i ≠ j) :
    t.stage? j = s.stage? j := by
  simp [stage?_of_put ht, h]

theorem request?_of_put (ht : t.operations = Operation.put s.operations i st) (j : OperationId) :
    t.request? j = s.request? j := by
  simp only [request?, ht, Operation.put, List.getElem?_modify]
  cases s.operations[j]? with
  | none => simp
  | some o => by_cases h : i = j <;> simp [h]

/-! ### One operation begins -/

theorem stage?_of_append (ht : t.operations = s.operations ++ [⟨r, st⟩]) (j : OperationId) :
    t.stage? j = if j = s.operations.length then some st else s.stage? j := by
  simp only [stage?, ht, getElem?_append_singleton]
  split <;> rfl

theorem request?_of_append (ht : t.operations = s.operations ++ [⟨r, st⟩]) (j : OperationId) :
    t.request? j = if j = s.operations.length then some r else s.request? j := by
  simp only [request?, ht, getElem?_append_singleton]
  split <;> rfl

end Service

end TxDelivery
