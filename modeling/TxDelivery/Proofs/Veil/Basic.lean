import TxDelivery.Proofs.Step.Bookkeeper

/-!
# A veil over who waits

A caller who waits for the outcome of a send and one who does not are served alike. To say so, a
veil is drawn over some of the operations (`TxDelivery.Service.veil`): through it one cannot see
whether the caller waits, nor, once the first broadcast is accepted, what became of the operation.
The veil leaves everything else as it is, and drawing it twice is drawing it once.

Two services that look the same through the veil could have been compared by a relation between
their states, with a clause for each pair of stages an operation may be in. A function does the same
with less: it takes a state to one in which nobody behind the veil waits, and “the same but for who
waits” is an equation between two such states. What is to be proved of a step is then an equation
too, that it does not matter whether the veil is drawn before it or after it.

## What is hidden

The veil hides as much as it must and no more. A request to wait becomes one not to wait, and so
does an origin; these differ from the beginning. Once the first broadcast is accepted a caller who
does not wait has an answer, while one who does waits for the delivery and has an answer later; here
all of these become one and the same. The delivery knows its owner, who is hidden with it. Before
the acceptance all stages are visible, with the transaction, the nonce and the places in the lines
of the locks, as these concern the others.

Operations and deliveries are veiled place by place. So what is found at a place behind the veil is
what was there, veiled (`TxDelivery.Service.veil_operation`, `TxDelivery.Service.veil_delivery`),
and the changes a step makes to the lists go through it, as simplification lemmas say.
-/

namespace TxDelivery

variable {κ : Type}

/-! ### The veil -/

/-- The request without the wish to wait. -/
def Request.veil : Request κ → Request κ
  | .sendAndWait tx options => .send tx options
  | r => r

/-- The origin without the wish to wait. -/
def Origin.veil : Origin κ → Origin κ
  | .attached => .detached
  | o => o

/-- How far an operation has come, as seen by the service itself: after its first broadcast was
accepted a send is done, whether its caller waits or not. -/
def Operation.Stage.veil : Stage κ → Stage κ
  | .submitting sub => .submitting { sub with origin := sub.origin.veil }
  | .supervising _ | .ended (.sent _) | .ended (.delivered _) => .ended .done
  | st => st

/-- Something behind the veil, or in front of it. -/
def veilIf {α : Type} (hidden : Bool) (f : α → α) (a : α) : α := if hidden then f a else a

/-- An operation behind the veil. -/
def Operation.veil (o : Operation κ) : Operation κ := ⟨o.request.veil, o.stage.veil⟩

/-- A delivery whose owner may be behind the veil. -/
def Delivery.veil (who : OperationId → Bool) (x : Delivery) : Delivery :=
  { x with owner := x.owner.filter fun i => !who i }

/-- A step that may begin an operation behind the veil. -/
def Action.veil (hidden : Bool) : Action κ → Action κ
  | .begin r => .begin (veilIf hidden Request.veil r)
  | a => a

/-- The operations, some of them behind the veil. -/
def veilOperations (who : OperationId → Bool) (ops : List (Operation κ)) : List (Operation κ) :=
  ops.mapIdx fun i => veilIf (who i) Operation.veil

/-- The deliveries, the owners of some of them behind the veil. -/
def veilDeliveries (who : OperationId → Bool) (xs : List Delivery) : List Delivery :=
  xs.map (Delivery.veil who)

namespace Service

/-- **The service with a veil over some of its operations.** -/
def veil (who : OperationId → Bool) (s : Service κ) : Service κ :=
  { s with
    operations := veilOperations who s.operations
    deliveries := veilDeliveries who s.deliveries }

/-- A step and what is seen of it, with the veil over the state it leads to. -/
def veilMove (who : OperationId → Bool) (m : Move κ) : Move κ := (m.1.veil who, m.2)

end Service

/-! ### Veils are drawn once -/

theorem Request.veil_veil (r : Request κ) : r.veil.veil = r.veil := by
  cases r <;> rfl

theorem Origin.veil_veil (o : Origin κ) : o.veil.veil = o.veil := by
  cases o <;> rfl

theorem Operation.Stage.veil_veil (st : Stage κ) : st.veil.veil = st.veil := by
  cases st with
  | submitting sub => simp [veil, Origin.veil_veil]
  | ended answer => cases answer <;> rfl
  | _ => rfl

theorem veilIf_veilIf {α : Type} {f : α → α} (hf : ∀ a, f (f a) = f a) (hidden : Bool) (a : α) :
    veilIf hidden f (veilIf hidden f a) = veilIf hidden f a := by
  cases hidden
  · rfl
  · exact hf a

/-- What looks the same behind the veil. -/
theorem veilIf_of_eq {α : Type} {f : α → α} {a : α} (h : f a = a) (hidden : Bool) :
    veilIf hidden f a = a := by
  cases hidden
  · rfl
  · exact h

theorem Operation.veil_veil (o : Operation κ) : o.veil.veil = o.veil := by
  simp [veil, Request.veil_veil, Stage.veil_veil]

theorem Delivery.veil_veil (who : OperationId → Bool) (x : Delivery) :
    (x.veil who).veil who = x.veil who := by
  simp [veil, Option.filter_filter]

section Lists

variable {who : OperationId → Bool} {ops : List (Operation κ)} {xs : List Delivery}

@[simp] theorem veilOperations_veilOperations :
    veilOperations who (veilOperations who ops) = veilOperations who ops := by
  refine List.ext_getElem? fun j => ?_
  simp only [veilOperations, List.getElem?_mapIdx, Option.map_map]
  congr 1
  funext o
  exact veilIf_veilIf Operation.veil_veil (who j) o

@[simp] theorem veilDeliveries_veilDeliveries :
    veilDeliveries who (veilDeliveries who xs) = veilDeliveries who xs := by
  simp only [veilDeliveries, List.map_map]
  congr 1
  funext x
  exact x.veil_veil who

@[simp] theorem length_veilOperations : (veilOperations who ops).length = ops.length := by
  simp [veilOperations]

@[simp] theorem length_veilDeliveries : (veilDeliveries who xs).length = xs.length := by
  simp [veilDeliveries]

theorem getElem?_veilOperations (i : OperationId) :
    (veilOperations who ops)[i]? = ops[i]?.map (veilIf (who i) Operation.veil) := by
  simp [veilOperations]

theorem getElem?_veilDeliveries (d : DeliveryId) :
    (veilDeliveries who xs)[d]? = xs[d]?.map (Delivery.veil who) := by
  simp [veilDeliveries]

/-- An operation that is put into a stage, behind the veil. -/
@[simp] theorem veilOperations_modify (i : OperationId) (st : Operation.Stage κ) :
    veilOperations who (ops.modify i fun o => { o with stage := st }) =
      (veilOperations who ops).modify i fun o =>
        { o with stage := veilIf (who i) Operation.Stage.veil st } := by
  refine List.ext_getElem? fun j => ?_
  simp only [veilOperations, List.getElem?_mapIdx, List.getElem?_modify]
  cases ops[j]? with
  | none => simp
  | some o =>
    by_cases hj : i = j
    · subst hj
      cases hw : who i <;> simp [veilIf, Operation.veil]
    · simp [hj]

/-- An operation that begins, behind the veil. -/
@[simp] theorem veilOperations_append (o : Operation κ) :
    veilOperations who (ops ++ [o]) =
      veilOperations who ops ++ [veilIf (who ops.length) Operation.veil o] := by
  simp [veilOperations, List.mapIdx_append]

@[simp] theorem veilDeliveries_set (d : DeliveryId) (x : Delivery) :
    veilDeliveries who (xs.set d x) = (veilDeliveries who xs).set d (x.veil who) := by
  simp [veilDeliveries, List.map_set]

@[simp] theorem veilDeliveries_append (x : Delivery) :
    veilDeliveries who (xs ++ [x]) = veilDeliveries who xs ++ [x.veil who] := by
  simp [veilDeliveries]

@[simp] theorem veilDeliveries_modify (d : DeliveryId) :
    veilDeliveries who (xs.modify d Delivery.abandon) =
      (veilDeliveries who xs).modify d Delivery.abandon := by
  refine List.ext_getElem? fun j => ?_
  simp only [veilDeliveries, List.getElem?_map, List.getElem?_modify]
  cases xs[j]? with
  | none => simp
  | some x => by_cases hj : d = j <;> simp [hj, Delivery.veil, Delivery.abandon]

/-- An operation put into the stage it is in. -/
theorem modify_stage_self {i : OperationId} {o : Operation κ} (h : ops[i]? = some o) :
    (ops.modify i fun o' => { o' with stage := o.stage }) = ops := by
  obtain ⟨hlt, rfl⟩ := List.getElem?_eq_some_iff.mp h
  rw [modify_eq_set_of_getElem? _ h]
  exact List.set_getElem_self hlt

end Lists

namespace Service

variable {who : OperationId → Bool} {s : Service κ} {i : OperationId} {d : DeliveryId}
  {x : Delivery}

/-- The operation at a place, behind the veil. -/
theorem veil_operation (who : OperationId → Bool) {r : Request κ} {st : Operation.Stage κ}
    (h : s.operations[i]? = some ⟨r, st⟩) :
    (s.veil who).operations[i]? =
      some ⟨veilIf (who i) Request.veil r, veilIf (who i) Operation.Stage.veil st⟩ := by
  simp only [veil, getElem?_veilOperations, h]
  cases who i <;> rfl

theorem veil_operation_none (h : s.operations[i]? = none) :
    (s.veil who).operations[i]? = none := by
  simp [veil, getElem?_veilOperations, h]

/-- The delivery at a place, behind the veil. -/
theorem veil_delivery (h : s.deliveries[d]? = some x) :
    (s.veil who).deliveries[d]? = some (x.veil who) := by
  simp [veil, getElem?_veilDeliveries, h]

theorem veil_delivery_none (h : s.deliveries[d]? = none) :
    (s.veil who).deliveries[d]? = none := by
  simp [veil, getElem?_veilDeliveries, h]

/-- A step that may be possible, with the veil over what it leads to. -/
def veilMove? (who : OperationId → Bool) (m : Option (Move κ)) : Option (Move κ) :=
  m.map (veilMove who)

/-- A step that is possible under a condition the veil does not hide. -/
theorem veilMove?_ite {c : Bool} {m m' : Option (Move κ)}
    (h : c = true → veilMove? who m = veilMove? who m') :
    veilMove? who (if c then m else none) = veilMove? who (if c then m' else none) := by
  cases c
  · rfl
  · exact h rfl

end Service

end TxDelivery
