/-!
# The nonce cache

What is known of the sender's next nonce, and how one is handed out: asked from the chain while
nothing is known, otherwise one more than the last. **A nonce counts as handed out only when the
work done with it succeeds**, so a failed signature leaves no gap
(`TxDelivery.NonceState.allocate`).

Here a nonce is handed out at one stroke. In the service it takes several steps of a submission,
from `TxDelivery.Service.resumeSubmission` to `TxDelivery.Service.broadcastFirst`, with the nonce
lock around them and with steps of others in between. These steps come to
`TxDelivery.NonceState.allocate` (`TxDelivery.Service.History.allocates`), and those of many
submissions to `TxDelivery.NonceState.allocateMany`
(`TxDelivery.Service.History.commits_eq_allocateMany`), with as many questions to the chain as
`TxDelivery.NonceState.fetches` counts (`TxDelivery.Service.History.fetchCount_eq_fetches`).
-/

namespace TxDelivery

/-- A transaction counter of an account. -/
abbrev Nonce := UInt64

/-- What is known of the sender's next nonce. -/
inductive NonceState where
  /-- It has to be asked from the chain. -/
  | unknown
  /-- The last one handed out. -/
  | known (last : Nonce)
  deriving DecidableEq, Repr, Inhabited

namespace NonceState

/-- The next nonce, where the chain need not be asked. -/
def candidate? : NonceState → Option Nonce
  | unknown => none
  | known last => some (last + 1)

/-- The nonce to work with, the chain answering `fetch` if it is asked. -/
def candidate {ε : Type} (s : NonceState) (fetch : Except ε Nonce) : Except ε Nonce :=
  match s.candidate? with
  | some n => return n
  | none => fetch

/-- **Handing out the next nonce**: `work` runs with it, and only its success is remembered. -/
def allocate {ε α : Type} (s : NonceState) (fetch : Except ε Nonce) (work : Nonce → Except ε α) :
    Except ε α × NonceState :=
  match s.candidate fetch with
  | .error e => (.error e, s)
  | .ok n =>
    match work n with
    | .error e => (.error e, s)
    | .ok a => (.ok a, known n)

/-- Whether handing out the next nonce asks the chain. -/
def asksChain (s : NonceState) : Bool := s.candidate?.isNone

/-- **Several callers at once** get their nonces one after another. -/
def allocateMany {ε : Type} (fetch : Except ε Nonce) :
    (callers : Nat) → NonceState → List (Except ε Nonce) × NonceState
  | 0, s => ([], s)
  | n + 1, s =>
    let (r, s) := s.allocate fetch pure
    let (rs, s) := allocateMany fetch n s
    (r :: rs, s)

/-- How often `n` callers at once ask the chain. -/
def fetches {ε : Type} (fetch : Except ε Nonce) : (callers : Nat) → NonceState → Nat
  | 0, _ => 0
  | n + 1, s => (if s.asksChain then 1 else 0) + fetches fetch n (s.allocate fetch pure).2

end NonceState

end TxDelivery
