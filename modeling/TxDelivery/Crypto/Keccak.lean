import TxDelivery.Bytes

/-!
# Keccak-256

The sponge over twenty-five 64-bit lanes with a rate of 136 bytes and a padding that starts with a
single one bit, as the chain uses it for transaction hashes and addresses. Lane `x + 5 * y` stands
at column `x` and row `y`. `TxDelivery.Keccak.hash` is the digest of a byte string.

A message is padded to whole blocks, and the blocks are absorbed one after another by recursion on
their number. The permutation is twenty-four rounds, which differ in a constant, and a round is
three maps of the state and the addition of the constant. The step that turns lanes and the step
that moves them are one map here (`TxDelivery.Keccak.rhoPi`), told from where each lane comes.

The padding is what tells this digest from the later standard of the same family, where it starts
with other bits.
-/

namespace TxDelivery

namespace Keccak

/-- The state of the sponge. -/
abbrev Lanes := Array UInt64

/-- The lane at a place. -/
def lane (s : Lanes) (i : Nat) : UInt64 := s.getD i 0

/-- A word turned left by `k` places, for `k` below sixty-four. -/
def rotate (x : UInt64) (k : Nat) : UInt64 :=
  if k = 0 then x else (x <<< UInt64.ofNat k) ||| (x >>> UInt64.ofNat (64 - k))

/-- The constants that tell the rounds apart. -/
def roundConstants : List UInt64 :=
  [0x0000000000000001, 0x0000000000008082, 0x800000000000808a, 0x8000000080008000,
   0x000000000000808b, 0x0000000080000001, 0x8000000080008081, 0x8000000000008009,
   0x000000000000008a, 0x0000000000000088, 0x0000000080008009, 0x000000008000000a,
   0x000000008000808b, 0x800000000000008b, 0x8000000000008089, 0x8000000000008003,
   0x8000000000008002, 0x8000000000000080, 0x000000000000800a, 0x800000008000000a,
   0x8000000080008081, 0x8000000000008080, 0x0000000080000001, 0x8000000080008008]

/-- How far each lane is turned. -/
def offsets : Array Nat :=
  #[0, 1, 62, 28, 27, 36, 44, 6, 55, 20, 3, 10, 43, 25, 39, 41, 45, 15, 21, 8, 18, 2, 61, 56, 14]

/-- Adds to every lane the parities of two neighbouring columns. -/
def theta (s : Lanes) : Lanes :=
  let c : Lanes := Array.ofFn fun (x : Fin 5) =>
    lane s x ^^^ lane s (x + 5) ^^^ lane s (x + 10) ^^^ lane s (x + 15) ^^^ lane s (x + 20)
  let d : Lanes := Array.ofFn fun (x : Fin 5) =>
    lane c ((x + 4 : Nat) % 5) ^^^ rotate (lane c ((x + 1 : Nat) % 5)) 1
  Array.ofFn fun (i : Fin 25) => lane s i ^^^ lane d (i % 5)

/-- Turns the lanes and moves them: the lane for column `x` and row `y` comes from column
`x + 3 * y` and row `x`. -/
def rhoPi (s : Lanes) : Lanes :=
  Array.ofFn fun (i : Fin 25) =>
    let x := i.val % 5
    let y := i.val / 5
    let j := (x + 3 * y) % 5 + 5 * x
    rotate (lane s j) (offsets.getD j 0)

/-- Combines each lane with the two that follow it in its row. -/
def chi (s : Lanes) : Lanes :=
  Array.ofFn fun (i : Fin 25) =>
    let x := i.val % 5
    let row := i.val - x
    lane s i ^^^ ((~~~ lane s (row + (x + 1) % 5)) &&& lane s (row + (x + 2) % 5))

/-- One round. -/
def round (s : Lanes) (constant : UInt64) : Lanes :=
  let s := chi (rhoPi (theta s))
  s.setIfInBounds 0 (lane s 0 ^^^ constant)

/-- The permutation of the sponge. -/
def permute (s : Lanes) : Lanes := roundConstants.foldl round s

/-- Bytes absorbed between two permutations. -/
def rate : Nat := 136

/-- The number whose little-endian bytes these are. -/
def littleEndian (bs : Bytes) : Nat := bs.foldr (fun b n => n * 256 + b.toNat) 0

/-- Adds a block of `rate` bytes to the state and permutes. -/
def absorb (s : Lanes) (block : Bytes) : Lanes :=
  permute (Array.ofFn fun (i : Fin 25) =>
    lane s i ^^^ UInt64.ofNat (littleEndian ((block.drop (8 * i)).take 8)))

/-- The message filled up to a multiple of the rate: a one bit, zeros, and a last one bit. -/
def pad (message : Bytes) : Bytes :=
  let room := rate - message.length % rate
  if room = 1 then message ++ [0x81]
  else message ++ 0x01 :: List.replicate (room - 2) 0 ++ [0x80]

/-- Absorbs `blocks` blocks of a padded message. -/
def absorbAll : (blocks : Nat) → Lanes → Bytes → Lanes
  | 0, s, _ => s
  | n + 1, s, message => absorbAll n (absorb s (message.take rate)) (message.drop rate)

/-- The little-endian bytes of a lane. -/
def laneBytes (x : UInt64) : Bytes := (Bytes.ofNat 8 x.toNat).reverse

/-- **The digest of a byte string**, thirty-two bytes. -/
def hash (message : Bytes) : Bytes :=
  let padded := pad message
  let s := absorbAll (padded.length / rate) (Array.replicate 25 0) padded
  (List.range 4).flatMap fun i => laneBytes (lane s i)

end Keccak

end TxDelivery
