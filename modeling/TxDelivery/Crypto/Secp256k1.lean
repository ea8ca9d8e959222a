import TxDelivery.Crypto.Sha256

/-!
# Signatures over secp256k1

Public keys and recoverable signatures on the curve `y² = x³ + 7` over the field of `p` elements,
whose base point `G` has prime order `n`.

* Points are kept in projective coordinates with `x = X / Z²` and `y = Y / Z³`
  (`TxDelivery.Secp256k1.Point`), so that only the final result needs a division.
* The secret number of a signature is derived from key and digest, so that signing is a function
  (`TxDelivery.Secp256k1.Generator`).
* `TxDelivery.Secp256k1.sign?` returns the signature with the smaller of the two possible `s`.
-/

namespace TxDelivery

namespace Secp256k1

/-- The number of elements of the field. -/
def p : Nat := Nat.pow 2 256 - Nat.pow 2 32 - 977

/-- The order of the base point. -/
def n : Nat := 0xfffffffffffffffffffffffffffffffebaaedce6af48a03bbfd25e8cd0364141

/-- `b ^ e` modulo `m`, by squaring. -/
def powMod (m b e : Nat) : Nat :=
  if _h : e = 0 then 1 % m
  else
    let half := powMod m (b * b % m) (e / 2)
    if e % 2 = 1 then half * b % m else half
termination_by e
decreasing_by omega

/-- The inverse of `a` modulo a prime `m`. -/
def invMod (m a : Nat) : Nat := powMod m a (m - 2)

/-- A point in projective coordinates; `z = 0` is the point at infinity. -/
structure Point where
  /-- `x` times the square of `z`. -/
  x : Nat
  /-- `y` times the cube of `z`. -/
  y : Nat
  /-- The common denominator. -/
  z : Nat
  deriving DecidableEq, Repr

namespace Point

/-- The point at infinity. -/
def infinity : Point := ⟨1, 1, 0⟩

/-- The base point. -/
def base : Point :=
  ⟨0x79be667ef9dcbbac55a06295ce870b07029bfcdb2dce28d959f2815b16f81798,
   0x483ada7726a3c4655da4fbfc0e1108a8fd17b448a68554199c47d08ffb10d4b8, 1⟩

/-- The difference modulo `p` of two reduced numbers. -/
def sub (a b : Nat) : Nat := (a + p - b) % p

/-- The sum of a point with itself. -/
def double (q : Point) : Point :=
  if q.z = 0 ∨ q.y = 0 then infinity
  else
    let yy := q.y * q.y % p
    let s := 4 * q.x * yy % p
    let m := 3 * q.x * q.x % p
    let x := sub (m * m % p) (2 * s % p)
    let y := sub (m * sub s x % p) (8 * yy * yy % p)
    ⟨x, y, 2 * q.y * q.z % p⟩

/-- The sum of two points. -/
def add (q r : Point) : Point :=
  if q.z = 0 then r
  else if r.z = 0 then q
  else
    let qz := q.z * q.z % p
    let rz := r.z * r.z % p
    let u1 := q.x * rz % p
    let u2 := r.x * qz % p
    let s1 := q.y * rz % p * r.z % p
    let s2 := r.y * qz % p * q.z % p
    if u1 = u2 then (if s1 = s2 then double q else infinity)
    else
      let h := sub u2 u1
      let w := sub s2 s1
      let hh := h * h % p
      let hhh := h * hh % p
      let v := u1 * hh % p
      let x := sub (sub (w * w % p) hhh) (2 * v % p)
      let y := sub (w * sub v x % p) (s1 * hhh % p)
      ⟨x, y, h * q.z % p * r.z % p⟩

/-- `k` times a point. -/
def scale (k : Nat) (q : Point) : Point :=
  if _h : k = 0 then infinity
  else
    let rest := scale (k / 2) (double q)
    if k % 2 = 1 then add q rest else rest
termination_by k
decreasing_by omega

/-- The coordinates of a finite point. -/
def affine (q : Point) : Nat × Nat :=
  let zi := invMod p q.z
  let zz := zi * zi % p
  (q.x * zz % p, q.y * zz % p * zi % p)

end Point

/-- The coordinates of the public key of a secret key. -/
def publicKey (key : Nat) : Nat × Nat := (Point.scale key Point.base).affine

/-- A signature with the parity of the `y` coordinate that lets the signer be recovered. -/
structure Signature where
  /-- Whether that coordinate is odd. -/
  odd : Bool
  /-- The first number. -/
  r : BitVec 256
  /-- The second number. -/
  s : BitVec 256
  deriving DecidableEq, Repr

/-- The key and value of the generator of secret numbers. -/
structure Generator where
  /-- The key. -/
  k : Bytes
  /-- The value. -/
  v : Bytes

namespace Generator

/-- Mixes data into the generator. -/
def mix (g : Generator) (mark : UInt8) (data : Bytes) : Generator :=
  let k := Sha256.hmac g.k (g.v ++ mark :: data)
  ⟨k, Sha256.hmac k g.v⟩

/-- The generator for a key and a digest. -/
def seed (key digest : Nat) : Generator :=
  let data := Bytes.ofNat 32 key ++ Bytes.ofNat 32 (digest % n)
  (Generator.mix ⟨List.replicate 32 0, List.replicate 32 1⟩ 0 data).mix 1 data

/-- The next candidate. -/
def next (g : Generator) : Nat × Generator :=
  let v := Sha256.hmac g.k g.v
  (v.toNat, ⟨g.k, v⟩)

/-- The generator after a candidate was refused. -/
def reject (g : Generator) : Generator := g.mix 0 []

end Generator

/-- The signature made with a secret number, unless one of its parts is zero. Of `s` and `n - s` the
smaller is taken, which turns the parity over. -/
def signWith? (key digest secret : Nat) : Option Signature :=
  if secret = 0 ∨ n ≤ secret then none
  else
    let (x, y) := (Point.scale secret Point.base).affine
    let r := x % n
    let s := invMod n secret * (digest % n + r * key) % n
    if r = 0 ∨ s = 0 then none
    else if n / 2 < s then some ⟨y % 2 = 0, BitVec.ofNat 256 r, BitVec.ofNat 256 (n - s)⟩
    else some ⟨y % 2 = 1, BitVec.ofNat 256 r, BitVec.ofNat 256 s⟩

/-- The first of `attempts` candidates that makes a signature. -/
def signFrom? (key digest : Nat) : (attempts : Nat) → Generator → Option Signature
  | 0, _ => none
  | attempts + 1, g =>
    let (candidate, g) := g.next
    match signWith? key digest candidate with
    | some signature => some signature
    | none => signFrom? key digest attempts g.reject

/-- **The signature of a digest** under a secret key. A candidate is refused with a chance of about
one in `2 ^ 128`, so the bound on attempts is never met. -/
def sign? (key : Nat) (digest : Bytes) : Option Signature :=
  signFrom? key digest.toNat 64 (Generator.seed key digest.toNat)

end Secp256k1

end TxDelivery
