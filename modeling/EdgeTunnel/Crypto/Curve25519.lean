/-
The key agreement on Curve25519.

A private key is a scalar with its low three bits cleared and its top bits fixed; a public key is the first coordinate of
a point. Scalar multiplication walks the scalar's bits from the top with two points whose difference stays the given one.
Coordinates are fractions, divided out at the end by a power, since in this field the inverse of z is its power p - 2.
-/
import EdgeTunnel.Crypto.LittleEndian

namespace EdgeTunnel.Crypto.Curve25519

def p : Nat := 2 ^ 255 - 19

def add (a b : Nat) : Nat := (a + b) % p

def sub (a b : Nat) : Nat := (a + p - b) % p

def mul (a b : Nat) : Nat := a * b % p

/-- a power in the field; `bits` bounds the size of the exponent -/
def pow (a : Nat) : (bits e : Nat) → Nat
  | 0, _ => 1
  | k + 1, e =>
    let h := pow (mul a a) k (e / 2)
    if e % 2 = 1 then mul a h else h

/-- two points of the walk as fractions -/
structure Pair where
  x2 : Nat
  z2 : Nat
  x3 : Nat
  z3 : Nat

def Pair.swap (s : Pair) : Pair := ⟨s.x3, s.z3, s.x2, s.z2⟩

/-- the first point doubled and the sum of both, when their difference is `u` -/
def Pair.ladder (u : Nat) (s : Pair) : Pair :=
  let a := add s.x2 s.z2
  let aa := mul a a
  let b := sub s.x2 s.z2
  let bb := mul b b
  let e := sub aa bb
  let c := add s.x3 s.z3
  let d := sub s.x3 s.z3
  let da := mul d a
  let cb := mul c b
  let sum := add da cb
  let diff := sub da cb
  ⟨mul aa bb, mul e (add aa (mul 121665 e)), mul sum sum, mul u (mul diff diff)⟩

/-- the walk over the lowest `n` bits of the scalar, highest first -/
def walk (u k : Nat) : Nat → Pair → Pair
  | 0, s => s
  | n + 1, s =>
    if k / 2 ^ n % 2 = 1 then walk u k n (Pair.ladder u s.swap).swap else walk u k n (Pair.ladder u s)

/-- the first coordinate of a multiple of a point, zero for the point at infinity -/
def multiple (k u : Nat) : Nat :=
  let s := walk u k 255 ⟨1, 0, u, 1⟩
  mul s.x2 (pow s.z2 255 (p - 2))

/-- the scalar of a private key: low three bits cleared, bit 254 set, bit 255 cleared -/
def scalar (key : List UInt8) : Nat :=
  let n := natOfBytes key
  n % 2 ^ 254 / 8 * 8 + 2 ^ 254

/-- the coordinate of a public key: the top bit is ignored -/
def coordinate (key : List UInt8) : Nat := natOfBytes key % 2 ^ 255 % p

def publicKey (priv : List UInt8) : List UInt8 := bytesOfNat 32 (multiple (scalar priv) 9)

/-- the shared secret of a private key and a peer's public key -/
def shared (priv peer : List UInt8) : List UInt8 := bytesOfNat 32 (multiple (scalar priv) (coordinate peer))

end EdgeTunnel.Crypto.Curve25519
