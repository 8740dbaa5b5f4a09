/-
Random sources and the numbers drawn from them.

A source is a state that yields words and bytes. `below` draws a number under a bound without bias: a random word is
multiplied by the bound, the high half is the answer, and the draw is repeated while the low half lies in the part of the
range that would be over-represented. A draw is repeated at most `patience` times; after that its answer is zero, which
every bound allows, so drawing always ends.
-/
import EdgeTunnel.Power

namespace EdgeTunnel

/-- a state that yields random words and bytes -/
class RandomSource (σ : Type) where
  /-- the next 32 random bits -/
  word32 : σ → UInt32 × σ
  /-- the next 64 random bits -/
  word64 : σ → UInt64 × σ
  /-- so many random bytes -/
  bytes : Nat → σ → List UInt8 × σ
  /-- how often a refused draw is repeated -/
  patience : Nat

namespace Random

variable {σ : Type} [RandomSource σ]

inductive WordSize where
  | w32
  | w64
  | w128
  deriving DecidableEq

def WordSize.bits : WordSize → Nat
  | .w32 => 32
  | .w64 => 64
  | .w128 => 128

/-- one random word; a 128-bit word is two 64-bit words, the low half first -/
def word (w : WordSize) (s : σ) : Nat × σ :=
  match w with
  | .w32 => let (v, s) := RandomSource.word32 s; (v.toNat, s)
  | .w64 => let (v, s) := RandomSource.word64 s; (v.toNat, s)
  | .w128 =>
    let (lo, s) := RandomSource.word64 s
    let (hi, s) := RandomSource.word64 s
    (hi.toNat * 2 ^ 64 + lo.toNat, s)

/-- the largest low half that is accepted: the bound scaled up to fill the word, less one -/
def zone (w : WordSize) (n : Nat) : Nat := n * 2 ^ (w.bits - 1 - n.log2) - 1

/-- a number under a non-zero bound, with so many attempts left -/
def attempt (w : WordSize) (n : Nat) : Nat → σ → Nat × σ
  | 0, s => (0, s)
  | k + 1, s =>
    let (v, s) := word w s
    if v * n % 2 ^ w.bits ≤ zone w n then (v * n / 2 ^ w.bits, s) else attempt w n k s

/-- a number under a non-zero bound -/
def below (w : WordSize) (n : Nat) (s : σ) : Nat × σ := attempt w n (RandomSource.patience σ) s

/-- a number from `a` to `b`, both included -/
def between (w : WordSize) (a b : Nat) (s : σ) : Nat × σ :=
  let (k, s) := below w (b - a + 1) s
  (a + k, s)

/-- one entry of a list, nothing from an empty one -/
def choose {α : Type} (xs : List α) (s : σ) : Option α × σ :=
  if xs.isEmpty then (none, s)
  else
    let (i, s) := below .w32 xs.length s
    (xs[i]?, s)

end Random

end EdgeTunnel
