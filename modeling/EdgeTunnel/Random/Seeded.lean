/-
The seeded random source.

Its words are the ChaCha blocks of twelve rounds under a key, with a 64-bit block counter from zero. The key is expanded
from a 64-bit seed by a small generator: a multiply-and-add step whose state, folded and rotated, gives one key word a
step. A 64-bit word is two 32-bit words, the low one first; bytes use up whole words.
-/
import EdgeTunnel.Crypto.ChaCha
import EdgeTunnel.Random.Source

namespace EdgeTunnel.Random

/-- the key, the number of the next block, and the words left of the current one -/
structure Seeded where
  key : List UInt32
  counter : UInt64
  left : List UInt32

namespace Seeded

/-- so many key words expanded from a seed -/
def expand : Nat → UInt64 → List UInt32
  | 0, _ => []
  | n + 1, s =>
    let s := s * 6364136223846793005 + 11634580027462260723
    let x := (((s >>> 18) ^^^ s) >>> 27).toUInt32
    let r := (s >>> 59).toUInt32
    ((x >>> r) ||| (x <<< ((32 - r) % 32))) :: expand n s

def ofSeed (seed : UInt64) : Seeded := ⟨expand 8 seed, 0, []⟩

/-- the words of the block that the counter numbers -/
def nextBlock (s : Seeded) : List UInt32 :=
  Crypto.ChaCha.block 6 s.key ⟨s.counter.toUInt32, (s.counter >>> 32).toUInt32, 0, 0⟩

def next (s : Seeded) : UInt32 × Seeded :=
  match s.left with
  | w :: r => (w, { s with left := r })
  | [] =>
    match s.nextBlock with
    | w :: r => (w, { s with left := r, counter := s.counter + 1 })
    | [] => (0, s)

def take : Nat → Seeded → List UInt32 × Seeded
  | 0, s => ([], s)
  | n + 1, s =>
    let (w, s) := s.next
    let (ws, s) := take n s
    (w :: ws, s)

instance : RandomSource Seeded where
  word32 := next
  word64 s :=
    let (lo, s) := s.next
    let (hi, s) := s.next
    (hi.toUInt64 <<< 32 ||| lo.toUInt64, s)
  bytes n s :=
    let (ws, s) := take ((n + 3) / 4) s
    ((ws.flatMap Crypto.bytesOfWord).take n, s)
  patience := 2 ^ 64

end Seeded

end EdgeTunnel.Random
