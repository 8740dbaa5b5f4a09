/-
A source of given words.

It yields the words of a list and then those of a mixing generator: a counter stepped by a constant and stirred by two
multiplications. A 32-bit word is the low half of a 64-bit word, and bytes are the words' bytes, lowest first.
-/
import EdgeTunnel.Random.Source

namespace EdgeTunnel.Random

def wordBytes (v : UInt64) : List UInt8 := (List.range 8).map fun i => (v >>> (8 * i).toUInt64).toUInt8

/-- the words still to come and the counter that follows them -/
structure Words where
  given : List UInt64
  state : UInt64

namespace Words

def next (s : Words) : UInt64 × Words :=
  match s.given with
  | w :: r => (w, { s with given := r })
  | [] =>
    let c := s.state + 0x9E3779B97F4A7C15
    let z := (c ^^^ (c >>> 30)) * 0xBF58476D1CE4E5B9
    let z := (z ^^^ (z >>> 27)) * 0x94D049BB133111EB
    (z ^^^ (z >>> 31), { s with state := c })

def take : Nat → Words → List UInt64 × Words
  | 0, s => ([], s)
  | n + 1, s =>
    let (w, s) := s.next
    let (ws, s) := take n s
    (w :: ws, s)

instance : RandomSource Words where
  word32 s := let (w, s) := s.next; (w.toUInt32, s)
  word64 := next
  bytes n s :=
    let (ws, s) := take ((n + 7) / 8) s
    ((ws.flatMap wordBytes).take n, s)
  patience := 2 ^ 64

end Words

end EdgeTunnel.Random
