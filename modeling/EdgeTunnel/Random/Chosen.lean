/-
A random source chosen at run time: given words or a seed.
-/
import EdgeTunnel.Random.Seeded
import EdgeTunnel.Random.Words

namespace EdgeTunnel.Random

/-- one of the two sources -/
inductive Chosen where
  | words (s : Words)
  | seeded (s : Seeded)

instance : RandomSource Chosen where
  word32
    | .words s => let (w, s) := RandomSource.word32 s; (w, .words s)
    | .seeded s => let (w, s) := RandomSource.word32 s; (w, .seeded s)
  word64
    | .words s => let (w, s) := RandomSource.word64 s; (w, .words s)
    | .seeded s => let (w, s) := RandomSource.word64 s; (w, .seeded s)
  bytes n
    | .words s => let (bs, s) := RandomSource.bytes n s; (bs, .words s)
    | .seeded s => let (bs, s) := RandomSource.bytes n s; (bs, .seeded s)
  patience := 2 ^ 64

end EdgeTunnel.Random
