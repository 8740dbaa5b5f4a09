/-
Times as the system's clock gives them, and their labels in words.

A time is a signed word of whole seconds after the epoch, negative before it, and the nanoseconds that have passed since then.
Its label takes the time since the epoch, none for a time before it, and adds the label of the epoch to the seconds; a sum
that does not fit into a word has no value.
-/
import EdgeTunnel.Handshake.Timestamp
import EdgeTunnel.Word

namespace EdgeTunnel.Handshake

/-- a time: whole seconds and nanoseconds after the epoch -/
structure SystemTime where
  seconds : Int64
  nanos : Fin 1000000000
  deriving DecidableEq, Repr

namespace SystemTime

def epoch : SystemTime := ⟨0, 0⟩

/-- times are in the order of their seconds, then of their nanoseconds -/
instance : LT SystemTime := ⟨fun s t => s.seconds < t.seconds ∨ s.seconds = t.seconds ∧ s.nanos < t.nanos⟩

instance : DecidableLT SystemTime := fun s t =>
  inferInstanceAs (Decidable (s.seconds < t.seconds ∨ s.seconds = t.seconds ∧ s.nanos < t.nanos))

instance : LE SystemTime := ⟨fun s t => s < t ∨ s = t⟩

def moment (t : SystemTime) : Moment := .of t.seconds.toInt t.nanos

/-- the seconds and nanoseconds since the epoch, none for a time before it -/
def sinceEpoch (t : SystemTime) : UInt64 × UInt32 :=
  if t < epoch then (0, 0) else (t.seconds.toUInt64, UInt32.ofNat t.nanos)

/-- the seconds of the label, if they fit -/
def labelSeconds? (t : SystemTime) : Option UInt64 := Word.add? (UInt64.ofNat epochLabel) t.sinceEpoch.1

/-- the label, if its seconds fit -/
def label? (t : SystemTime) : Option (List UInt8) :=
  t.labelSeconds?.map fun seconds => Crypto.bigEndian 8 seconds.toNat ++ Crypto.bigEndian 4 t.sinceEpoch.2.toNat

end SystemTime

end EdgeTunnel.Handshake
