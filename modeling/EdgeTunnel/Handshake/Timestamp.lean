/-
Handshake timestamps.

A timestamp is a TAI64N label: eight bytes of seconds and four bytes of nanoseconds, highest byte first, so that labels
compare as byte strings the way their times do. The label of the epoch is 2^62 + 10 seconds; an earlier time has that
label too.
-/
import EdgeTunnel.Crypto.LittleEndian

namespace EdgeTunnel.Handshake

/-- the label of the epoch in seconds -/
def epochLabel : Nat := 2 ^ 62 + 10

/-- a moment as nanoseconds after the epoch, negative before it -/
structure Moment where
  nanos : Int
  deriving DecidableEq, Repr

/-- the moment that many seconds and nanoseconds after the epoch -/
def Moment.of (secs : Int) (nanos : Nat) : Moment := ⟨secs * 1000000000 + nanos⟩

/-- the label of a moment -/
def timestamp (t : Moment) : List UInt8 :=
  let n := t.nanos.toNat
  Crypto.bigEndian 8 (epochLabel + n / 1000000000) ++ Crypto.bigEndian 4 (n % 1000000000)

theorem length_timestamp (t : Moment) : (timestamp t).length = 12 := by simp [timestamp]

end EdgeTunnel.Handshake
