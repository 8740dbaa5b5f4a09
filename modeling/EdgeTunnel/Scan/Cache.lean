/-
The answers of a scan.

An answer counts when its round trip is within the limit and its address has not answered before; the shortest round trip
is kept of every answer, counted or not.
-/
import EdgeTunnel.Net.SocketAddress
import EdgeTunnel.Span

namespace EdgeTunnel.Scan

/-- an endpoint that answered, and how fast -/
structure Answer where
  target : SocketAddress
  rtt : Span
  deriving DecidableEq

namespace Answer

/-- the numbers that answers are ranked by: the round trip, then family, address and port -/
def rank (a : Answer) : List Nat := [a.rtt.nanos, a.target.key.1, a.target.key.2.1, a.target.key.2.2]

/-- does a list of numbers come no later than another, the first place where they differ deciding? -/
def noLater : List Nat → List Nat → Bool
  | [], _ => true
  | _ :: _, [] => false
  | x :: xs, y :: ys => decide (x < y) || (x == y && noLater xs ys)

/-- is `a` ranked no later than `b`? -/
def le (a b : Answer) : Bool := noLater a.rank b.rank

end Answer

/-- the answers that count, in the order they came, and the shortest round trip of all -/
structure Cache where
  entries : List Answer
  best : Option Span
  deriving DecidableEq

namespace Cache

def empty : Cache := ⟨[], none⟩

def has (c : Cache) (ip : Ip) : Bool := c.entries.any (·.target.ip == ip)

/-- does an answer count? -/
def accepts (c : Cache) (limit : Span) (a : Answer) : Bool := decide (a.rtt ≤ limit) && !c.has a.target.ip

/-- the shorter of a round trip and the best so far -/
def shorter (best : Option Span) (rtt : Span) : Option Span :=
  match best with
  | some b => some (if b ≤ rtt then b else rtt)
  | none => some rtt

/-- whether an answer counts, and the cache after it -/
def record (c : Cache) (limit : Span) (a : Answer) : Bool × Cache :=
  let kept := c.accepts limit a
  (kept, ⟨if kept then c.entries ++ [a] else c.entries, shorter c.best a.rtt⟩)

/-- the number of addresses that answered in time -/
def size (c : Cache) : Nat := c.entries.length

/-- the entries, fastest first -/
def ranked (c : Cache) : List Answer := c.entries.mergeSort Answer.le

end Cache

end EdgeTunnel.Scan
