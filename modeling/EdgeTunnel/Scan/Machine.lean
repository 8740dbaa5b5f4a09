/-
A scan as a machine: probes are started while a slot is free, they end in any order, and the scan may be stopped at any
time.

A probe holds a slot from its start to its end. Starting one draws the next candidate, a port, and the seed of the probe's
own random source. A probe that ends with a round trip is recorded in the same step. Once the scan is stopped nothing is
started, but the probes in flight end on their own, and one that has its round trip by then is still recorded.
-/
import EdgeTunnel.Scan.Cache
import EdgeTunnel.Scan.Config

namespace EdgeTunnel.Scan

/-- a probe in flight: its number in the order of starting, its target and the seed of its random source -/
structure Probe where
  id : Nat
  target : SocketAddress
  seed : UInt64
  deriving DecidableEq

/-- a scan under way -/
structure State (σ : Type) where
  source : Candidates
  rng : σ
  cache : Cache
  flying : List Probe
  /-- how many probes were ever started -/
  started : Nat
  stopped : Bool

inductive Event where
  | start
  /-- a probe ends, with a round trip if it succeeded -/
  | finish (id : Nat) (rtt : Option Span)
  | stop
  deriving DecidableEq

namespace State

variable {σ : Type} [RandomSource σ]

def new (source : Candidates) (rng : σ) : State σ := ⟨source, rng, .empty, [], 0, false⟩

/-- the next probe, and the random source and the candidates after it -/
def draw (c : ScanConfig) (s : State σ) : Probe × Candidates × σ :=
  let (ip, source, rng) := s.source.next s.rng
  let (i, rng) := Random.below .w64 c.ports.length rng
  let (seed, rng) := RandomSource.word64 rng
  (⟨s.started, .of ip (c.ports.getD i Catalogue.probePort), seed⟩, source, rng)

def hasSlot (c : ScanConfig) (s : State σ) : Bool := !s.stopped && decide (s.flying.length < c.concurrency)

/-- a probe is started, if a slot is free -/
def start (c : ScanConfig) (s : State σ) : State σ :=
  if s.hasSlot c then
    let (p, source, rng) := s.draw c
    { s with source, rng, flying := s.flying ++ [p], started := s.started + 1 }
  else s

/-- the record of a probe that succeeded -/
def record (c : ScanConfig) (p : Probe) (cache : Cache) : Option Span → Cache
  | none => cache
  | some rtt => (cache.record c.maxRtt ⟨p.target, rtt⟩).2

/-- a probe ends, if it is in flight -/
def finish (c : ScanConfig) (s : State σ) (id : Nat) (rtt : Option Span) : State σ :=
  match s.flying.find? (·.id == id) with
  | none => s
  | some p => { s with flying := s.flying.filter (·.id != id), cache := record c p s.cache rtt }

/-- the scan is stopped -/
def stop (s : State σ) : State σ := { s with stopped := true }

def step (c : ScanConfig) (s : State σ) : Event → State σ
  | .start => s.start c
  | .finish id rtt => s.finish c id rtt
  | .stop => s.stop

def run (c : ScanConfig) (s : State σ) (es : List Event) : State σ := es.foldl (step c) s

/-- the result, once enough addresses have answered: the fastest of them -/
def found? (c : ScanConfig) (s : State σ) : Option (List Answer) :=
  if c.wanted ≤ s.cache.size then some (s.cache.ranked.take c.wanted) else none

end State

inductive ScanError where
  | canceled
  | deadlineExceeded (found wanted : Nat) (best : Option Span)
  | unusable
  | candidates (cause : CidrError)
  deriving DecidableEq

namespace ScanError

def message : ScanError → String
  | .canceled => "Scan canceled"
  | .deadlineExceeded n m (some rtt) => s!"Scan deadline exceeded with {n} of {m} endpoints: best RTT {rtt.text}"
  | .deadlineExceeded n m none => s!"Scan deadline exceeded with {n} of {m} endpoints: no candidates answered"
  | .unusable => "Invalid scan configuration: wanted, concurrency and ports must be non-empty"
  | .candidates e => s!"Address source error: {e.message}"

def chain (e : ScanError) : List String :=
  e.message :: (match e with
    | .candidates c => [c.message]
    | _ => [])

end ScanError

end EdgeTunnel.Scan
