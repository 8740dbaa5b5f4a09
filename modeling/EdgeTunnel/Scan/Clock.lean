/-
Scans on a clock.

A script says how long the probe of a target takes and what it reports. The scan goes from instant to instant. At an
instant the scan is over if it is canceled, if its deadline has come, or if this is a time to look and enough addresses
have answered, in this order; if it is not over, the probes that are due end, and then probes are started while a slot is
free. So a probe that would end at the very instant at which the scan is decided leaves no record. A probe takes at least
a millisecond, and so does the time between two looks.

Between two instants every task waits: a probe that is still in flight when its scan is over looks next, and is aborted. So the
cache that a scan clears stays without records of the scans before, and a scan of an engine starts from an empty one. Where a
task may be caught in the middle of a step, that is not so: see `Series`.
-/
import EdgeTunnel.Random.Seeded
import EdgeTunnel.Scan.Machine

namespace EdgeTunnel.Scan

/-- what a probe does: how long it takes, and the round trip it reports if it succeeds -/
structure Trial where
  delay : Span
  rtt : Option Span
  deriving DecidableEq

/-- what the probe of each target does -/
abbrev Script := SocketAddress → Trial

/-- the end of a probe that is still to come, at a time in nanoseconds -/
structure Appointment where
  time : Nat
  id : Nat
  rtt : Option Span

/-- a scan on a clock; `log` is every probe that was started, the latest first, and `peak` the most in flight at a time -/
structure Timed (σ : Type) where
  state : State σ
  due : List Appointment
  log : List Probe
  peak : Nat

/-- how a scan ended, when, and the scan as it was then -/
structure Ending (σ : Type) where
  outcome : Except ScanError (List Answer)
  time : Nat
  scan : Timed σ

def tick : Nat := 1000000

/-- the time between two looks -/
def period (c : ScanConfig) : Nat := max c.poll.nanos tick

/-- how a scan ends at this instant, if it does -/
def State.verdict {σ : Type} (c : ScanConfig) (cancel : Option Nat) (now : Nat) (s : State σ) :
    Option (Except ScanError (List Answer)) :=
  if cancel.any (· ≤ now) then some (.error .canceled)
  else if c.deadline.nanos ≤ now then
    some (match s.found? c with
      | some as => .ok as
      | none => .error (.deadlineExceeded s.cache.size c.wanted s.cache.best))
  else if now % period c = 0 then (s.found? c).map .ok
  else none

/-- a scan that is not over at an instant still has time -/
theorem State.lt_deadline_of_verdict {σ : Type} {c : ScanConfig} {cancel : Option Nat} {now : Nat} {s : State σ}
    (h : s.verdict c cancel now = none) : now < c.deadline.nanos := by
  unfold verdict at h
  split at h
  · simp at h
  · split at h
    · simp at h
    · omega

namespace Timed

variable {σ : Type} [RandomSource σ]

def new (source : Candidates) (rng : σ) : Timed σ := ⟨.new source rng, [], [], 0⟩

/-- the probes that are due at `now` end -/
def settle (c : ScanConfig) (now : Nat) (t : Timed σ) : Timed σ :=
  let (done, due) := t.due.partition fun a => a.time ≤ now
  { t with due, state := done.foldl (fun s a => s.finish c a.id a.rtt) t.state }

/-- a probe is started, if a slot is free -/
def start (c : ScanConfig) (script : Script) (now : Nat) (t : Timed σ) : Timed σ :=
  let state := t.state.start c
  if t.state.hasSlot c then
    match state.flying.getLast? with
    | none => t
    | some p =>
      let trial := script p.target
      ⟨state, t.due ++ [⟨now + max trial.delay.nanos tick, p.id, trial.rtt⟩], p :: t.log, max t.peak state.flying.length⟩
  else t

/-- so many times a probe is started, if a slot is free -/
def fill (c : ScanConfig) (script : Script) (now : Nat) : Nat → Timed σ → Timed σ
  | 0, t => t
  | n + 1, t => fill c script now n (t.start c script now)

/-- the next instant at which something may happen -/
def nextInstant (c : ScanConfig) (cancel : Option Nat) (now : Nat) (t : Timed σ) : Nat :=
  let times := cancel.toList ++ t.due.map (·.time)
  max (now + 1) (times.foldl min (min c.deadline.nanos ((now / period c + 1) * period c)))

/-- the scan from an instant on -/
def play (c : ScanConfig) (script : Script) (cancel : Option Nat) (now : Nat) (t : Timed σ) : Ending σ :=
  match _h : t.state.verdict c cancel now with
  | some outcome => ⟨outcome, now, { t with state := t.state.stop }⟩
  | none =>
    let t := t.settle c now
    let t := t.fill c script now (c.concurrency - t.state.flying.length)
    play c script cancel (nextInstant c cancel now t) t
termination_by c.deadline.nanos - now
decreasing_by
  have := State.lt_deadline_of_verdict _h
  simp only [nextInstant]
  omega

end Timed

/-- what scans share: the random source and the cache -/
structure Engine where
  rng : Random.Seeded
  cache : Cache

/-- how a scan of an engine ended, after how many nanoseconds, the most probes in flight, and the probes in the order they
were started -/
structure Report where
  outcome : Except ScanError (List Answer)
  time : Nat
  peak : Nat
  probes : List Probe

namespace Engine

def new (rng : Random.Seeded) : Engine := ⟨rng, .empty⟩

/-- one scan: the limits are checked, then the cache is cleared, then the candidates are set up -/
def scan (e : Engine) (c : ScanConfig) (script : Script) (cancel : Option Nat) : Report × Engine :=
  if !c.isUsable then (⟨.error .unusable, 0, 0, []⟩, e)
  else
    match Candidates.new c.prefixes c.families with
    | .error cause => (⟨.error (.candidates cause), 0, 0, []⟩, { e with cache := .empty })
    | .ok source =>
      let (seed, rng) := RandomSource.word64 e.rng
      let r := (Timed.new source (Random.Seeded.ofSeed seed)).play c script cancel 0
      (⟨r.outcome, r.time, r.scan.peak, r.scan.log.reverse⟩, ⟨rng, r.scan.state.cache⟩)

def scans (c : ScanConfig) (script : Script) (cancel : Option Nat) : Nat → Engine → List (Report × Engine)
  | 0, _ => []
  | n + 1, e =>
    let r := e.scan c script cancel
    r :: scans c script cancel n r.2

end Engine

end EdgeTunnel.Scan
