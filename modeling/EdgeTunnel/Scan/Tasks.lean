/-
A scan as its tasks: a loop that starts probes, and the probes, each on its own.

The loop takes a slot and starts a probe with it, which keeps the slot as long as it lives. Before the loop takes a slot it
looks whether the scan has been stopped, and if so it ends; a stop after the look is seen at the next one. A probe looks as
well, each time before it goes on, and if the scan has been stopped it is aborted. A probe that has its round trip records it,
even if the scan has been stopped meanwhile. However a probe has ended, it gives its slot back after that.

The tasks take their steps in any order. `Scan.State` is the same scan with the end of a probe, its record and the return of
its slot as one step.
-/
import EdgeTunnel.Scan.Machine

namespace EdgeTunnel.Scan

inductive StartLoop where
  /-- it has no slot, and looks next -/
  | idle
  /-- it has looked, and asks for a slot -/
  | taking
  /-- it has a slot for the next probe -/
  | holding
  | ended
  deriving DecidableEq, Repr

/-- the slot that the loop has for itself -/
def StartLoop.slots : StartLoop → Nat
  | .holding => 1
  | _ => 0

inductive ProbeEnd where
  | answered (rtt : Span)
  | failed
  | aborted
  deriving DecidableEq

/-- what an ended probe has reported, if it has -/
def ProbeEnd.report? (p : Probe) : ProbeEnd → Option Answer
  | .answered rtt => some ⟨p.target, rtt⟩
  | _ => none

inductive Stage where
  /-- it looks before it goes on -/
  | waiting
  /-- it has looked, and goes on -/
  | going
  /-- it has its round trip, and records it next -/
  | answered (rtt : Span)
  /-- it has ended, and has its slot still -/
  | leaving
  deriving DecidableEq

structure Task where
  probe : Probe
  stage : Stage
  deriving DecidableEq

/-- has the probe not ended yet? -/
def Task.isUnderWay (t : Task) : Bool := t.stage ≠ .leaving

inductive TaskEvent where
  | look
  /-- it is not done yet -/
  | wait
  /-- it is done, with a round trip if it succeeded -/
  | finish (rtt : Option Span)
  | record
  /-- the slot is given back -/
  | release
  deriving DecidableEq

/-- a scan under way, task by task -/
structure Tasks (σ : Type) where
  source : Candidates
  rng : σ
  cache : Cache
  /-- the number of slots that nobody has -/
  free : Nat
  loop : StartLoop
  /-- the probes that have a slot -/
  live : List Task
  /-- how many probes were ever started -/
  started : Nat
  /-- the probes that have ended, and how, in this order -/
  ends : List (Probe × ProbeEnd)
  /-- the numbers of the probes that have given their slots back, in this order -/
  released : List Nat
  stopped : Bool

inductive TasksEvent where
  /-- the loop looks whether the scan has been stopped -/
  | look
  /-- the loop asks for a slot -/
  | take
  /-- the loop starts a probe -/
  | start
  /-- the probe with a number makes a step -/
  | task (id : Nat) (e : TaskEvent)
  | stop
  deriving DecidableEq

namespace Tasks

variable {σ : Type}

/-- a scan before its first probe, all its slots free -/
def new (c : ScanConfig) (source : Candidates) (rng : σ) : Tasks σ :=
  ⟨source, rng, .empty, c.concurrency, .idle, [], 0, [], [], false⟩

/-- what the probes have reported, in the order they ended -/
def reports (s : Tasks σ) : List Answer := s.ends.filterMap fun x => x.2.report? x.1

/-- the scan as a machine, on which a probe is in flight until it has ended -/
def toState (s : Tasks σ) : State σ :=
  ⟨s.source, s.rng, s.cache, (s.live.filter (·.isUnderWay)).map (·.probe), s.started, false⟩

def move (s : Tasks σ) (t : Task) (stage : Stage) : Tasks σ :=
  { s with live := s.live.map fun x => if x.probe.id = t.probe.id then { t with stage } else x }

def close (s : Tasks σ) (t : Task) (e : ProbeEnd) : Tasks σ :=
  { s.move t .leaving with ends := s.ends ++ [(t.probe, e)] }

/-- one step of a probe; a step that does not fit changes nothing -/
def handle (c : ScanConfig) (s : Tasks σ) (t : Task) : TaskEvent → Tasks σ
  | .look => if t.stage = .waiting then (if s.stopped then s.close t .aborted else s.move t .going) else s
  | .wait => if t.stage = .going then s.move t .waiting else s
  | .finish rtt =>
    if t.stage = .going then
      match rtt with
      | some rtt => s.move t (.answered rtt)
      | none => s.close t .failed
    else s
  | .record =>
    match t.stage with
    | .answered rtt =>
      { s.close t (.answered rtt) with cache := (s.cache.record c.maxRtt ⟨t.probe.target, rtt⟩).2 }
    | _ => s
  | .release =>
    if t.stage = .leaving then
      { s with
        free := s.free + 1
        live := s.live.filter (·.probe.id ≠ t.probe.id)
        released := s.released ++ [t.probe.id] }
    else s

variable [RandomSource σ]

/-- one step; an event that does not fit changes nothing -/
def step (c : ScanConfig) (s : Tasks σ) : TasksEvent → Tasks σ
  | .look => if s.loop = .idle then { s with loop := if s.stopped then .ended else .taking } else s
  | .take =>
    if s.loop = .taking then
      if 0 < s.free then { s with free := s.free - 1, loop := .holding } else { s with loop := .idle }
    else s
  | .start =>
    if s.loop = .holding then
      let (p, source, rng) := s.toState.draw c
      { s with source, rng, loop := .idle, live := s.live ++ [⟨p, .waiting⟩], started := s.started + 1 }
    else s
  | .task id e =>
    match s.live.find? (·.probe.id = id) with
    | some t => s.handle c t e
    | none => s
  | .stop => { s with stopped := true }

def run (c : ScanConfig) (s : Tasks σ) (es : List TasksEvent) : Tasks σ := es.foldl (step c) s

end Tasks

end EdgeTunnel.Scan
