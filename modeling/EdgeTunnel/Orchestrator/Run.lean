/-
A run: from settings to a serving topology.

The settings are validated, the profiles read, and the endpoints found: by a scan when there is a scan section, else the
fixed endpoint, else a random one of the catalogue. Then the orchestrator builds the topology on them.
-/
import EdgeTunnel.Orchestrator.Basic
import EdgeTunnel.Probe.Basic
import EdgeTunnel.Profile.Reader
import EdgeTunnel.Scan.Clock

namespace EdgeTunnel

/-- everything outside a run -/
structure World where
  files : Files
  outside : Outside
  /-- the transport that a program with arguments provides -/
  command : String → List String → Nat → SocketAddress → SocketAddress → Region → Bool →
    Except TransportError (Option String)
  /-- does the host reach the IPv6 internet? -/
  ipv6 : Bool
  /-- how the probes of a scan end -/
  script : Scan.Script
  rng : Random.Seeded
  /-- when the run is canceled, in nanoseconds from its start -/
  cancel : Option Nat

structure Running where
  /-- where users connect -/
  address : SocketAddress
  endpoints : List SocketAddress
  orchestrator : Orchestrator

/-- what came of a run: its outcome, what was probed, and everything done, oldest first -/
structure RunReport where
  outcome : Except RunError Running
  probes : List Scan.Probe
  deeds : List Deed

/-- the endpoints of a run: the outcome, what was probed, the log, and the time it took in nanoseconds -/
structure Endpoints where
  outcome : Except RunError (List SocketAddress)
  probes : List Scan.Probe
  deeds : List Deed
  time : Nat

namespace Run

/-- the settings as a topology -/
def topology (s : Settings) : Except RunError Topology :=
  match s.validate with
  | .ok t => .ok t
  | .error e => .error (.settings e)

def profile (files : Files) (path : FilePath) : Except RunError Profile :=
  match Profile.load files path with
  | .ok p => .ok p
  | .error e => .error (.profile e)

/-- the profiles that a topology needs -/
def profiles (files : Files) (s : Settings) (t : Topology) : Except RunError Profiles := do
  let primary ← profile files s.profiles.primary
  if t = .chained then return ⟨primary, some (← profile files s.profiles.secondary)⟩
  return ⟨primary, none⟩

/-- are IPv6 candidates scanned? -/
def wantsIpv6 (w : World) : Ipv6Mode → Bool
  | .on => true
  | .off => false
  | .auto => w.ipv6

def info (text : String) : Deed := .logged .info text

/-- the log of a scan: what it is about to do, and what it has chosen -/
def scanLog (c : ScanConfig) (outcome : Except Scan.ScanError (List Scan.Answer)) : List Deed :=
  let workers := s!"{c.concurrency} workers, max RTT {c.maxRtt.text}"
  let opening := info s!"Scanning {c.prefixes.length} prefixes with {Probe.Strategy.handshake.name} probe ({workers})"
  match outcome with
  | .error .unusable => []
  | .error (.candidates _) => []
  | .error _ => [opening]
  | .ok as => opening :: as.map fun a => info s!"Selected endpoint {a.target} (RTT {a.rtt.text})"

/-- at least two endpoints: a single one serves twice -/
def atLeastTwo : List SocketAddress → List SocketAddress
  | [a] => [a, a]
  | as => as

/-- the endpoints that a scan finds -/
def scanned (w : World) (s : ScanSettings) (primary : Profile) : Endpoints :=
  match primary.probeKeys with
  | .error e => ⟨.error (.profile e), [], [], 0⟩
  | .ok _ =>
    let c := s.config (wantsIpv6 w s.ipv6)
    let r := ((Scan.Engine.new w.rng).scan c w.script w.cancel).1
    let log := scanLog c r.outcome
    match r.outcome with
    | .error e => ⟨.error (.scan e), r.probes, log, r.time⟩
    | .ok as => ⟨.ok (atLeastTwo (as.map (·.target))), r.probes, log, r.time⟩

def endpoints (w : World) (s : Settings) (primary : Profile) : Endpoints :=
  match s.scan with
  | some scan => scanned w scan primary
  | none =>
    let e := s.endpoint.getD (Catalogue.randomEndpoint w.rng).1
    ⟨.ok [e, e], [], [], 0⟩

/-- the outside of a run: a transport that was not given is the program of the obfuscation section -/
def outside (w : World) (s : Settings) : Outside :=
  match w.outside.transport, s.obfuscation with
  | none, some o => { w.outside with transport := some (w.command o.program o.args) }
  | _, _ => w.outside

/-- the run after its endpoints have been found -/
def bringUp (w : World) (s : Settings) (t : Topology) (p : Profiles) (es : List SocketAddress) (time : Nat) :
    Except RunError Running × List Deed :=
  let o := Orchestrator.new t s.proxy (w.cancel.any (· ≤ time))
  let o := o.log .info s!"Using endpoints {Orchestrator.addressList es}"
  match o.start (outside w s) s.bind es p with
  | (.ok a, o) => (.ok ⟨a, es, o⟩, o.deeds)
  | (.error e, o) => (.error e, o.deeds)

end Run

def run (w : World) (s : Settings) : RunReport :=
  match (do let t ← Run.topology s; return (t, ← Run.profiles w.files s t)) with
  | .error e => ⟨.error e, [], []⟩
  | .ok (t, p) =>
    let es := Run.endpoints w s p.primary
    match es.outcome with
    | .error e => ⟨.error e, es.probes, es.deeds⟩
    | .ok as =>
      let (outcome, deeds) := Run.bringUp w s t p as es.time
      ⟨outcome, es.probes, es.deeds ++ deeds⟩

end EdgeTunnel
