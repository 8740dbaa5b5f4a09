/-
The orchestrator: it builds the topology of a run and owns everything it has started.

Building goes step by step, each step asking something of the outside: a tunnel, a relay with its dial through the outer
tunnel, a proxy front, a transport. The first step that fails ends the building, and everything started is torn down. A
teardown fires the orchestrator's token, lets go of the front, joins the relay, and stops the tunnels from the one started
last to the one started first. The token stays fired.
-/
import EdgeTunnel.Orchestrator.Error
import EdgeTunnel.Proxy.Front
import EdgeTunnel.Rounding
import EdgeTunnel.Settings.Basic

namespace EdgeTunnel

/-- the identities of a run; only the outer tunnel of a chain uses the second one -/
structure Profiles where
  primary : Profile
  secondary : Option Profile
  deriving DecidableEq

/-- something asked of the outside -/
inductive Call where
  /-- the start of the tunnel with this number -/
  | startTunnel (id : Nat) (spec : TunnelSpec)
  /-- the local socket of a relay for datagrams of up to so many bytes -/
  | bindRelay (address : SocketAddress) (mtu : Nat)
  /-- the dial of a relay through a tunnel -/
  | dialRelay (tunnel : Nat) (remote : SocketAddress)
  /-- the socket of a proxy front over a tunnel -/
  | bindProxy (config : Proxy.Config) (tunnel : Nat)
  | startTransport (proxy listen : SocketAddress) (region : Region) (canceled : Bool)
  /-- the end of a relay is waited for -/
  | joinRelay
  | stopTunnel (id : Nat)
  deriving DecidableEq

inductive Level where
  | info
  | warn
  | error
  deriving DecidableEq, Repr

def Level.name : Level → String
  | .info => "INFO"
  | .warn => "WARN"
  | .error => "ERROR"

/-- what an orchestrator did: it asked for something and was granted it or not, or it logged a line -/
inductive Deed where
  | asked (call : Call) (granted : Bool)
  | logged (level : Level) (text : String)
  deriving DecidableEq

/-- the outside: how each call is answered. The first argument counts the deeds before, so that the same call may be answered
differently at another time. A transport that serves may have something to say for the log. -/
structure Outside where
  startTunnel : Nat → Nat → TunnelSpec → Except TunnelError Unit
  bindRelay : Nat → SocketAddress → Except OsError SocketAddress
  dialRelay : Nat → Nat → SocketAddress → Except TunnelError Unit
  bindProxy : Nat → Proxy.Config → Except Proxy.ProxyError SocketAddress
  transport : Option (Nat → SocketAddress → SocketAddress → Region → Bool → Except TransportError (Option String))

structure Orchestrator where
  topology : Topology
  proxy : ProxySettings
  /-- has its token fired? -/
  canceled : Bool
  /-- the tunnels started, outermost first -/
  handles : List TunnelHandle
  /-- the local address of its relay -/
  relay : Option SocketAddress
  /-- the address of its proxy front -/
  front : Option SocketAddress
  /-- how many tunnel starts were asked for -/
  starts : Nat
  /-- everything done so far, oldest first -/
  deeds : List Deed

namespace Orchestrator

/-- an orchestrator that has started nothing; its token is fired already when the run's token is -/
def new (topology : Topology) (proxy : ProxySettings) (canceled : Bool) : Orchestrator :=
  ⟨topology, proxy, canceled, [], none, none, 0, []⟩

/-- does its front accept connections, the loop not having been told to stop? -/
def isServing (o : Orchestrator) : Bool := o.front.isSome && !o.canceled

def log (o : Orchestrator) (level : Level) (text : String) : Orchestrator :=
  { o with deeds := o.deeds ++ [.logged level text] }

/-- a log line is written, if there is one -/
def remark (o : Orchestrator) : Option String → Orchestrator
  | none => o
  | some text => o.log .info text

/-- something is asked for and granted or not -/
def ask (o : Orchestrator) (call : Call) (granted : Bool) : Orchestrator :=
  { o with deeds := o.deeds ++ [.asked call granted] }

/-- a step of building: its result, and the orchestrator after it -/
abbrev Step (α : Type) := Except RunError α × Orchestrator

/-- a step, and then another on its result unless it failed -/
def andThen {α β : Type} (s : Step α) (next : α → Orchestrator → Step β) : Step β :=
  match s with
  | (.ok a, o) => next a o
  | (.error e, o) => (.error e, o)

/-- the tunnel whose handle is in this place -/
def tunnelAt (o : Orchestrator) (index : Nat) : Nat := (o.handles[index]?.map (·.id)).getD 0

/-- a tunnel is started; the place of the handle on it -/
def startTunnel (w : Outside) (o : Orchestrator) (name : String) (profile : Profile) (endpoint : SocketAddress)
    (mtu : Nat) (keepalive : Span) (obfuscate : Bool) : Step Nat :=
  match profile.tunnelSpec endpoint mtu keepalive obfuscate with
  | .error e => (.error (.profile e), o)
  | .ok spec =>
    let id := o.starts + 1
    match w.startTunnel o.deeds.length id spec with
    | .error e => (.error (.tunnel e), { o.ask (.startTunnel id spec) false with starts := id })
    | .ok () =>
      let o := (o.ask (.startTunnel id spec) true).log .info s!"{name} tunnel up (endpoint {endpoint}, mtu {mtu})"
      (.ok o.handles.length, { o with starts := id, handles := o.handles ++ [.started name mtu id] })

/-- a relay is set up to a remote endpoint through the tunnel whose handle is in a place; its local address -/
def startRelay (w : Outside) (o : Orchestrator) (index : Nat) (remote : SocketAddress) (mtu : Nat) : Step SocketAddress :=
  if mtu = 0 then (.error (.relay .invalidMtu), o)
  else
    let tunnel := o.tunnelAt index
    match w.bindRelay o.deeds.length .ephemeral with
    | .error e => (.error (.relay (.io e)), o.ask (.bindRelay .ephemeral mtu) false)
    | .ok a =>
      let o := o.ask (.bindRelay .ephemeral mtu) true
      match w.dialRelay o.deeds.length tunnel remote with
      | .error e => (.error (.relay (.dial e)), o.ask (.dialRelay tunnel remote) false)
      | .ok () =>
        let o := (o.ask (.dialRelay tunnel remote) true).log .info s!"UDP relay {a} -> {remote} (mtu {mtu})"
        (.ok a, { o with relay := some a })

/-- a number of bytes in units of 2^20 with one decimal; of a large number the first 53 binary digits count -/
def mebibytes (n : Nat) : String :=
  let tenths := Rounding.divide (Rounding.toDigits 53 n * 10) (2 ^ 20)
  s!"{tenths / 10}.{tenths % 10}"

/-- a proxy front is started over the tunnel whose handle is in a place; its address -/
def startProxy (w : Outside) (o : Orchestrator) (listen : SocketAddress) (index : Nat) : Step SocketAddress :=
  let c := o.proxy.config listen
  let tunnel := o.tunnelAt index
  match w.bindProxy o.deeds.length c with
  | .error e => (.error (.proxy e), o.ask (.bindProxy c tunnel) false)
  | .ok a =>
    let o := (o.ask (.bindProxy c tunnel) true).log .info
      s!"Proxy listening on {a} (max {c.maxConnections} connections, ~{mebibytes (c.memory % 2 ^ 64)}MB buffers)"
    (.ok a, { o with front := some a })

/-- a tunnel that faces the network -/
def startOuter (w : Outside) (o : Orchestrator) (name : String) (profile : Profile) (endpoint : SocketAddress) : Step Nat :=
  o.startTunnel w name profile endpoint Topology.outerMtu Topology.outerKeepalive true

/-- one tunnel behind the front -/
def buildDirect (w : Outside) (o : Orchestrator) (bind endpoint : SocketAddress) (p : Profiles) : Step SocketAddress :=
  andThen (o.startOuter w "primary" p.primary endpoint) fun tunnel o => o.startProxy w bind tunnel

/-- one tunnel behind a front on a loopback address, and a transport in front of that -/
def buildObfuscated (w : Outside) (o : Orchestrator) (region : Region) (bind endpoint : SocketAddress) (p : Profiles) :
    Step SocketAddress :=
  match w.transport with
  | none => (.error .missingTransport, o)
  | some transport =>
    andThen (o.startOuter w "primary" p.primary endpoint) fun tunnel o =>
      andThen (o.startProxy w .ephemeral tunnel) fun proxy o =>
        let call := Call.startTransport proxy bind region o.canceled
        match transport o.deeds.length proxy bind region o.canceled with
        | .error e => (.error (.transport e), o.ask call false)
        | .ok remark =>
          let o := (o.ask call true).remark remark
          (.ok bind, o.log .info s!"Serving on {bind} through obfuscation transport")

/-- a tunnel inside another: the outer tunnel, a relay through it, the inner tunnel to the relay, and the front -/
def buildChained (w : Outside) (o : Orchestrator) (bind first second : SocketAddress) (p : Profiles) :
    Step SocketAddress :=
  match p.secondary with
  | none => (.error (.missingProfile "secondary"), o)
  | some secondary =>
    andThen (o.startOuter w "outer" secondary first) fun outer o =>
      andThen (o.startRelay w outer second Topology.outerMtu) fun relay o =>
        andThen (o.startTunnel w "inner" p.primary relay Topology.innerMtu Topology.innerKeepalive false) fun inner o =>
          o.startProxy w bind inner

/-- the tunnels are stopped, the last one first -/
def stopTunnels (o : Orchestrator) : List TunnelHandle → Orchestrator
  | [] => o
  | h :: rest =>
    match h.stop with
    | (true, _) => stopTunnels ((o.log .info s!"Stopping {h.name} tunnel").ask (.stopTunnel h.id) true) rest
    | (false, _) => stopTunnels o rest

/-- everything is torn down -/
def shutdown (o : Orchestrator) : Orchestrator :=
  let o := { o with canceled := true, front := none }
  let o := if o.relay.isSome then { o.ask .joinRelay true with relay := none } else o
  let o := o.stopTunnels o.handles.reverse
  { o with handles := o.handles.map fun h => h.stop.2 }

def addressList (as : List SocketAddress) : String := "[" ++ String.intercalate ", " (as.map toString) ++ "]"

/-- the topology is built on the endpoints -/
def build (w : Outside) (o : Orchestrator) (bind : SocketAddress) (endpoints : List SocketAddress) (p : Profiles) :
    Step SocketAddress :=
  match o.topology, endpoints with
  | .direct, first :: _ => o.buildDirect w bind first p
  | .obfuscated region, first :: _ => o.buildObfuscated w region bind first p
  | .chained, first :: second :: _ => o.buildChained w bind first second p
  | t, es => (.error (.notEnoughEndpoints t.endpointsNeeded es.length), o)

/-- the topology is built; the address that users connect to -/
def start (w : Outside) (o : Orchestrator) (bind : SocketAddress) (endpoints : List SocketAddress) (p : Profiles) :
    Step SocketAddress :=
  let needed := o.topology.endpointsNeeded
  if endpoints.length < needed then (.error (.notEnoughEndpoints needed endpoints.length), o)
  else
    let o := o.log .info s!"Starting {o.topology} topology via {addressList (endpoints.take needed)}"
    match o.build w bind endpoints p with
    | (.ok a, o) => (.ok a, o)
    | (.error e, o) => (.error e, (o.log .warn s!"Topology setup failed: {e.message}").shutdown)

inductive Op where
  | start (bind : SocketAddress) (endpoints : List SocketAddress) (profiles : Profiles)
  | shutdown
  /-- the run's token fires -/
  | cancel

def step (w : Outside) (o : Orchestrator) : Op → Orchestrator
  | .start bind endpoints p => (o.start w bind endpoints p).2
  | .shutdown => o.shutdown
  | .cancel => { o with canceled := true }

def run (w : Outside) (o : Orchestrator) (ops : List Op) : Orchestrator := ops.foldl (step w) o

end Orchestrator

end EdgeTunnel
