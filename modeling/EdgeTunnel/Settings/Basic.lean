/-
The settings of a run.

Every setting has a default, except the region of an obfuscation section. `validate` checks the limits in order and picks
the topology; nothing is opened before it succeeds.
-/
import EdgeTunnel.FilePath
import EdgeTunnel.Proxy.Config
import EdgeTunnel.Scan.Config
import EdgeTunnel.Topology

namespace EdgeTunnel

/-- the transport that circumvents blocking: the exit country and the program that provides it -/
structure ObfuscationSettings where
  region : String
  program : String := "psiphon"
  /-- arguments with placeholders -/
  args : List String := [
    "--upstream-proxy", "socks5://\x7bupstream\x7d", "--listen", "\x7bdownstream\x7d", "--region", "\x7bregion\x7d"]
  deriving DecidableEq, Repr

/-- are IPv6 candidates scanned? `auto` asks whether the host reaches the IPv6 internet -/
inductive Ipv6Mode where
  | auto
  | on
  | off
  deriving DecidableEq, Repr

structure ScanSettings where
  maxRttMs : UInt64 := 1000
  deadlineSecs : UInt64 := 120
  concurrency : UInt64 := 32
  pollMs : UInt64 := 1000
  ipv4 : Bool := true
  ipv6 : Ipv6Mode := .auto
  /-- send decoy datagrams ahead of each probe? -/
  decoys : Bool := true
  ports : List UInt16 := [Catalogue.probePort]
  deriving DecidableEq, Repr

/-- the limits of a scan, with IPv6 decided -/
def ScanSettings.config (s : ScanSettings) (ipv6 : Bool) : ScanConfig where
  families := ⟨s.ipv4, ipv6⟩
  ports := s.ports
  maxRtt := .ofMillis s.maxRttMs.toNat
  deadline := .ofSecs s.deadlineSecs.toNat
  concurrency := s.concurrency.toNat
  poll := .ofMillis s.pollMs.toNat

structure ProfilePaths where
  primary : FilePath := "stuff/primary/wgcf-profile.ini"
  secondary : FilePath := "stuff/secondary/wgcf-profile.ini"
  deriving DecidableEq, Repr

structure ProxySettings where
  idleSecs : UInt64 := 15
  maxConnections : UInt64 := 512
  bufferSize : UInt64 := 32 * 1024
  deriving DecidableEq, Repr

def ProxySettings.config (s : ProxySettings) (listen : SocketAddress) : Proxy.Config where
  listen
  maxConnections := s.maxConnections
  bufferSize := s.bufferSize
  idle := .ofSecs s.idleSecs.toNat

structure Settings where
  /-- where users connect -/
  bind : SocketAddress := .standardBind
  /-- the endpoint to use without a scan -/
  endpoint : Option SocketAddress := none
  logLevel : String := "info"
  /-- a tunnel inside a tunnel? -/
  gool : Bool := false
  obfuscation : Option ObfuscationSettings := none
  scan : Option ScanSettings := none
  profiles : ProfilePaths := {}
  proxy : ProxySettings := {}
  deriving DecidableEq

namespace Settings

/-- do two settings mean the same? Profile paths are compared by component. -/
def same (a b : Settings) : Bool :=
  a.profiles.primary.components == b.profiles.primary.components &&
    a.profiles.secondary.components == b.profiles.secondary.components && { a with profiles := b.profiles } = b

/-- is the log to show everything? -/
def isDebug (s : Settings) : Bool := Text.lower s.logLevel.toList == "debug".toList

/-- the first limit of a scan that is out of range -/
def scanLimit? (s : ScanSettings) : Option BadLimit :=
  if s.maxRttMs = 0 then some .scanRtt
  else if s.concurrency = 0 then some .scanConcurrency
  else if s.ports.isEmpty then some .scanPorts
  else none

/-- the first limit of a proxy that is out of range -/
def proxyLimit? (s : ProxySettings) : Option BadLimit :=
  if s.maxConnections = 0 ∨ s.bufferSize = 0 then some .proxySizes
  else if s.idleSecs = 0 then some .proxyIdle
  else none

/-- the first limit that is out of range -/
def badLimit? (s : Settings) : Option BadLimit :=
  match s.scan.bind scanLimit? with
  | some l => some l
  | none => proxyLimit? s.proxy

/-- the region of the obfuscation section, when there is one -/
def region (s : Settings) : Except SettingsError (Option Region) :=
  match s.obfuscation with
  | none => .ok none
  | some o =>
    match Region.parse o.region with
    | some r => .ok (some r)
    | none => .error (.unsupportedRegion o.region)

/-- checks the limits and picks the topology -/
def validate (s : Settings) : Except SettingsError Topology := do
  if let some l := s.badLimit? then throw (.invalid l)
  Topology.select s.gool (← s.region)

end Settings

end EdgeTunnel
