/-
Topologies: how the tunnels of a run are arranged.

A run has one tunnel, a chain of two, or one tunnel behind a transport that circumvents blocking. Chaining and the
transport exclude each other.
-/
import EdgeTunnel.Region
import EdgeTunnel.Settings.Error
import EdgeTunnel.Span

namespace EdgeTunnel

inductive Topology where
  | direct
  | chained
  | obfuscated (region : Region)
  deriving DecidableEq

namespace Topology

/-- the topology that the mode flags ask for -/
def select (chain : Bool) (region : Option Region) : Except SettingsError Topology :=
  match chain, region with
  | true, some _ => .error .conflictingModes
  | true, none => .ok .chained
  | false, some r => .ok (.obfuscated r)
  | false, none => .ok .direct

/-- how many endpoints the tunnels go to -/
def endpointsNeeded : Topology → Nat
  | .chained => 2
  | _ => 1

instance : ToString Topology where
  toString
    | .direct => "direct"
    | .chained => "chained"
    | .obfuscated r => s!"obfuscated ({r})"

/-- the packet size of a tunnel that faces the network -/
def outerMtu : Nat := 1400

/-- the bytes that one layer of tunnel adds to a packet -/
def layerOverhead : Nat := 80

/-- the packet size of a tunnel inside another -/
def innerMtu : Nat := outerMtu - layerOverhead

/-- how often a tunnel that faces the network is kept alive -/
def outerKeepalive : Span := .ofSecs 3

/-- how often a tunnel inside another is kept alive -/
def innerKeepalive : Span := .ofSecs 10

end Topology

end EdgeTunnel
