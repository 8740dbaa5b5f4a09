/-
Tunnel profiles: the identity that a tunnel or a probe is started with.

A profile holds an interface section and a peer section. Keys are kept as the text they were read as, and are decoded when
a probe or a tunnel needs them.
-/
import EdgeTunnel.FilePath
import EdgeTunnel.Tunnel

namespace EdgeTunnel

structure InterfaceSection where
  privateKey : String := ""
  /-- device addresses with their host bits -/
  addresses : List Ip := []
  dns : List Ip := []
  mtu : Option Nat := none
  deriving DecidableEq

structure PeerSection where
  publicKey : String := ""
  presharedKey : Option String := none
  allowed : List Cidr := []
  endpoint : Option String := none
  keepalive : Option Nat := none
  deriving DecidableEq

structure Profile where
  interface : InterfaceSection := {}
  peer : PeerSection := {}
  deriving DecidableEq

inductive ProfileError where
  | read (path : FilePath) (cause : OsError)
  | malformed (line : Nat)
  | value (line : Nat) (text : String)
  | missing (what : String)
  | key (cause : KeyError)
  deriving DecidableEq

namespace ProfileError

def message : ProfileError → String
  | .read p e => s!"Failed to read profile {p}: {e.message}"
  | .malformed n => s!"Line {n}: expected `[Section]` or `Key = Value`"
  | .value n t => s!"Line {n}: invalid value {Text.quoted t}"
  | .missing w => s!"Profile is missing {w}"
  | .key e => s!"Invalid key: {e.message}"

def chain (e : ProfileError) : List String :=
  e.message :: (match e with
    | .key c => [c.message]
    | _ => [])

end ProfileError

namespace Profile

/-- the keys for a handshake probe -/
def probeKeys (p : Profile) : Except ProfileError ProbeKeys :=
  match ProbeKeys.parse p.interface.privateKey.toList p.peer.publicKey.toList
      (p.peer.presharedKey.map String.toList) with
  | .ok k => .ok k
  | .error e => .error (.key e)

/-- what a tunnel to an endpoint is started from -/
def tunnelSpec (p : Profile) (endpoint : SocketAddress) (mtu : Nat) (keepalive : Span) (obfuscate : Bool) :
    Except ProfileError TunnelSpec := do
  let k ← p.probeKeys
  return {
    peer := ⟨k.own, k.peer, k.psk, p.peer.allowed, endpoint, keepalive, mtu, obfuscate⟩
    addresses := p.interface.addresses
    dns := p.interface.dns
    mtu }

end Profile

end EdgeTunnel
